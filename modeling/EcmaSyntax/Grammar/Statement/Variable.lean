import EcmaSyntax.Grammar.Expression.Sequence
import EcmaSyntax.Grammar.Function
import EcmaSyntax.Grammar.Statement.Label

namespace EcmaSyntax

namespace Grammar

/-- The kind of variables that a word declares. -/
def variableKind? : Kind → Option VariableKind
  | .kwVar => some .variable
  | .kwLet => some .mutable
  | .kwConst => some .constant
  | _ => none

/-- What a loop goes through follows. -/
def goesThrough : Parse Bool := do
  return (← atKind .kwIn) || (← atWord "of")

/-- What a declaration binds, with its type. -/
def variableHead (rules : Rules) : Parse Node := do
  let id ← rules.binding
  checkBound id
  match ← typeAnnotation? rules with
  | some annot => annotate id annot
  | none => return id

/-- What a declaration binds and its first value. A constant has one, and so has a pattern,
unless a loop gives it. -/
def declarator (rules : Rules) (inLoop : Bool) (kind : VariableKind) : Parse Node := do
  let mark ← mark
  let id ← variableHead rules
  let given ← goesThrough
  let init ←
    if ← eat .eq then some <$> rules.assignment inLoop
    else if kind == .constant && !given then unexpected
    else if !id.isIdentifier && !(inLoop && given) then
      raise (← get).lexer.lastStop .patternWithoutInitializer
    else pure none
  finish mark (.variableDeclarator id init)

/-- The declarations of variables after their first word. -/
def declarators (rules : Rules) (inLoop : Bool) (kind : VariableKind) : Parse (List Node) :=
  commaSeparated (declarator rules inLoop kind)

/-- A declaration of variables. -/
def variableStatement (rules : Rules) (mark : Mark) (kind : VariableKind) : Parse Node := do
  next
  let declarations ← declarators rules false kind
  endStatement
  finish mark (.variableDeclaration kind declarations)

/-- An expression that may be left out before a given token. -/
def expressionBefore (rules : Rules) (close : Kind) : Parse (Option Node) := do
  if ← atKind close then return none else return some (← expression rules false)

/-- The rest of a loop that counts. -/
def countingLoop (rules : Rules) (mark : Mark) (init : Option Node) : Parse Node := do
  expect .semi
  let test ← expressionBefore rules .semi
  expect .semi
  let update ← expressionBefore rules .parenR
  expect .parenR
  let body ← rules.statement false false
  finish mark (.forStatement init test update body)

/-- The rest of a loop that goes through the keys or values of something. -/
def throughLoop (rules : Rules) (mark : Mark) (left : Node) : Parse Node := do
  let keys ← atKind .kwIn
  next
  let right ← expression rules false
  expect .parenR
  let body ← rules.statement false false
  finish mark
    (if keys then .forInStatement left right body else .forOfStatement left right body)

/-- A single variable is declared, and has no value. -/
def isSingleWithoutValue : List Node → Bool
  | [single] =>
    match single.form with
    | .variableDeclarator _ none => true
    | _ => false
  | _ => false

/-- The rest of a loop that declares variables. -/
def declaringLoop (rules : Rules) (mark : Mark) (kind : VariableKind) : Parse Node := do
  let initMark ← Grammar.mark
  next
  let declarations ← declarators rules true kind
  let init ← finish initMark (.variableDeclaration kind declarations)
  if (← goesThrough) && isSingleWithoutValue declarations then throughLoop rules mark init
  else countingLoop rules mark (some init)

/-- The rest of a loop that begins with an expression. -/
def expressionLoop (rules : Rules) (mark : Mark) : Parse Node := do
  let init ← coverExpression rules true
  if ← goesThrough then
    let target ← toTarget false init.value
    checkAssigned target
    throughLoop rules mark target
  else countingLoop rules mark (some (← init.settle))

/-- A loop that counts or goes through something. -/
def forStatement (rules : Rules) (mark : Mark) : Parse Node := do
  next
  let node ← withinLoop do
    expect .parenL
    let kind ← kind
    if kind == .semi then countingLoop rules mark none
    else
      match variableKind? kind with
      | some kind => declaringLoop rules mark kind
      | none => expressionLoop rules mark
  return node

end Grammar

end EcmaSyntax
