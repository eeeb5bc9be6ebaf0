import EcmaSyntax.Grammar.Class
import EcmaSyntax.Grammar.Expression.Element
import EcmaSyntax.Grammar.Expression.Parenthesis

namespace EcmaSyntax

namespace Grammar

/-- An expression that one token spells. -/
def tokenExpression (mark : Mark) (form : Form) : Parse Node := do
  next
  finish mark form

/-- The word for the parent class, which is called, or of which a member is taken. -/
def superExpression (mark : Mark) : Parse Node := do
  let allowed := (← read).options.allowSuper
  let inMethod := (← get).inMethod
  if inMethod.isNone && !allowed then raise mark.pos .superOutsideMethod
  next
  match ← kind with
  | .parenL =>
    if inMethod != some .constructing && !allowed then
      raise mark.pos .superCallOutsideConstructor
  | .bracketL => pure ()
  | .dot => pure ()
  | _ => unexpected
  finish mark .superKeyword

/-- The operand of a wait, after its word. -/
def awaitTail (rules : Rules) (mark : Mark) : Parse Node := do
  if !(← get).inAsync then unexpected
  if ← endsStatement then unexpected
  let all ← eat .star
  let argument ← rules.operand
  finish mark (.awaitExpression all argument)

/-- An arrow function whose only parameter is a given name, if an arrow follows it. -/
def nameOrArrow (rules : Rules) (mark : Mark) (id : Node) (maybeArrow : Bool) :
    Parse Node := do
  let isArrow ← if maybeArrow && !(← mayEndStatement) then eat .arrow else pure false
  if isArrow then arrowTail rules mark [id] false none else return id

/-- What begins with the word for an asynchronous function, if it is one. -/
def asyncOrName (rules : Rules) (mark : Mark) (id : Node) (maybeArrow : Bool) :
    Parse Node := do
  if (← atKind .kwFunction) && !(← mayEndStatement) then
    next
    functionTail rules mark true false false
  else if maybeArrow && (← atKind .name) then
    let param ← identifier false
    expect .arrow
    arrowTail rules mark [param] true none
  else nameOrArrow rules mark id maybeArrow

/-- What begins with a name: the name itself, a wait, or a function. -/
def nameExpression (rules : Rules) (mark : Mark) (maybeArrow : Bool) : Parse Node := do
  let inAsync := (← get).inAsync
  if (← atKind .kwYield) && (← get).inGenerator then unexpected
  let isAwait := inAsync && (← get).lexer.value.text? == some "await"
  let id ← identifier (isAwait || (← allowsYieldName))
  match id.name? with
  | some "await" =>
    if inAsync || (← read).isModule then awaitTail rules mark
    else nameOrArrow rules mark id maybeArrow
  | some "async" => asyncOrName rules mark id maybeArrow
  | _ => nameOrArrow rules mark id maybeArrow

/-- A block whose last value is that of the expression. -/
def doExpression (rules : Rules) (mark : Mark) : Parse Node := do
  next
  let body ← enclosed rules false (← get).inGenerator false
  finish mark (.doExpression body)

/-- A property of a keyword, which has to be the given one. -/
def metaPropertyTail (mark : Mark) (word : Node) (wanted : String) : Parse Node := do
  let property ← identifier true
  if !property.isNamed wanted then
    raise property.start (.metaProperty (word.name?.getD "") wanted)
  finish mark (.metaProperty word property)

/-- A function that is an expression, or the value that was sent to a generator. -/
def functionExpression (rules : Rules) : Parse Node := do
  let mark ← mark
  let word ← identifier true
  let isMeta ← if (← get).inGenerator then eat .dot else pure false
  if isMeta then metaPropertyTail mark word "sent"
  else functionTail rules mark false false false

/-- A construction, or the target of one. -/
def newExpression (rules : Rules) : Parse Node := do
  let mark ← mark
  let word ← identifier true
  if ← eat .dot then metaPropertyTail mark word "target"
  else
    let callee ← memberChain rules
    let arguments ← if ← eat .parenL then plainArguments rules else pure []
    finish mark (.newExpression callee arguments)

/-- A class that is an expression, with its decorators. -/
def classExpression (rules : Rules) : Parse Node := do
  if ← atKind .at then leadingDecorators rules false
  let mark ← mark
  let decorators ← takeDecorators
  classTail rules mark decorators false false

/-- A member that is taken bound to its object. -/
def bindExpression (rules : Rules) (mark : Mark) : Parse Node := do
  next
  let callee ← memberChain rules
  match callee.form with
  | .memberExpression .. => finish mark (.bindExpression none callee)
  | _ => raise callee.start .bindOnNonMember

/-- The literal of a regular expression. -/
def regexpLiteral : Parse Node := do
  match (← get).lexer.value with
  | .regexp pattern flags => literal (.regExpLiteral pattern flags) none
  | _ => literal (.regExpLiteral "" "") none

/-- An expression that no operator takes apart, and that is no list, object or markup. -/
def plainPrimary (rules : Rules) : Parse Node := do
  let mark ← mark
  let maybeArrow := (← get).arrowAt == some mark.pos
  match ← kind with
  | .kwSuper => superExpression mark
  | .kwThis => tokenExpression mark .thisExpression
  | .kwYield | .name => nameExpression rules mark maybeArrow
  | .kwDo => doExpression rules mark
  | .regexp => regexpLiteral
  | .num => numberLiteral
  | .string => stringLiteral
  | .kwNull => tokenExpression mark .nullLiteral
  | .kwTrue => tokenExpression mark (.booleanLiteral true)
  | .kwFalse => tokenExpression mark (.booleanLiteral false)
  | .parenL => parentheses rules mark maybeArrow
  | .kwFunction => functionExpression rules
  | .at | .kwClass => classExpression rules
  | .kwNew => newExpression rules
  | .backQuote => template rules
  | .doubleColon => bindExpression rules mark
  | _ => unexpected

/-- An expression that no operator takes apart. A list or object may still be read as a
pattern. -/
def primary (rules : Rules) : Parse (Cover Node) := do
  match ← kind with
  | .bracketL => arrayLiteral rules
  | .braceL => object rules false
  | .jsxText => return { value := ← textChild }
  | .jsxTagStart => do
    let mark ← mark
    next
    return { value := ← rules (.element mark) }
  | _ => return { value := ← plainPrimary rules }

end Grammar

end EcmaSyntax
