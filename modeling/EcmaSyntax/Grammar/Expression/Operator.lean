import EcmaSyntax.Grammar.Expression.Access

namespace EcmaSyntax

namespace Grammar

/-- A unary operator without parentheses may not stand left of an exponent. -/
def checkExponentBase (left : Node) : Parse Unit := do
  match left.form with
  | .unaryExpression _ _ argument =>
    let guarded := left.extra.any fun extra =>
      extra.parenthesized || extra.parenthesizedArgument == some true
    if !guarded then raise argument.start .unaryBeforeExponent
  | _ => return

/-- The form of a binary operator with its operands. -/
def binaryForm (kind : Kind) (operator : String) (left right : Node) : Form :=
  if kind == .logicalOr || kind == .logicalAnd then .logicalExpression operator left right
  else .binaryExpression operator left right

/-- A binary operator that begins here and its right operand, after the left one. The right
operand takes what binds tighter than a level. -/
def operation (rules : Rules) (left : Node) (start : Mark) (kind : Kind) (operator : String)
    (rightLevel : Nat) (noIn : Bool) : Parse Node := do
  if operator == "**" then checkExponentBase left
  next
  let rightMark ← mark
  let right ← nested do
    let operand ← rules.operand
    rules (.operators operand rightMark rightLevel noIn)
  finish start (binaryForm kind operator left right)

/-- The operators that bind tighter than a level and follow a left operand. The right operand
takes what binds tighter than the operator, or as tight if that groups to the right. -/
def operators (rules : Rules) (left : Node) (start : Mark) (level : Nat) (noIn : Bool) :
    Parse Node :=
  loop left fun left => do
    let kind ← kind
    match kind.precedence? with
    | none => return .done left
    | some precedence =>
      if precedence ≤ level || (noIn && kind == .kwIn) then return .done left
      let operator ← valueText
      let rightLevel := if kind.rightAssociative then precedence - 1 else precedence
      return .more (← operation rules left start kind operator rightLevel noIn)

/-- An operand after a unary operator. -/
def prefixed (rules : Rules) : Parse Node := do
  let mark ← mark
  let isUpdate ← atKind .incDec
  let operator ← valueText
  next
  let parenthesized ← atKind .parenL
  let argument ← nested rules.operand
  if isUpdate then checkAssigned argument
  else if (← isStrict) && operator == "delete" && argument.isIdentifier then
    raise mark.pos .deleteLocalInStrict
  let form :=
    if isUpdate then .updateExpression operator true argument
    else .unaryExpression operator true argument
  let node ← finish mark form
  return node.mapExtra fun extra => { extra with parenthesizedArgument := some parenthesized }

/-- The steps up or down after an operand; a line terminator keeps them from it. -/
def stepsAfter (mark : Mark) (operand : Node) : Parse Node :=
  loop operand fun operand => do
    if (← kind).isPostfixOp && !(← mayEndStatement) then
      let operator ← valueText
      checkAssigned operand
      next
      return .more (← finish mark (.updateExpression operator false operand))
    else return .done operand

/-- An operand with its unary operators. -/
def unary (rules : Rules) : Parse (Cover Node) := do
  if (← kind).isPrefixOp then return { value := ← prefixed rules }
  let mark ← mark
  let operand ← accessChain rules
  if operand.pending.isSome then return operand
  else return { value := ← stepsAfter mark operand.value }

/-- An expression with its binary operators. -/
def binary (rules : Rules) (noIn : Bool) : Parse (Cover Node) := do
  let mark ← mark
  let operand ← rules .unary
  if operand.pending.isSome then return operand
  else return { value := ← rules (.operators operand.value mark 0 noIn) }

/-- An expression, or a choice between two by a third one. -/
def conditional (rules : Rules) (noIn : Bool) : Parse (Cover Node) := do
  let mark ← mark
  let test ← binary rules noIn
  if test.pending.isSome then return test
  if ← eat .question then
    let consequent ← rules.assignment false
    expect .colon
    let alternate ← rules.assignment noIn
    return { value := ← finish mark (.conditionalExpression test.value consequent alternate) }
  else return test

/-- The value that a generator yields, if there is one on the same line. -/
def yieldExpression (rules : Rules) : Parse Node := do
  let mark ← mark
  next
  let kind ← kind
  if kind == .semi || (← mayEndStatement) || (kind != .star && !kind.startsExpr) then
    finish mark (.yieldExpression false none)
  else
    let delegate ← eat .star
    let argument ← rules.assignment false
    finish mark (.yieldExpression delegate (some argument))

/-- An item in parentheses; a colon and a type after it make it a cast. -/
def parenItem (rules : Rules) (node : Node) (mark : Mark) : Parse Node := do
  match ← typeAnnotation? rules with
  | some annot => finish mark (.typeCastExpression node annot false)
  | none => return node

/-- A pattern in parentheses is no target. -/
def checkGroupedTarget (target : Node) : Parse Unit := do
  if target.isParenthesized then
    match target.form with
    | .objectPattern .. => raise target.start .parenthesizedObjectPattern
    | .arrayPattern .. => raise target.start .parenthesizedArrayPattern
    | _ => return

/-- The operator of an assignment and its right side, after the left side. -/
def assignmentTail (rules : Rules) (mark : Mark) (left : Node) (noIn : Bool) : Parse Node := do
  let operator ← valueText
  let target ← if ← atKind .eq then toTarget false left else pure left
  checkAssigned target
  checkGroupedTarget target
  next
  let right ← rules.assignment noIn
  finish mark (.assignmentExpression operator target right none)

/-- An expression without commas that may still be read as a pattern. -/
def assignment (rules : Rules) (noIn inParens : Bool) : Parse (Cover Node) :=
  nested do
    if (← atKind .kwYield) && (← get).inGenerator then
      return { value := ← yieldExpression rules }
    let mark ← mark
    if (← atKind .parenL) || (← atKind .name) then
      modify fun state => { state with arrowAt := some mark.pos }
    let left ← conditional rules noIn
    let node ← if inParens then parenItem rules left.value mark else pure left.value
    if (← kind).isAssign then return { value := ← assignmentTail rules mark node noIn }
    else return { left with value := node }

end Grammar

end EcmaSyntax
