import EcmaSyntax.Grammar.Expression.Sequence
import EcmaSyntax.Grammar.Function

namespace EcmaSyntax

namespace Grammar

/-- An arrow may follow the parenthesis of a call, or the type that the function returns. -/
def asyncArrowFollows : Parse Bool := do
  return ((← hasTypes) && (← atKind .colon)) || (← atKind .arrow)

/-- The operands of a call, up to a parenthesis. If the call may turn out to be the head of
an arrow function, none of them may begin with a parenthesis. -/
def callArguments (rules : Rules) (maybeArrow : Bool) : Parse (List Node) := do
  let (items, inner) ← loop (true, [], false) fun (first, items, inner) => do
    if ← eat .parenR then return .done (items.reverse, inner)
    if !first then
      expect .comma
      if ← eat .parenR then return .done (items.reverse, inner)
    let inner := inner || (← atKind .parenL)
    let item ← (← listItem rules false).settle
    return .more (false, item.toList ++ items, inner)
  if maybeArrow && inner && (← asyncArrowFollows) then unexpected
  return items

/-- A call, which an arrow after it turns into the head of an arrow function. The second
result tells that this is so. -/
def callTail (rules : Rules) (mark : Mark) (base : Node) : Parse (Node × Bool) := do
  let maybeArrow := (← get).arrowAt == some base.start && base.isNamed "async" &&
    !(← mayEndStatement)
  next
  let arguments ← callArguments rules maybeArrow
  let call ← finish mark (.callExpression base arguments)
  if maybeArrow && (← asyncArrowFollows) then
    let returnType ← typeAnnotation? rules
    expect .arrow
    return (← arrowTail rules mark arguments true returnType, true)
  else
    checkReferenced arguments
    return (call, false)

/-- A member of an expression is taken, or the expression marks a template. -/
def memberTail? (rules : Rules) (mark : Mark) (base : Node) : Parse (Option Node) := do
  match ← kind with
  | .dot => do
    next
    let property ← identifier true
    return some (← finish mark (.memberExpression base property false))
  | .bracketL => do
    next
    let property ← expression rules false
    expect .bracketR
    return some (← finish mark (.memberExpression base property true))
  | .backQuote => do
    let quasi ← template rules
    return some (← finish mark (.taggedTemplateExpression base quasi))
  | _ => return none

/-- An expression and the members that follow it, but no calls. -/
def memberChain (rules : Rules) : Parse Node := do
  let mark ← mark
  let base ← rules.atom
  loop base fun base => do
    match ← memberTail? rules mark base with
    | some node => return .more node
    | none => return .done base

/-- A member of an expression is taken, or it is called or bound, or nothing of this follows. -/
def accessTurn (rules : Rules) (mark : Mark) (base : Node) : Parse (Turn Node Node) := do
  match ← kind with
  | .doubleColon => do
    next
    let callee ← memberChain rules
    return .more (← finish mark (.bindExpression (some base) callee))
  | .parenL => do
    let (node, isArrow) ← callTail rules mark base
    if isArrow then return .done node else return .more node
  | _ =>
    match ← memberTail? rules mark base with
    | some node => return .more node
    | none => return .done base

/-- The members, calls and bindings that follow an expression. -/
def access (rules : Rules) (mark : Mark) (base : Node) : Parse Node :=
  loop base (accessTurn rules mark)

/-- The node is an arrow function, and not in parentheses. -/
def isBareArrow (node : Node) (arrowAt : Option Nat) : Bool :=
  match node.form with
  | .arrowFunctionExpression _ => some node.start == arrowAt
  | _ => false

/-- An expression with the members and calls that follow it. -/
def accessChain (rules : Rules) : Parse (Cover Node) := do
  let mark ← mark
  let arrowAt := (← get).arrowAt
  let base ← rules .atom
  if isBareArrow base.value arrowAt || base.pending.isSome then return base
  else return { value := ← access rules mark base.value }

end Grammar

end EcmaSyntax
