import EcmaSyntax.Grammar.Type.Annotation

namespace EcmaSyntax

namespace Grammar

/-- The word for a yield may stand as a name at the current token. -/
def allowsYieldName : Parse Bool := do
  return (← atKind .kwYield) && !(← isStrict) && !(← get).inGenerator

/-- A default value after a target, if there is one. -/
def withDefault (rules : Rules) (mark : Mark) (left : Node) : Parse Node := do
  if ← eat .eq then
    let right ← rules.assignment false
    finish mark (.assignmentPattern left right none)
  else return left

/-- A target that binds names, and its default value if it has one. -/
def bindingElement (rules : Rules) : Parse Node := do
  let mark ← mark
  let left ← rules.binding
  withDefault rules mark left

/-- The mark of an optional parameter and the annotation of its type. -/
def withParameterType (rules : Rules) (param : Node) : Parse Node := do
  if ← hasTypes then
    let isOptional ← eat .question
    let marked ←
      if isOptional then
        match param.asOptional? with
        | some marked => pure marked
        | none => unexpectedAt (← get).lexer.lastStart
      else pure param
    if ← atKind .colon then annotate marked (← typeAnnotation rules)
    else if isOptional then refinish marked
    else return marked
  else return param

/-- The rest of a list, a name. -/
def restElement : Parse Node := do
  let mark ← mark
  next
  let argument ← identifier false
  finish mark (.restElement argument none false)

/-- Targets that bind names, up to a closing token: the parameters of a function, or the
elements of a list, which may have holes. A rest is the last of them. -/
def bindingList (rules : Rules) (close : Kind) (allowHoles : Bool) :
    Parse (List (Option Node)) :=
  loop (true, []) fun (first, elements) => do
    if ← eat close then return .done elements.reverse
    if !first then expect .comma
    if allowHoles && (← atKind .comma) then return .more (false, none :: elements)
    if ← eat close then return .done elements.reverse
    if ← atKind .ellipsis then
      let rest ← withParameterType rules (← restElement)
      expect close
      return .done (some rest :: elements).reverse
    let left ← withParameterType rules (← bindingElement rules)
    let element ← withDefault rules (Mark.ofNode left) left
    return .more (false, some element :: elements)

/-- The parameters of a function, in parentheses. -/
def parameters (rules : Rules) : Parse (List Node) := do
  expect .parenL
  return (← bindingList rules .parenR false).filterMap id

end Grammar

end EcmaSyntax
