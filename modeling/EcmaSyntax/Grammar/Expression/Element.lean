import EcmaSyntax.Grammar.Expression.Sequence

namespace EcmaSyntax

namespace Grammar

/-- A name within a tag, which may be a keyword. -/
def tagName : Parse Node := do
  let mark ← mark
  let current ← kind
  let name ←
    if current == .jsxName then valueText
    else
      match current.keyword? with
      | some keyword => pure keyword
      | none => unexpected
  next
  finish mark (.jsxIdentifier name)

/-- A name, or two with a colon between them. -/
def spacedName : Parse Node := do
  let mark ← mark
  let name ← tagName
  if ← eat .colon then
    let inner ← tagName
    finish mark (.jsxNamespacedName name inner)
  else return name

/-- The name of an element: names with dots between them. -/
def elementName : Parse Node := do
  let start ← mark
  let name ← spacedName
  loop name fun name => do
    if ← eat .dot then
      let property ← tagName
      return .more (← finish start (.jsxMemberExpression name property))
    else return .done name

/-- The name of an element as it is written. -/
def writtenName (name : Node) : String :=
  match _same : name.form with
  | .jsxIdentifier word => word
  | .jsxNamespacedName space inner => writtenName space ++ ":" ++ writtenName inner
  | .jsxMemberExpression object property => writtenName object ++ "." ++ writtenName property
  | _ => ""
termination_by sizeOf name
decreasing_by
  all_goals
    have := name.sizeOf_form_lt
    rw [_same] at this
    simp at this
    omega

/-- The place between two braces that hold nothing. -/
def emptyHole : Parse Node := do
  let lexer := (← get).lexer
  finishAt ⟨lexer.lastStop, lexer.lastStopLoc⟩ .jsxEmptyExpression lexer.start lexer.startLoc

/-- An expression in braces. -/
def expressionHole (rules : Rules) : Parse Node := do
  let mark ← mark
  next
  let inner ← if ← atKind .braceR then emptyHole else expression rules false
  expect .braceR
  finish mark (.jsxExpressionContainer inner)

/-- The expression in braces is missing. -/
def isEmptyHole (node : Node) : Bool :=
  match node.form with
  | .jsxExpressionContainer inner =>
    match inner.form with
    | .jsxEmptyExpression => true
    | _ => false
  | _ => false

/-- The value of an attribute. -/
def attributeValue (rules : Rules) : Parse Node := do
  match ← kind with
  | .braceL => do
    let node ← expressionHole rules
    if isEmptyHole node then raise node.start .emptyAttribute
    return node
  | .jsxTagStart | .string => do
    let node ← rules.atom
    return { node with extra := none }
  | _ => raise (← get).lexer.start .badAttributeValue

/-- An attribute, or a spread of attributes. -/
def tagAttribute (rules : Rules) : Parse Node := do
  let mark ← mark
  if ← eat .braceL then
    expect .ellipsis
    let argument ← rules.assignment false
    expect .braceR
    finish mark (.jsxSpreadAttribute argument)
  else
    let name ← spacedName
    let value ← if ← eat .eq then some <$> attributeValue rules else pure none
    finish mark (.jsxAttribute name value)

/-- The rest of an opening tag; the second result tells that the element is empty. -/
def openingTail (rules : Rules) (mark : Mark) : Parse (Node × Bool) := do
  let name ← elementName
  let attributes ← loop [] fun attributes => do
    if (← atKind .slash) || (← atKind .jsxTagEnd) then return .done attributes.reverse
    else return .more ((← tagAttribute rules) :: attributes)
  let selfClosing ← eat .slash
  expect .jsxTagEnd
  return (← finish mark (.jsxOpeningElement name attributes selfClosing), selfClosing)

/-- The rest of a closing tag. -/
def closingTail (mark : Mark) : Parse Node := do
  let name ← elementName
  expect .jsxTagEnd
  finish mark (.jsxClosingElement name)

/-- A text between tags. -/
def textChild : Parse Node := do
  let value ← valueText
  let node ← literal (.jsxText value) none
  return { node with extra := none }

/-- The children of an element and its closing tag. -/
def elementContent (rules : Rules) : Parse (List Node × Node) :=
  loop [] fun children => do
    match ← kind with
    | .jsxTagStart => do
      let mark ← mark
      next
      if ← eat .slash then
        let closing ← closingTail mark
        return .done (children.reverse, closing)
      else return .more ((← rules (.element mark)) :: children)
    | .jsxText => return .more ((← textChild) :: children)
    | .braceL => return .more ((← expressionHole rules) :: children)
    | _ => unexpected

/-- The name of a tag. -/
def tagNameOf? (tag : Node) : Option Node :=
  match tag.form with
  | .jsxOpeningElement name _ _ => some name
  | .jsxClosingElement name => some name
  | _ => none

/-- A closing tag has the name of its opening tag. -/
def checkClosing (opening closing : Node) : Parse Unit := do
  let expected := ((tagNameOf? opening).map writtenName).getD ""
  if (tagNameOf? closing).map writtenName != some expected then
    raise closing.start (.closingTag expected)

/-- An element after its first mark. -/
def element (rules : Rules) (mark : Mark) : Parse Node :=
  nested do
    let (opening, selfClosing) ← openingTail rules mark
    let (children, closing) ←
      if selfClosing then pure ([], none)
      else
        let (children, closing) ← elementContent rules
        checkClosing opening closing
        pure (children, some closing)
    if ← atAngle "<" then raise (← get).lexer.start .adjacentElements
    finish mark (.jsxElement opening children closing)

end Grammar

end EcmaSyntax
