import EcmaSyntax.Grammar.Rules

namespace EcmaSyntax

namespace Grammar

/-- A part of the text is read as a type. -/
def withinType {α : Type} (action : Parse α) : Parse α := do
  let before := (← get).lexer.inType
  modify fun state => { state with lexer := { state.lexer with inType := true } }
  let value ← action
  modify fun state => { state with lexer := { state.lexer with inType := before } }
  return value

/-- A type after the given mark. -/
def typeAfter (rules : Rules) (introducer : Kind) : Parse Node :=
  withinType do
    expect introducer
    rules.type

/-- A colon and a type. -/
def typeAnnotation (rules : Rules) : Parse Node := do
  let mark ← mark
  let annot ← typeAfter rules .colon
  finish mark (.typeAnnot annot)

/-- A colon and a type, if there is one and types belong to the language. -/
def typeAnnotation? (rules : Rules) : Parse (Option Node) := do
  if (← hasTypes) && (← atKind .colon) then return some (← typeAnnotation rules)
  else return none

/-- A node with an annotation, if it has a place for one; it is extended to the annotation
either way. -/
def annotate (node annot : Node) : Parse Node := refinish ((node.withAnnot? annot).getD node)

/-- An identifier and its type, if it has one. -/
def annotatedIdentifier (rules : Rules) : Parse Node := do
  let name ← identifier false
  if ← atKind .colon then annotate name (← typeAnnotation rules) else return name

/-- The parameter that stands for any type, if it is there. -/
def existentialParam? : Parse (Option Node) := do
  if ← atKind .star then
    let mark ← mark
    next
    return some (← finish mark .existentialTypeParam)
  else return none

/-- Items in angle brackets, an existential one among them; the last may be followed by a
comma. -/
def bracketed (item : Parse Node) : Parse (List Node) := do
  expectAngle "<"
  loop [] fun items => do
    if ← atAngle ">" then
      next
      return .done items.reverse
    let item ←
      match ← existentialParam? with
      | some param => pure param
      | none => item
    if !(← atAngle ">") then expect .comma
    return .more (item :: items)

/-- The declaration of type parameters. -/
def typeParameters (rules : Rules) : Parse Node := do
  let mark ← mark
  let params ← bracketed (annotatedIdentifier rules)
  finish mark (.typeParameterDeclaration params)

/-- The declaration of type parameters, if it is there. -/
def typeParameters? (rules : Rules) : Parse (Option Node) := do
  if ← atAngle "<" then return some (← typeParameters rules) else return none

/-- The declaration of type parameters, if it is there and types belong to the language. -/
def genericHead? (rules : Rules) : Parse (Option Node) := do
  if ← hasTypes then typeParameters? rules else return none

/-- The list of types that type parameters stand for. -/
def typeArguments (rules : Rules) : Parse Node := do
  let mark ← mark
  let params ← withinType (bracketed rules.type)
  finish mark (.typeParameterInstantiation params)

/-- The list of types that type parameters stand for, if it is there. -/
def typeArguments? (rules : Rules) : Parse (Option Node) := do
  if ← atAngle "<" then return some (← typeArguments rules) else return none

/-- Items with a comma between each two. -/
def commaSeparated (item : Parse Node) : Parse (List Node) :=
  loop [] fun items => do
    let items := (← item) :: items
    if ← eat .comma then return .more items else return .done items.reverse

end Grammar

end EcmaSyntax
