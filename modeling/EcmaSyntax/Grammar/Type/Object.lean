import EcmaSyntax.Grammar.Type.Annotation

namespace EcmaSyntax

namespace Grammar

/-- A parameter of the type of a function. -/
def functionTypeParam (rules : Rules) : Parse Node := do
  let mark ← mark
  let name ← identifier false
  let isOptional ← eat .question
  let annot ← typeAfter rules .colon
  finish mark (.functionTypeParam name isOptional annot)

/-- The parameters of the type of a function: the named ones and a rest. -/
def functionTypeParams (rules : Rules) : Parse (List Node × Option Node) := do
  let params ← loop [] fun params => do
    if ← atKind .name then
      let param ← functionTypeParam rules
      if !(← atKind .parenR) then expect .comma
      return .more (param :: params)
    else return .done params.reverse
  if ← eat .ellipsis then return (params, some (← functionTypeParam rules))
  else return (params, none)

/-- The parameters of a function in parentheses and its result after a colon. -/
def signature (rules : Rules) (mark : Mark) : Parse Node := do
  let typeParameters ← typeParameters? rules
  expect .parenL
  let (params, rest) ← functionTypeParams rules
  expect .parenR
  let returnType ← typeAfter rules .colon
  finish mark (.functionType typeParameters params rest returnType)

/-- The rest of the type of a function after its parenthesis. -/
def functionTypeTail (rules : Rules) (mark : Mark) (typeParameters : Option Node) :
    Parse Node := do
  let (params, rest) ← functionTypeParams rules
  expect .parenR
  expect .arrow
  let returnType ← rules.type
  finish mark (.functionType typeParameters params rest returnType)

/-- A member of the type of an object ends with a semicolon, a comma or the object. -/
def endTypeMember : Parse Unit := do
  if ← eat .semi then return
  if ← eat .comma then return
  if !(← atKind .braceR) then unexpected

/-- The types of the keys and values of an object. -/
def typeIndexer (rules : Rules) (mark : Mark) (isStatic : Bool) : Parse Node := do
  expect .bracketL
  let id ← propertyLabel
  let key ← typeAfter rules .colon
  expect .bracketR
  let value ← typeAfter rules .colon
  endTypeMember
  finish mark (.objectTypeIndexer id key value isStatic)

/-- The type of an object as a function. -/
def typeCallProperty (rules : Rules) (mark : Mark) (isStatic : Bool) : Parse Node := do
  let value ← signature rules (← Grammar.mark)
  endTypeMember
  finish mark (.objectTypeCallProperty value isStatic)

/-- The type of a property or method of an object. -/
def typeProperty (rules : Rules) (mark : Mark) (isStatic : Bool) : Parse Node := do
  let key ← propertyLabel
  if (← atAngle "<") || (← atKind .parenL) then
    let value ← signature rules mark
    endTypeMember
    finish mark (.objectTypeProperty key value false isStatic)
  else
    let isOptional ← eat .question
    let value ← typeAfter rules .colon
    endTypeMember
    finish mark (.objectTypeProperty key value isOptional isStatic)

/-- The members of the type of an object, each kind gathered backwards. -/
structure TypeMembers where
  properties : List Node := []
  indexers : List Node := []
  callProperties : List Node := []

/-- A member of a class is marked as belonging to the class; the mark may also be a name. -/
def staticMark (allowed : Bool) : Parse Bool := do
  if allowed && (← atWord "static") then
    let ahead ← lex Lexer.lookahead
    if ahead.kind == .colon || ahead.kind == .question then return false
    else
      next
      return true
  else return false

/-- The type of an object; one that stands for a class may have members of the class. -/
def objectType (rules : Rules) (allowStatic : Bool) : Parse Node := do
  let start ← mark
  expect .braceL
  let members ← loop ({} : TypeMembers) fun members => do
    if ← eat .braceR then return .done members
    let mark ← mark
    let isStatic ← staticMark allowStatic
    if ← atKind .bracketL then
      let indexer ← typeIndexer rules mark isStatic
      return .more { members with indexers := indexer :: members.indexers }
    else if (← atKind .parenL) || (← atAngle "<") then
      let property ← typeCallProperty rules mark isStatic
      return .more { members with callProperties := property :: members.callProperties }
    else
      let property ← typeProperty rules mark isStatic
      return .more { members with properties := property :: members.properties }
  finish start (.objectType members.properties.reverse members.indexers.reverse
    members.callProperties.reverse)

end Grammar

end EcmaSyntax
