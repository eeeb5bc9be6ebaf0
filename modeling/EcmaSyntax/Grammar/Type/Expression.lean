import EcmaSyntax.Grammar.Type.Object

namespace EcmaSyntax

namespace Grammar

/-- The form of a type that has a name of its own. -/
def namedType? : String → Option Form
  | "any" => some .anyType
  | "void" => some .voidType
  | "bool" => some .booleanType
  | "boolean" => some .booleanType
  | "mixed" => some .mixedType
  | "number" => some .numberType
  | "string" => some .stringType
  | _ => none

/-- A name with the names that qualify it, and the types that its parameters stand for. -/
def genericType (rules : Rules) (mark : Mark) (id : Node) : Parse Node := do
  let id ← loop id fun id => do
    if ← eat .dot then
      let property ← identifier false
      return .more (← finish mark (.qualifiedTypeIdentifier id property))
    else return .done id
  let typeParameters ← typeArguments? rules
  finish mark (.genericType id typeParameters)

/-- A type that begins with a name. -/
def typeOfName (rules : Rules) (mark : Mark) : Parse Node := do
  let id ← identifier false
  match id.name?.bind namedType? with
  | some form => finish mark form
  | none => genericType rules mark id

/-- The types of the elements of a list of fixed length. -/
def tupleType (rules : Rules) : Parse Node := do
  let start ← mark
  expect .bracketL
  let types ← loop [] fun types => do
    if (← atKind .eof) || (← atKind .bracketR) then return .done types.reverse
    let item ← rules.type
    if ← atKind .bracketR then return .done (item :: types).reverse
    expect .comma
    return .more (item :: types)
  expect .bracketR
  finish start (.tupleType types)

/-- A parenthesis in a type holds a type, not the parameters of a function. -/
def groupsType : Parse Bool := do
  match ← kind with
  | .parenR => return false
  | .ellipsis => return false
  | .name => do
    let ahead ← lex Lexer.lookahead
    return ahead.kind != .question && ahead.kind != .colon
  | _ => return true

/-- A type in parentheses, or the type of a function. -/
def groupedType (rules : Rules) (mark : Mark) : Parse Node := do
  next
  if ← groupsType then
    let grouped ← rules.type
    expect .parenR
    if ← eat .arrow then raise mark.pos .groupedFunctionType
    return grouped
  else functionTypeTail rules mark none

/-- A type that one token spells. -/
def simpleType (mark : Mark) (form : Form) : Parse Node := do
  next
  finish mark form

/-- A type without any operators. -/
def primaryType (rules : Rules) : Parse Node := do
  let mark ← mark
  match ← kind with
  | .name => typeOfName rules mark
  | .braceL => objectType rules false
  | .bracketL => tupleType rules
  | .relational =>
    if ← atAngle "<" then
      let params ← typeParameters rules
      expect .parenL
      functionTypeTail rules mark (some params)
    else unexpected
  | .parenL => groupedType rules mark
  | .string => do
    let value ← valueText
    literal (.stringLiteralType value) (some (.text value))
  | .num => do
    let value ← valueNumber
    literal (.numericLiteralType value) (some (.number value))
  | .kwTrue => simpleType mark (.booleanLiteralType true)
  | .kwFalse => simpleType mark (.booleanLiteralType false)
  | .kwNull => simpleType mark .nullLiteralType
  | .kwThis => simpleType mark .thisType
  | .kwTypeof => do
    next
    let argument ← rules .primaryType
    finish mark (.typeofType argument)
  | _ => unexpected

/-- A type and the brackets after it, which make it the type of a list. Brackets on a new
line begin a statement. -/
def arrayType (rules : Rules) : Parse Node := do
  let start ← mark
  let item ← rules .primaryType
  loop item fun item => do
    if (← atKind .bracketL) && !(← mayEndStatement) then
      next
      expect .bracketR
      return .more (← finish start (.arrayType item))
    else return .done item

/-- A type and the marks before it, which add the absent value to it. -/
def prefixType (rules : Rules) : Parse Node := do
  let start ← mark
  if ← eat .question then
    let inner ← rules .prefixType
    finish start (.nullableType inner)
  else arrayType rules

/-- Types with an operator between each two, or one type without it. -/
def joinedTypes (operator : Kind) (join : List Node → Form) (item : Parse Node) :
    Parse Node := do
  let start ← mark
  let first ← item
  if ← atKind operator then
    let types ← loop [first] fun types => do
      if ← eat operator then return .more ((← item) :: types)
      else return .done types.reverse
    finish start (join types)
  else return first

/-- A type; the operator for both binds tighter than the one for either. -/
def typeExpression (rules : Rules) : Parse Node :=
  nested (withinType
    (joinedTypes .bitwiseOr .unionType
      (joinedTypes .bitwiseAnd .intersectionType (rules .prefixType))))

end Grammar

end EcmaSyntax
