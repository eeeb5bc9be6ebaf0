import EcmaSyntax.Grammar.Type.Object

namespace EcmaSyntax

namespace Grammar

/-- A name with the types that its parameters stand for. -/
def typeReference (rules : Rules) (form : Node → Option Node → Form) : Parse Node := do
  let mark ← mark
  let id ← identifier false
  let typeParameters ← typeArguments? rules
  finish mark (form id typeParameters)

/-- The name, parameters, parents and members of an interface or a declared class. -/
def interfaceParts (rules : Rules) (allowStatic : Bool)
    (form : Node → Option Node → List Node → Node → Form) : Parse Form := do
  let id ← identifier false
  let typeParameters ← typeParameters? rules
  let supers ←
    if ← eat .kwExtends then commaSeparated (typeReference rules .interfaceExtends)
    else pure []
  let body ← objectType rules allowStatic
  return form id typeParameters supers body

/-- An interface after its first word. -/
def interfaceTail (rules : Rules) (mark : Mark) : Parse Node := do
  let form ← interfaceParts rules false .interfaceDeclaration
  finish mark form

/-- The name of a type and what it stands for, after the first word. -/
def typeAliasTail (rules : Rules) (mark : Mark) : Parse Node := do
  let id ← identifier false
  let typeParameters ← typeParameters? rules
  let right ← typeAfter rules .eq
  endStatement
  finish mark (.typeAlias id typeParameters right)

/-- A function that is defined elsewhere; its name carries its type. -/
def declaredFunction (rules : Rules) (mark : Mark) : Parse Node := do
  next
  let id ← identifier false
  let typeMark ← Grammar.mark
  let functionType ← signature rules typeMark
  let annot ← finish typeMark (.typeAnnot functionType)
  let id ← annotate id annot
  endStatement
  finish mark (.declareFunction id)

/-- A module that is defined elsewhere, and the declarations in it. -/
def declaredModule (rules : Rules) (mark : Mark) : Parse Node := do
  next
  let id ← if ← atKind .string then stringLiteral else identifier false
  let bodyMark ← Grammar.mark
  expect .braceL
  let body ← loop [] fun body => do
    if ← eat .braceR then return .done body.reverse
    let declareMark ← Grammar.mark
    expectWord "declare"
    return .more ((← rules (.declared declareMark)) :: body)
  let body ← finish bodyMark (.blockStatement [] body)
  finish mark (.declareModule id body)

/-- A declaration of what is defined elsewhere, after the word that says so. -/
def declared (rules : Rules) (mark : Mark) : Parse Node := do
  match ← kind with
  | .kwClass => do
    next
    let form ← interfaceParts rules true .declareClass
    finish mark form
  | .kwFunction => declaredFunction rules mark
  | .kwVar => do
    next
    let id ← annotatedIdentifier rules
    endStatement
    finish mark (.declareVariable id)
  | _ => if ← atWord "module" then declaredModule rules mark else unexpected

end Grammar

end EcmaSyntax
