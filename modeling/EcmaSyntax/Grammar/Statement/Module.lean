import EcmaSyntax.Grammar.Class

namespace EcmaSyntax

namespace Grammar

/-- Items in braces with commas between them. -/
def bracedItems {α : Type} (item : Parse α) : Parse (List α) := do
  expect .braceL
  loop (true, []) fun (first, items) => do
    if ← eat .braceR then return .done items.reverse
    if !first then
      expect .comma
      if ← eat .braceR then return .done items.reverse
    return .more (false, (← item) :: items)

/-- Decorators before an export belong to the class that it exports. -/
def giveDecorators (pos : Nat) (declaration : Option Node) : Parse (Option Node) := do
  if (← get).decorators.isEmpty then return declaration
  match declaration with
  | none => raise pos .exportDecorators
  | some node =>
    match node.form with
    | .classDeclaration heading => do
      let decorators ← takeDecorators
      return some { node with form := .classDeclaration { heading with decorators } }
    | .classExpression heading => do
      let decorators ← takeDecorators
      return some { node with form := .classExpression { heading with decorators } }
    | _ => raise pos .exportDecorators

/-- The module that is named here, a string. -/
def moduleName : Parse Node := do
  if ← atKind .string then stringLiteral else unexpected

/-- The module that an export is taken from, which may be left out if it is not needed. -/
def exportSource (pos : Nat) (needed : Bool) : Parse (Option Node) := do
  let source ←
    if ← eatWord "from" then
      let source ← moduleName
      let _ ← giveDecorators pos none
      pure (some source)
    else if needed then unexpected
    else pure none
  endStatement
  return source

/-- A name under which something is exported. The second result tells that the name is the
word for what a module exports without one. -/
def exportSpecifier : Parse (Node × Bool) := do
  let mark ← mark
  let isDefault ← atKind .kwDefault
  let localName ← identifier isDefault
  let exported ← if ← eatWord "as" then identifier true else duplicate localName
  return (← finish mark (.exportSpecifier localName exported), isDefault)

/-- The names in braces that are exported. What a module exports without a name can only be
taken from a module. -/
def exportSpecifiers : Parse (List Node) := do
  let specifiers ← bracedItems exportSpecifier
  if specifiers.any Prod.snd && !(← atWord "from") then unexpected
  return specifiers.map Prod.fst

/-- More names in braces after a comma. -/
def moreSpecifiers : Parse (List Node) := do
  if ← eat .comma then exportSpecifiers else return []

/-- All that a module exports is exported under one name, which follows. -/
def namespaceSpecifier (mark : Mark) : Parse Node := do
  let exported ← identifier false
  finish mark (.exportNamespaceSpecifier exported)

/-- What an export consists of. -/
structure ExportParts where
  declaration : Option Node := none
  specifiers : List Node := []
  source : Option Node := none
  exportKind : Option BindingKind := none

/-- An export with a name for what a module exports without one. -/
def takesExportDefault : Parse Bool := do
  match ← kind with
  | .name => return !(← atWord "type") && !(← atWord "async")
  | .kwDefault => do
    let ahead ← lex Lexer.lookahead
    return ahead.kind == .comma ||
      (ahead.kind == .name && ahead.value.text? == some "from")
  | _ => return false

/-- All names of a module may follow after a comma. -/
def allFollow : Parse Bool := do
  if ← atKind .comma then return (← lex Lexer.lookahead).kind == .star else return false

/-- What a module exports without a name is exported under a name. -/
def exportDefaultFrom (mark : Mark) : Parse ExportParts := do
  let specifierMark ← Grammar.mark
  let exported ← identifier true
  let first ← finish specifierMark (.exportDefaultSpecifier exported)
  let others ←
    if ← allFollow then
      next
      let specifierMark ← Grammar.mark
      expect .star
      expectWord "as"
      pure [← namespaceSpecifier specifierMark]
    else moreSpecifiers
  return { specifiers := first :: others, source := ← exportSource mark.pos true }

/-- The declaration of a type is exported, or names of types. -/
def exportType (rules : Rules) (mark : Mark) : Parse ExportParts := do
  let declarationMark ← Grammar.mark
  next
  if ← atKind .braceL then
    let specifiers ← exportSpecifiers
    return { specifiers, source := ← exportSource mark.pos false, exportKind := some .type }
  else
    let declaration ← typeAliasTail rules declarationMark
    return { declaration := some declaration, exportKind := some .type }

/-- A declaration is exported. -/
def exportDeclared (rules : Rules) (mark : Mark) : Parse ExportParts := do
  if (← hasTypes) && (← atWord "type") then exportType rules mark
  else return { declaration := some (← rules.statement true false) }

/-- A declaration follows an export. -/
def declarationFollows : Parse Bool := do
  return (← kind).isKeyword || ((← hasTypes) && (← atWord "type")) || (← atWord "async")

/-- What is exported without a name. -/
def exportedDefault (rules : Rules) : Parse Node := do
  let mark ← mark
  if ← eat .kwFunction then functionTail rules mark false true true
  else if ← atKind .kwClass then classTail rules mark [] true true
  else
    let value ← rules.assignment false
    endStatement
    return value

/-- The export of something without a name. -/
def exportDefault (rules : Rules) (mark : Mark) : Parse Node := do
  let declaration ← exportedDefault rules
  let given ← giveDecorators mark.pos (some declaration)
  finish mark (.exportDefaultDeclaration (given.getD declaration))

/-- The export of declarations or names. -/
def exportNamed (mark : Mark) (parts : ExportParts) : Parse Node := do
  let declaration ← giveDecorators mark.pos parts.declaration
  let kind := if ← hasTypes then some (parts.exportKind.getD .value) else none
  finish mark (.exportNamedDeclaration declaration parts.specifiers parts.source kind)

/-- The export of all that a module exports. -/
def exportAll (mark : Mark) : Parse Node := do
  let specifierMark ← Grammar.mark
  next
  if ← eatWord "as" then
    let specifier ← namespaceSpecifier specifierMark
    let others ← moreSpecifiers
    let source ← exportSource mark.pos true
    exportNamed mark { specifiers := specifier :: others, source }
  else
    match ← exportSource mark.pos true with
    | some source => finish mark (.exportAllDeclaration source)
    | none => unexpected

/-- An export. -/
def exportStatement (rules : Rules) (mark : Mark) : Parse Node := do
  next
  if ← atKind .star then exportAll mark
  else if ← takesExportDefault then exportNamed mark (← exportDefaultFrom mark)
  else if ← eat .kwDefault then exportDefault rules mark
  else if ← declarationFollows then exportNamed mark (← exportDeclared rules mark)
  else
    let specifiers ← exportSpecifiers
    exportNamed mark { specifiers, source := ← exportSource mark.pos false }

/-- A name that an import binds. -/
def importedName : Parse Node := do
  let localName ← identifier false
  checkBound localName
  return localName

/-- A name that a module exports, and the name that it is bound to. -/
def importSpecifier : Parse Node := do
  let mark ← mark
  let imported ← identifier true
  let localName ← if ← eatWord "as" then identifier false else duplicate imported
  checkBound localName
  finish mark (.importSpecifier imported localName)

/-- All names of a module, or some of them in braces. -/
def importGroup : Parse (List Node) := do
  if ← atKind .star then
    let mark ← mark
    next
    expectWord "as"
    let localName ← importedName
    return [← finish mark (.importNamespaceSpecifier localName)]
  else bracedItems importSpecifier

/-- The names that an import binds. -/
def importSpecifiers : Parse (List Node) := do
  if ← atKind .name then
    let mark ← mark
    let localName ← importedName
    let first ← finish mark (.importDefaultSpecifier localName)
    if ← eat .comma then return first :: (← importGroup) else return [first]
  else importGroup

/-- The word for an import of types, unless it is bound as a name. -/
def importWord? : Parse (Option BindingKind) := do
  if ← atKind .kwTypeof then return some .typeof
  else if ← atWord "type" then return some .type
  else return none

/-- What an import speaks of; a word that says so is passed. -/
def importKind : Parse BindingKind := do
  match ← importWord? with
  | none => return .value
  | some word => do
    let ahead ← lex Lexer.lookahead
    let speaks :=
      match ahead.kind with
      | .name => ahead.value.text? != some "from"
      | .braceL => true
      | .star => true
      | _ => false
    if speaks then
      next
      return word
    else return .value

/-- An import. -/
def importStatement (mark : Mark) : Parse Node := do
  next
  let (specifiers, kind) ←
    if ← atKind .string then pure ([], none)
    else
      let kind ← if ← hasTypes then some <$> importKind else pure none
      let specifiers ← importSpecifiers
      expectWord "from"
      pure (specifiers, kind)
  let source ← moduleName
  endStatement
  finish mark (.importDeclaration specifiers source kind)

end Grammar

end EcmaSyntax
