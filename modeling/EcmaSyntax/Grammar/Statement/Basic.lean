import EcmaSyntax.Grammar.Statement.Control
import EcmaSyntax.Grammar.Statement.Module

namespace EcmaSyntax

namespace Grammar

/-- A statement that one token spells. -/
def tokenStatement (mark : Mark) (form : Form) : Parse Node := do
  next
  finish mark form

/-- A statement that hands over to a debugger. -/
def debuggerStatement (mark : Mark) : Parse Node := do
  next
  endStatement
  finish mark .debuggerStatement

/-- Imports and exports may stand here: at the top level of a module, unless the options
allow them anywhere. -/
def checkModuleItem (mark : Mark) (topLevel : Bool) : Parse Unit := do
  if !(← read).options.allowImportExport then
    if !topLevel then raise mark.pos .moduleItemNotTopLevel
    if !(← read).isModule then raise mark.pos .moduleItemInScript

/-- An asynchronous function that is declared, if the word for one begins it. If not, nothing
is passed. -/
def asyncDeclaration? (rules : Rules) (mark : Mark) : Parse (Option Node) := do
  if ← atWord "async" then
    let before ← get
    next
    if (← atKind .kwFunction) && !(← mayEndStatement) then
      next
      return some (← functionTail rules mark true true false)
    else
      set before
      return none
  else return none

/-- A declaration that begins with a word which is no keyword, after the word. -/
def wordDeclaration? (rules : Rules) (mark : Mark) (word : Node) : Parse (Option Node) := do
  if ← hasTypes then
    let kind ← kind
    match word.name? with
    | some "declare" =>
      if kind == .kwClass || kind == .name || kind == .kwFunction || kind == .kwVar then
        return some (← rules (.declared mark))
      else return none
    | some "interface" =>
      if kind == .name then return some (← interfaceTail rules mark) else return none
    | some "type" =>
      if kind == .name then return some (← typeAliasTail rules mark) else return none
    | _ => return none
  else return none

/-- A statement that is an expression. -/
def expressionStatement (rules : Rules) (mark : Mark) (inner : Node) : Parse Node := do
  match ← wordDeclaration? rules mark inner with
  | some declaration => return declaration
  | none => do
    endStatement
    finish mark (.expressionStatement inner)

/-- A statement that begins with an expression, or with a label. -/
def plainStatement (rules : Rules) (mark : Mark) : Parse Node := do
  let startsWithName ← atKind .name
  let name ← valueText
  let inner ← expression rules false
  let isLabel ← if startsWithName && inner.isIdentifier then eat .colon else pure false
  if isLabel then labeledStatement rules mark name inner
  else expressionStatement rules mark inner

/-- A statement without the decorators before it. Where no declaration may stand, only
variables of the old kind may be declared. -/
def undecoratedStatement (rules : Rules) (declaration topLevel : Bool) : Parse Node := do
  let mark ← mark
  match ← kind with
  | .kwBreak => jumpStatement mark true
  | .kwContinue => jumpStatement mark false
  | .kwDebugger => debuggerStatement mark
  | .kwDo => doWhileStatement rules mark
  | .kwFor => forStatement rules mark
  | .kwFunction =>
    if declaration then
      next
      functionTail rules mark false true false
    else unexpected
  | .kwClass =>
    if declaration then classTail rules mark (← takeDecorators) true false else unexpected
  | .kwIf => ifStatement rules mark
  | .kwReturn => returnStatement rules mark
  | .kwSwitch => switchStatement rules mark
  | .kwThrow => throwStatement rules mark
  | .kwTry => tryStatement rules mark
  | .kwVar => variableStatement rules mark .variable
  | .kwLet => if declaration then variableStatement rules mark .mutable else unexpected
  | .kwConst => if declaration then variableStatement rules mark .constant else unexpected
  | .kwWhile => whileStatement rules mark
  | .kwWith => withStatement rules mark
  | .braceL => block rules false
  | .semi => tokenStatement mark .emptyStatement
  | .kwExport => do
    checkModuleItem mark topLevel
    exportStatement rules mark
  | .kwImport => do
    checkModuleItem mark topLevel
    importStatement mark
  | _ => do
    match ← asyncDeclaration? rules mark with
    | some declaration => return declaration
    | none => plainStatement rules mark

/-- A statement. In strict code an interface is one, though its first word is reserved. -/
def statement (rules : Rules) (declaration topLevel : Bool) : Parse Node :=
  nested do
    if (← hasTypes) && (← isStrict) && (← atWord "interface") then
      let mark ← mark
      next
      interfaceTail rules mark
    else
      if ← atKind .at then leadingDecorators rules true
      undecoratedStatement rules declaration topLevel

end Grammar

end EcmaSyntax
