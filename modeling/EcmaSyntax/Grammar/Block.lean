import EcmaSyntax.Grammar.Rules

namespace EcmaSyntax

namespace Grammar

/-- A statement that is nothing but a string, not in parentheses. -/
def stringStatement? (statement : Node) : Option Node :=
  match statement.form with
  | .expressionStatement expression =>
    match expression.form with
    | .stringLiteral _ => if expression.isParenthesized then none else some expression
    | _ => none
  | _ => none

/-- A statement that is a string becomes a directive, whose value is the text between the
quotes as it is written. -/
def toDirective (statement literal : Node) : Parse Node := do
  let raw ← lex (Lexer.slice literal.start literal.stop)
  let value := String.ofList (raw.drop 1).dropLast
  let content ← finishAt (Mark.ofNode literal) (.directiveLiteral value) literal.stop
    literal.loc.stop
  let kept := content.mapExtra fun extra =>
    { extra with raw := some (String.ofList raw), rawValue := some (.text value) }
  finishAt (Mark.ofNode statement) (.directive kept) statement.stop statement.loc.stop

/-- A directive makes the code strict. -/
def isUseStrict (directive : Node) : Bool :=
  match directive.form with
  | .directive value =>
    match value.form with
    | .directiveLiteral text => text == "use strict"
    | _ => false
  | _ => false

/-- What has been read of a block, backwards. -/
structure BlockParts where
  directives : List Node := []
  statements : List Node := []
  /-- A statement that is no directive has been read. -/
  past : Bool := false
  /-- The code around was strict or not when a directive made this block strict. -/
  before : Option Bool := none
  /-- The offset of an octal escape among the directives. -/
  octal : Option Nat := none

/-- A directive is read; the one that makes the code strict does so from the current token
on, and allows no octal escape before it. -/
def takeDirective (parts : BlockParts) (statement literal : Node) : Parse BlockParts := do
  let directive ← toDirective statement literal
  let parts := { parts with directives := directive :: parts.directives }
  if isUseStrict directive && parts.before.isNone then
    let parts := { parts with before := some (← isStrict) }
    lex (Lexer.setStrict true)
    match parts.octal with
    | some pos => raise pos .octalInStrict
    | none => return parts
  else return parts

/-- One more statement of a block is read. -/
def takeStatement (rules : Rules) (allowDirectives topLevel : Bool) (parts : BlockParts) :
    Parse BlockParts := do
  let lexer := (← get).lexer
  let octal :=
    if !parts.past && lexer.containsOctal && parts.octal.isNone then lexer.octalPosition
    else parts.octal
  let parts := { parts with octal := octal }
  let statement ← rules.statement true topLevel
  match (if allowDirectives && !parts.past then stringStatement? statement else none) with
  | some literal => takeDirective parts statement literal
  | none => return { parts with past := true, statements := statement :: parts.statements }

/-- Directives and statements up to a closing token, which is passed. -/
def blockParts (rules : Rules) (allowDirectives topLevel : Bool) (close : Kind) :
    Parse (List Node × List Node) := do
  let parts ← loop ({} : BlockParts) fun parts => do
    if ← eat close then return .done parts
    else return .more (← takeStatement rules allowDirectives topLevel parts)
  if parts.before == some false then lex (Lexer.setStrict false)
  return (parts.directives.reverse, parts.statements.reverse)

/-- A block in braces. -/
def block (rules : Rules) (allowDirectives : Bool) : Parse Node := do
  let mark ← mark
  expect .braceL
  let (directives, body) ← blockParts rules allowDirectives false .braceR
  finish mark (.blockStatement directives body)

end Grammar

end EcmaSyntax
