import EcmaSyntax.Grammar.State

namespace EcmaSyntax

namespace Grammar

/-- The kind of the current token. -/
def kind : Parse Kind := return (← get).lexer.kind

/-- The current token is of a kind. -/
def atKind (expected : Kind) : Parse Bool := return (← kind) == expected

/-- The text of the current token, or nothing for one that has none. -/
def valueText : Parse String := return ((← get).lexer.value.text?).getD ""

/-- The number that the current token spells. -/
def valueNumber : Parse Float := return ((← get).lexer.value.number?).getD (0.0 / 0.0)

/-- The current token as it is written. -/
def rawText : Parse String := do
  let lexer := (← get).lexer
  return String.ofList (← lex (Lexer.slice lexer.start lexer.stop))

/-- The code is strict. -/
def isStrict : Parse Bool := return (← get).lexer.strict

/-- Types belong to the language. -/
def hasTypes : Parse Bool := return (← read).flow

/-- The current token is passed. -/
def next : Parse Unit := lex Lexer.next

/-- The current token is passed if it is of a kind. -/
def eat (expected : Kind) : Parse Bool := lex (Lexer.eat expected)

/-- The current token has to be of a kind, and is passed. -/
def expect (expected : Kind) : Parse Unit := do
  if !(← eat expected) then unexpected

/-- The current token is the given word, which is no keyword. -/
def atWord (word : String) : Parse Bool := do
  let lexer := (← get).lexer
  return lexer.kind == .name && lexer.value.text? == some word

/-- The current token is passed if it is the given word. -/
def eatWord (word : String) : Parse Bool := do
  if ← atWord word then
    next
    return true
  else return false

/-- The current token has to be the given word, and is passed. -/
def expectWord (word : String) : Parse Unit := do
  if !(← eatWord word) then unexpected

/-- The current token is the given angle bracket. -/
def atAngle (bracket : String) : Parse Bool := do
  let lexer := (← get).lexer
  return lexer.kind == .relational && lexer.value.text? == some bracket

/-- The current token has to be the given angle bracket, and is passed. -/
def expectAngle (bracket : String) : Parse Unit := do
  if ← atAngle bracket then next else unexpected

/-- A line terminator stands between the previous and the current token. -/
def onNewLine : Parse Bool := do
  let lexer := (← get).lexer
  lex (Lexer.breaksBetween lexer.lastStop lexer.start)

/-- A semicolon may be left out before the current token. -/
def mayEndStatement : Parse Bool := do
  let kind ← kind
  if kind == .eof || kind == .braceR then return true else onNewLine

/-- The statement ends here; a semicolon that ends it is passed. -/
def endsStatement : Parse Bool := do
  if ← eat .semi then return true else mayEndStatement

/-- The statement has to end here. -/
def endStatement : Parse Unit := do
  if !(← endsStatement) then unexpected

end Grammar

end EcmaSyntax
