import EcmaSyntax.Diagnostic
import EcmaSyntax.Text.Source
import EcmaSyntax.Token.Basic
import EcmaSyntax.Token.Context

namespace EcmaSyntax

namespace Lexer

/-- The setting of a reading stays the same throughout. -/
structure Setting where
  source : Source
  isModule : Bool := false
  flow : Bool := false
  jsx : Bool := false

/-- The state of a reading: the cursor, the current and the previous token, the open
constructs with the innermost first, and the record with the newest entry first. -/
structure State where
  /-- The rules of strict code hold. -/
  strict : Bool := false
  /-- The token belongs to a type. -/
  inType : Bool := false
  /-- The offset after the current token. -/
  pos : Nat := 0
  /-- The offset at which the line of the cursor starts. -/
  lineStart : Nat := 0
  /-- The line of the cursor, counted from one. -/
  line : Nat := 1
  kind : Kind := .eof
  value : Value := .none
  start : Nat := 0
  stop : Nat := 0
  startLoc : Position := .origin
  stopLoc : Position := .origin
  lastStart : Nat := 0
  lastStop : Nat := 0
  lastStartLoc : Position := .origin
  lastStopLoc : Position := .origin
  contexts : List Context := [.braceStatement]
  /-- An expression may start at the cursor. -/
  exprAllowed : Bool := true
  /-- The current word holds an escape. -/
  containsEsc : Bool := false
  /-- The current string holds an octal escape. -/
  containsOctal : Bool := false
  octalPosition : Option Nat := none
  /-- The comments that may still come to stand before a node. -/
  leading : List Comment := []
  /-- The comments that may still come to stand after a node. -/
  trailing : List Comment := []
  entries : List Entry := []
  comments : List Comment := []
  /-- Tokens and comments enter the record. -/
  recording : Bool := true
deriving Inhabited

namespace State

/-- The state before the first token. -/
def initial (strict : Bool) : State := { strict := strict }

/-- The innermost open construct. -/
def context (state : State) : Context := state.contexts.headD .braceStatement

/-- The position of the cursor. -/
def position (state : State) : Position := ⟨state.line, state.pos - state.lineStart⟩

/-- The current token. -/
def token (state : State) : Token :=
  ⟨state.kind, state.value, state.start, state.stop, ⟨state.startLoc, state.stopLoc⟩⟩

/-- The current token becomes the previous one. -/
def passToken (state : State) : State :=
  { state with
    lastStart := state.start
    lastStop := state.stop
    lastStartLoc := state.startLoc
    lastStopLoc := state.stopLoc }

/-- The current token enters the record. -/
def recordToken (state : State) : State :=
  if state.recording then { state with entries := .token state.token :: state.entries }
  else state

/-- A comment enters the record and both buffers. -/
def recordComment (comment : Comment) (state : State) : State :=
  if state.recording then
    { state with
      entries := .comment comment :: state.entries
      comments := comment :: state.comments
      leading := state.leading ++ [comment]
      trailing := state.trailing ++ [comment] }
  else state

end State

/-- A reading of tokens may fail, and keeps its state when it does. -/
abbrev Scan (α : Type) := ReaderT Setting (EStateM Failure State) α

/-- The source of the setting. -/
def source : Scan Source := return (← read).source

/-- A fault ends the reading. -/
def fault {α : Type} (reason : Fault) : Scan α := throw (.fault reason)

/-- A problem at an offset ends the reading. -/
def raise {α : Type} (pos : Nat) (problem : Problem) : Scan α := do
  throw (.syntaxError (.inText (← source).text pos problem))

/-- The token is unexpected, at the given offset or where it starts. -/
def unexpected {α : Type} (pos : Option Nat) : Scan α := do
  raise (pos.getD (← get).start) .unexpectedToken

/-- The characters between two offsets, which are boundaries. -/
def slice (start stop : Nat) : Scan (List Char) := do
  match (← source).slice? start stop with
  | some characters => return characters
  | none => fault (.slice start stop)

/-- The rest of the text can be taken from a boundary on. -/
def checkRest (start : Nat) : Scan Unit := do
  let source ← source
  if !source.isBoundary start then fault (.slice start source.size)

/-- A line terminator stands between two offsets, which are boundaries. -/
def breaksBetween (start stop : Nat) : Scan Bool := do
  let source ← source
  if start ≤ stop && source.isBoundary start && source.isBoundary stop then
    return source.anyBetween Blank.isLineBreak start stop
  else fault (.slice start stop)

/-- The position of the cursor, which is not before its line. -/
def position : Scan Position := do
  let state ← get
  if state.lineStart ≤ state.pos then return state.position
  else fault (.column state.lineStart state.pos)

/-- The offset so many bytes before the cursor, which the text has. -/
def behind (count : Nat) : Scan Nat := do
  let pos := (← get).pos
  if count ≤ pos then return pos - count else fault (.offset pos count)

/-- The text from an offset to the cursor. -/
def sliceFrom (start : Nat) : Scan (List Char) := do slice start (← get).pos

/-- The cursor moves on by a number of bytes. -/
def advance (count : Nat) : Scan Unit :=
  modify fun state => { state with pos := state.pos + count }

/-- The cursor moves to an offset. -/
def moveTo (pos : Nat) : Scan Unit :=
  modify fun state => { state with pos := pos }

/-- The cursor moves to an offset where a line starts. -/
def startLine (pos : Nat) : Scan Unit :=
  modify fun state => { state with pos := pos, line := state.line + 1, lineStart := pos }

/-- The character at so many bytes from the cursor. -/
def peek (ahead : Nat) : Scan (Option Char) := do
  return (← source).charAt? ((← get).pos + ahead)

/-- The character at so many bytes from the cursor is the given one. -/
def peekIs (ahead : Nat) (character : Char) : Scan Bool := do
  return (← peek ahead) == some character

/-- The line terminator at the cursor is passed, a carriage return with its line feed as
one; the result is its text, with one character for two if wanted. -/
def passLineBreak (unified : Bool) : Scan (List Char) := do
  let start := (← get).pos
  let first ← peek 0
  let second ← peek 1
  let length :=
    if first == some '\r' && second == some '\n' then 2
    else if first == some '\r' || first == some '\n' then 1
    else 3
  startLine (start + length)
  if length == 2 && unified then return ['\n']
  else slice start (start + length)

/-- The bytes between the cursor and the end of the text. -/
def remaining : Scan Nat := do
  return (← source).size - (← get).pos

end Lexer

end EcmaSyntax
