import EcmaSyntax.Lexer.Markup

namespace EcmaSyntax

namespace Lexer

/-- A token starts at the cursor. -/
def beginToken : Scan Unit := do
  let startLoc ← position
  modify fun state =>
    { state with
      containsOctal := false
      octalPosition := none
      start := state.pos
      startLoc := startLoc }

/-- The token at the cursor is read where a construct is open, or the end of the text; after a
comment of markup the reading goes on. -/
def fetchToken (context : Context) (resume : Scan Unit) : Scan Unit := do
  beginToken
  match ← peek 0 with
  | none => finishToken .eof .none
  | some character =>
    if context == .quoteTemplate then readTemplate
    else readToken character resume

/-- The token after the cursor becomes the current one, with at most so many comments of
markup before it. -/
def nextTokenWithin : Nat → Scan Unit
  | 0 => finishToken .eof .none
  | count + 1 => do
    let context := (← get).context
    if !context.keepsBlanks then skipSpace
    fetchToken context (nextTokenWithin count)

/-- The token after the cursor becomes the current one. -/
def nextToken : Scan Unit := do
  nextTokenWithin ((← remaining) + 1)

/-- The current token enters the record and the one after it becomes the current one. -/
def next : Scan Unit := do
  modify fun state => state.recordToken.passToken
  nextToken

/-- The current token is of a kind. -/
def atKind (kind : Kind) : Scan Bool := return (← get).kind == kind

/-- The current token is passed if it is of a kind. -/
def eat (kind : Kind) : Scan Bool := do
  if ← atKind kind then
    next
    return true
  else return false

/-- What is known of the token after the current one. -/
structure Ahead where
  kind : Kind
  value : Value
  start : Nat
  stop : Nat

/-- The part of a state that the reading of one token changes: the cursor, the current and the
previous token, the open constructs and what is known of the token. -/
structure Snapshot where
  pos : Nat
  lineStart : Nat
  line : Nat
  kind : Kind
  value : Value
  start : Nat
  stop : Nat
  startLoc : Position
  stopLoc : Position
  lastStart : Nat
  lastStop : Nat
  lastStartLoc : Position
  lastStopLoc : Position
  contexts : List Context
  exprAllowed : Bool
  containsEsc : Bool
  containsOctal : Bool
  octalPosition : Option Nat

/-- A snapshot of a state. -/
def State.snapshot (state : State) : Snapshot where
  pos := state.pos
  lineStart := state.lineStart
  line := state.line
  kind := state.kind
  value := state.value
  start := state.start
  stop := state.stop
  startLoc := state.startLoc
  stopLoc := state.stopLoc
  lastStart := state.lastStart
  lastStop := state.lastStop
  lastStartLoc := state.lastStartLoc
  lastStopLoc := state.lastStopLoc
  contexts := state.contexts
  exprAllowed := state.exprAllowed
  containsEsc := state.containsEsc
  containsOctal := state.containsOctal
  octalPosition := state.octalPosition

/-- A state takes over what a snapshot holds, and keeps the rest. -/
def State.restored (state : State) (snapshot : Snapshot) : State :=
  { state with
    pos := snapshot.pos
    lineStart := snapshot.lineStart
    line := snapshot.line
    kind := snapshot.kind
    value := snapshot.value
    start := snapshot.start
    stop := snapshot.stop
    startLoc := snapshot.startLoc
    stopLoc := snapshot.stopLoc
    lastStart := snapshot.lastStart
    lastStop := snapshot.lastStop
    lastStartLoc := snapshot.lastStartLoc
    lastStopLoc := snapshot.lastStopLoc
    contexts := snapshot.contexts
    exprAllowed := snapshot.exprAllowed
    containsEsc := snapshot.containsEsc
    containsOctal := snapshot.containsOctal
    octalPosition := snapshot.octalPosition }

/-- The token after the current one is read while nothing is recorded. Then the state takes
over its earlier snapshot, also if that fails, and recording goes on. -/
def lookahead : Scan Ahead := fun setting state =>
  let back (ahead : State) : State :=
    { ahead with recording := true }.restored state.snapshot
  match next setting { state with recording := false } with
  | .ok _ ahead => .ok ⟨ahead.kind, ahead.value, ahead.start, ahead.stop⟩ (back ahead)
  | .error failure ahead => .error failure (back ahead)

/-- A checkpoint holds a state and how much was recorded in it. -/
structure Checkpoint where
  state : State
  entryCount : Nat
  commentCount : Nat

/-- The checkpoint of a state. -/
def State.checkpoint (state : State) : Checkpoint :=
  ⟨state, state.entries.length, state.comments.length⟩

/-- A checkpoint of the present state. -/
def checkpoint : Scan Checkpoint := return (← get).checkpoint

/-- The oldest items of a list that has the newest first. -/
def keepOldest {α : Type} (count : Nat) (items : List α) : List α :=
  items.drop (items.length - count)

/-- A state returns to a checkpoint, and what was recorded since is dropped. -/
def State.rewound (state : State) (checkpoint : Checkpoint) : State :=
  { checkpoint.state with
    entries := keepOldest checkpoint.entryCount state.entries
    comments := keepOldest checkpoint.commentCount state.comments }

/-- The reading goes back to a checkpoint. -/
def rewind (checkpoint : Checkpoint) : Scan Unit :=
  modify fun state => state.rewound checkpoint

/-- The number of characters up to and with the last line feed among the first ones. -/
def lastLineFeed (source : Source) : Nat → Nat
  | 0 => 0
  | offset + 1 => if source.hasAt offset '\n' then offset + 1 else lastLineFeed source offset

/-- The line of the cursor is found again after the cursor has moved back. -/
def returnToLine : Nat → Scan Unit
  | 0 => return
  | count + 1 => do
    let state ← get
    if state.pos < state.lineStart then
      let stop := state.lineStart - 1
      let source ← source
      if !source.isBoundary stop then fault (.slice 0 stop)
      if state.line == 0 then fault .line
      set { state with lineStart := lastLineFeed source stop, line := state.line - 1 }
      returnToLine count

/-- Strict code begins or ends; a number or string that is the current token is read again,
since its octal forms depend on it. -/
def setStrict (strict : Bool) : Scan Unit := do
  modify fun state => { state with strict := strict }
  let kind := (← get).kind
  if kind == .num || kind == .string then
    moveTo (← get).start
    returnToLine (← get).lineStart
    nextToken

/-- The entries and comments recorded so far, the oldest first; the record is then empty. -/
def takeRecord : Scan (List Entry × List Comment) := do
  let state ← get
  set { state with entries := [], comments := [] }
  return (state.entries.reverse, state.comments.reverse)

/-- A reading of a whole text: the states after each of its tokens, the state in which it
ended, and the failure that ended it. -/
structure Reading where
  states : List State := []
  last : State
  failure : Option Failure := none

namespace Reading

/-- The tokens that were read. -/
def tokens (reading : Reading) : List Token := reading.states.map State.token

/-- The comments that were passed. -/
def comments (reading : Reading) : List Comment := reading.last.comments.reverse

/-- The tokens and comments in one list; the last token has not been recorded before. -/
def entries (reading : Reading) : List Entry := reading.last.recordToken.entries.reverse

end Reading

/-- A text is read from a state on, by at most so many tokens. -/
def scanFrom (setting : Setting) : Nat → State → Reading
  | 0, state => { states := [state], last := state }
  | count + 1, state =>
    if state.kind == .eof then { states := [state], last := state }
    else
      match next setting state with
      | .ok _ after =>
        let rest := scanFrom setting count after
        { rest with states := state :: rest.states }
      | .error failure after => { states := [state], last := after, failure := some failure }

/-- A text is read token by token up to its end; the code of a module is strict if wanted. -/
def scan (setting : Setting) (strictMode : Bool) : Reading :=
  match (do skipShebang; nextToken : Scan Unit) setting
      (.initial (strictMode && setting.isModule)) with
  | .ok _ state => scanFrom setting (2 * setting.source.size + 2) state
  | .error failure state => { last := state, failure := some failure }

end Lexer

end EcmaSyntax
