import EcmaSyntax.Lexer.Next
import EcmaSyntax.Options
import EcmaSyntax.Tree.File

namespace EcmaSyntax

namespace Grammar

/-- What a label stands before, which tells the jumps that may leave it. -/
inductive LabelTarget where
  | loop
  | switch
deriving DecidableEq, Inhabited, Repr

/-- A label of a statement; a loop or switch has one without a name. -/
structure Label where
  name : Option String
  target : Option LabelTarget
  start : Option Nat
deriving DecidableEq, Inhabited, Repr

/-- A mark is where a node starts. -/
structure Mark where
  pos : Nat
  loc : Position
deriving DecidableEq, Inhabited, Repr

/-- The mark of the start of a node. -/
def Mark.ofNode (node : Node) : Mark := ⟨node.start, node.loc.start⟩

/-- A node that comments may still be taken from. -/
structure Finished where
  id : NodeId
  start : Nat
  stop : Nat
deriving DecidableEq, Inhabited, Repr

/-- The identities that nodes are given, one after another. They are numbers of 32 bits, so that the
counter runs over after the last one and goes on from zero. -/
structure Identities where
  next : NodeId := 1
  /-- The counter has run over. -/
  spent : Bool := false
deriving DecidableEq, Inhabited, Repr

/-- The next identity has been given. -/
def Identities.advance (identities : Identities) : Identities :=
  { next := identities.next + 1, spent := identities.spent || identities.next + 1 == 0 }

/-- What becomes of a counter that runs over: it goes on from zero, or this is a fault. -/
inductive Overflow where
  | wraps
  | faults
deriving DecidableEq, Inhabited, Repr

/-- The setting of a parse stays the same throughout. -/
structure Setting extends Lexer.Setting where
  options : Options

/-- The setting for a text and options. -/
def Setting.ofText (text : List Char) (options : Options) : Setting :=
  { source := { text := text }
    isModule := options.sourceType == .module
    flow := options.hasDialect .flow
    jsx := options.hasDialect .jsx
    options := options }

/-- The state of a parse: the reading of tokens, what the rules know of the constructs
around them, and the comments that belong to the nodes built so far. -/
structure State where
  lexer : Lexer.State
  /-- An arrow function may start at this offset. -/
  arrowAt : Option Nat := none
  inMethod : Option MethodKind := none
  inFunction : Bool := false
  inGenerator : Bool := false
  inAsync : Bool := false
  /-- The labels around the current statement, the innermost first. -/
  labels : List Label := []
  /-- The decorators that wait for their class, in source order. -/
  decorators : List Node := []
  /-- The finished nodes that comments may still be taken from, the newest first. -/
  finished : List Finished := []
  attachments : Attachments := {}
  identities : Identities := {}
  /-- The number of nested constructs around the current token. -/
  depth : Nat := 0

namespace State

/-- The state before the first token. -/
def initial (strict : Bool) : State := { lexer := .initial strict }

/-- The comments that belong to a node. -/
def attached? (state : State) (id : NodeId) : Option Attached := state.attachments[id]?

/-- The comments that belong to a node are set. -/
def setAttached (state : State) (id : NodeId) (attached : Attached) : State :=
  { state with attachments := state.attachments.insert id attached }

end State

/-- A parse may fail, and keeps its state when it does. -/
abbrev Parse (α : Type) := ReaderT Setting (EStateM Failure State) α

/-- A reading of tokens is a step of a parse. -/
def lex {α : Type} (action : Lexer.Scan α) : Parse α := fun setting state =>
  match action setting.toSetting state.lexer with
  | .ok value lexer => .ok value { state with lexer := lexer }
  | .error failure lexer => .error failure { state with lexer := lexer }

/-- A problem at an offset ends the parse. -/
def raise {α : Type} (pos : Nat) (problem : Problem) : Parse α := lex (Lexer.raise pos problem)

/-- The current token is unexpected. -/
def unexpected {α : Type} : Parse α := lex (Lexer.unexpected none)

/-- The token at an offset is unexpected. -/
def unexpectedAt {α : Type} (pos : Nat) : Parse α := lex (Lexer.unexpected (some pos))

/-- The nesting is too deep to follow from the current token on. -/
def tooDeep {α : Type} : Parse α := do
  let lexer := (← get).lexer
  throw (.nestingTooDeep lexer.start lexer.startLoc)

/-- So many constructs may be nested. -/
def depthLimit : Nat := 200

/-- A construct is parsed one level deeper. -/
def nested {α : Type} (action : Parse α) : Parse α := do
  modify fun state => { state with depth := state.depth + 1 }
  if (← get).depth > depthLimit then tooDeep
  let value ← action
  modify fun state => { state with depth := state.depth - 1 }
  return value

/-- A state goes back to an earlier one: the reading rewinds, which drops what was recorded
since, and everything else is as it was but for the identities that are used up. -/
def State.rolledBack (state earlier : State) : State :=
  { earlier with
    lexer := state.lexer.rewound earlier.lexer.checkpoint
    identities := state.identities }

/-- A trial that ends in a syntax error has no result, and its state goes back to where it
began. -/
def attempt {α : Type} (action : Parse α) : Parse (Option α) := fun setting state =>
  match action setting state with
  | .ok value after => .ok (some value) after
  | .error (.syntaxError _) after => .ok none (after.rolledBack state)
  | .error failure after => .error failure after

/-- A turn of a loop goes on with what it has gathered, or is the last one. -/
inductive Turn (α β : Type) where
  | more (gathered : α)
  | done (result : β)

/-- A loop takes at most so many turns. -/
def loopWithin {α β : Type} (turn : α → Parse (Turn α β)) : Nat → α → Parse β
  | 0, _ => tooDeep
  | count + 1, gathered => do
    match ← turn gathered with
    | .more next => loopWithin turn count next
    | .done result => return result

/-- A loop takes turns until one is the last; no text has tokens for more than this bound. -/
def loop {α β : Type} (start : α) (turn : α → Parse (Turn α β)) : Parse β := do
  loopWithin turn (2 * (← read).source.size + 4) start

end Grammar

end EcmaSyntax
