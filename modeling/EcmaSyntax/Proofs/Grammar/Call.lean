/-
This file names what the rules of the grammar know of the code around the current token, and lists
the nodes that a parse gives comments to, also in the trials that it turns back from.
-/

import EcmaSyntax.Grammar.Build
import EcmaSyntax.Proofs.Lexer.Rewind
import EcmaSyntax.Proofs.Outcome

namespace EcmaSyntax

namespace Lexer

/-- How tokens are read: by the rules of strict code or not, and as parts of a type or not. -/
structure Manner where
  strict : Bool
  inType : Bool

/-- How the tokens after a state are read. -/
def State.manner (state : State) : Manner := ⟨state.strict, state.inType⟩

variable {setting : Setting} {first last : State}

/-- The code is read in the same manner when something is recorded. -/
theorem State.Grows.manner (grows : State.Grows first last) : last.manner = first.manner := by
  rw [State.manner, grows.strict, grows.inType]
  rfl

theorem State.passed_manner (state : State) : state.passed.manner = state.manner := by
  rw [State.manner, State.passed_strict, State.passed_inType]
  rfl

/-- The code after a token is read in the same manner. -/
theorem next_manner (setting : Setting) (state : State) :
    (lastState (next setting state)).manner = state.manner := by
  have maintains : Maintains (fun last => last.manner = state.manner) next :=
    next_maintains (fun _ _ grows same => grows.manner.trans same) fun middle same =>
      middle.passed_manner.trans same
  exact maintains setting state rfl

/-- The code is read in the same manner whether a token is eaten or not. -/
theorem eat_manner (kind : Kind) (setting : Setting) (state : State) :
    (lastState (eat kind setting state)).manner = state.manner := by
  have maintains : Maintains (fun last => last.manner = state.manner) (eat kind) :=
    eat_maintains kind (fun _ _ grows same => grows.manner.trans same) fun middle same =>
      middle.passed_manner.trans same
  exact maintains setting state rfl

/-- Looking ahead does not change how the code is read. -/
theorem lookahead_manner (setting : Setting) (state : State) :
    (lastState (lookahead setting state)).manner = state.manner := by
  have ahead := next_manner setting { state with recording := false }
  unfold lookahead
  cases ends : next setting { state with recording := false } <;> rwa [ends] at ahead

/-- The first token of a text is read as the text begins. -/
theorem begin_manner {strict : Bool}
    (ends : (do skipShebang; nextToken : Scan Unit) setting (.initial strict) = .ok () first) :
    first.manner = ⟨strict, false⟩ := by
  have grows := (skipShebang_heedless.bind fun _ => nextToken_heedless).grows setting
    (.initial strict)
  rw [ends] at grows
  exact grows.manner

/-- The code from here on is strict or not, as the step says. -/
theorem setStrict_manner (strict : Bool) (setting : Setting) (state : State) :
    (lastState (setStrict strict setting state)).manner = ⟨strict, state.inType⟩ := by
  have maintains : Maintains (fun last => last.manner = ⟨strict, state.inType⟩)
      (setStrict strict) :=
    setStrict_maintains strict (fun _ _ grows same => grows.manner.trans same) fun last same =>
      congrArg (Manner.mk strict) (congrArg Manner.inType same)
  -- What the code was before does not matter, since the step begins by forgetting it.
  exact maintains setting { state with strict := strict } rfl

end Lexer

namespace Grammar

/-- What the rules of the grammar know of the code around the current token. -/
structure Flags extends Lexer.Manner where
  inMethod : Option MethodKind
  inFunction : Bool
  inGenerator : Bool
  inAsync : Bool
  depth : Nat
  /-- The names of the labels, the innermost first; a loop or switch has one without a name. -/
  labelNames : List (Option String)

/-- What is known in a state of the code around. -/
def State.flags (state : State) : Flags where
  toManner := state.lexer.manner
  inMethod := state.inMethod
  inFunction := state.inFunction
  inGenerator := state.inGenerator
  inAsync := state.inAsync
  depth := state.depth
  labelNames := state.labels.map Label.name

/-- The flags of two states are the same if each of them is. -/
theorem State.flags_eq_iff {first last : State} : first.flags = last.flags ↔
    first.lexer.strict = last.lexer.strict ∧ first.lexer.inType = last.lexer.inType ∧
      first.inMethod = last.inMethod ∧ first.inFunction = last.inFunction ∧
      first.inGenerator = last.inGenerator ∧ first.inAsync = last.inAsync ∧
      first.depth = last.depth ∧ first.labels.map Label.name = last.labels.map Label.name := by
  simp [flags, Lexer.State.manner, and_assoc]

end Grammar

/-- A parse goes on reading: it passes a token, looks at the one after it, or reads a token once
more because the code has become strict or is no longer so. -/
inductive Lexer.State.ReadsOn (setting : Lexer.Setting) (state : Lexer.State) : Lexer.State → Prop
  | stay : state.ReadsOn setting state
  | next {last : Lexer.State} (read : Lexer.next setting state = .ok () last) :
      state.ReadsOn setting last
  | lookahead {ahead : Lexer.Ahead} {last : Lexer.State}
      (read : Lexer.lookahead setting state = .ok ahead last) : state.ReadsOn setting last
  | setStrict {strict : Bool} {last : Lexer.State}
      (read : Lexer.setStrict strict setting state = .ok () last) : state.ReadsOn setting last

/-- A token that is eaten is read on. -/
theorem Lexer.eat_readsOn (kind : Kind) {setting : Lexer.Setting} {state : Lexer.State} :
    Gives (Lexer.eat kind) setting state fun _ after => state.ReadsOn setting after := by
  simp only [Lexer.eat, Lexer.atKind, Gives.bind_iff, gives_get, gives_pure]
  refine gives_ite (fun _ => ?_) fun _ => gives_pure.mpr .stay
  rw [Gives.bind_iff]
  exact fun _ _ read => gives_pure.mpr (.next read)

namespace Grammar

variable {α β : Type} {setting : Setting} {state : State}

/-- What is known of the code around has changed and identities have been used up, but nothing has
been read and no comment has moved. -/
structure State.Notes (first last : State) : Prop where
  lexer : ∃ strict inType, last.lexer = { first.lexer with strict := strict, inType := inType }
  finished : last.finished = first.finished
  attachments : last.attachments = first.attachments

theorem State.Notes.refl (state : State) : state.Notes state := ⟨⟨_, _, rfl⟩, rfl, rfl⟩

/-- A node is given the comments around it, in some state of a parse. -/
structure Call where
  before : State
  id : NodeId
  start : Nat
  stop : Nat

/-- A declaration is read if a look ahead finds one; if not, the parse turns back. -/
def orTurnBack (look : Parse Bool) (action : Parse (Option Node)) : Parse (Option Node) := do
  let before ← get
  if ← look then action
  else
    set before
    return none

/-- The nodes that a step gives comments to from a state on, the first of them first, where the
reading of tokens goes on as it may. The rules follow how the step is written. A trial and a look
ahead have the nodes that are finished in them, also if the parse turns back to where they began. -/
inductive Calls (setting : Setting) (reads : Lexer.State → Lexer.State → Prop) :
    {α : Type} → Parse α → State → List Call → Prop
  | get {state : State} : Calls setting reads get state []
  | read {state : State} : Calls setting reads read state []
  | pure {α : Type} {value : α} {state : State} : Calls setting reads (pure value) state []
  | throw {α : Type} {failure : Failure} {state : State} :
      Calls setting reads (throw failure : Parse α) state []
  | note {change : State → State} {state : State} (notes : state.Notes (change state)) :
      Calls setting reads (modify change : Parse PUnit) state []
  | copy {change : State → State} {state : State} {id other : NodeId} {attached : Attached}
      (found : state.attached? id = some attached)
      (same : change state = state.setAttached other attached) :
      Calls setting reads (modify change : Parse PUnit) state []
  | lex {α : Type} {action : Lexer.Scan α} {state : State}
      (goesOn : Gives action setting.toSetting state.lexer fun _ lexer => reads state.lexer lexer) :
      Calls setting reads (lex action) state []
  | attach {id : NodeId} {start stop : Nat} {state : State} :
      Calls setting reads (attach id start stop) state [⟨state, id, start, stop⟩]
  | bind {α β : Type} {action : Parse α} {next : α → Parse β} {value : α} {state middle : State}
      {calls more : List Call} (begins : Calls setting reads action state calls)
      (ends : action setting state = .ok value middle)
      (goesOn : Calls setting reads (next value) middle more) :
      Calls setting reads (action >>= next) state (calls ++ more)
  | fail {α β : Type} {action : Parse α} {next : α → Parse β} {failure : Failure}
      {state last : State} {calls : List Call} (begins : Calls setting reads action state calls)
      (ends : action setting state = .error failure last) :
      Calls setting reads (action >>= next) state calls
  | attempt {α : Type} {action : Parse α} {state : State} {calls : List Call}
      (trial : Calls setting reads action state calls)
      (grown : state.lexer.Extends (lastState (action setting state)).lexer) :
      Calls setting reads (attempt action) state calls
  | turnBack {look : Parse Bool} {action : Parse (Option Node)} {state middle : State}
      {calls : List Call} (looks : Calls setting reads look state calls)
      (ends : look setting state = .ok false middle) :
      Calls setting reads (orTurnBack look action) state calls

/-- It is known which nodes a step gives comments to. -/
def Called (setting : Setting) (reads : Lexer.State → Lexer.State → Prop) (action : Parse α)
    (state : State) : Prop :=
  ∃ calls, Calls setting reads action state calls

section Called

variable {reads : Lexer.State → Lexer.State → Prop} {action : Parse α} {next : α → Parse β}

theorem Called.bind (begins : Called setting reads action state)
    (goesOn : ∀ value middle, Called setting reads (next value) middle) :
    Called setting reads (action >>= next) state := by
  obtain ⟨calls, begun⟩ := begins
  cases ends : action setting state with
  | ok value middle =>
      obtain ⟨more, further⟩ := goesOn value middle
      exact ⟨calls ++ more, .bind begun ends further⟩
  | error failure last => exact ⟨calls, .fail begun ends⟩

theorem gives_lex {action : Lexer.Scan α} {post : α → State → Prop} :
    Gives (lex action) setting state post ↔
      Gives action setting.toSetting state.lexer fun value lexer =>
        post value { state with lexer := lexer } := by
  unfold Gives lex
  cases action setting.toSetting state.lexer <;> simp

theorem succeeds_lex {action : Lexer.Scan α} {post : α → State → Prop} :
    Succeeds (lex action) setting state post ↔
      Succeeds action setting.toSetting state.lexer fun value lexer =>
        post value { state with lexer := lexer } := by
  unfold Succeeds lex
  cases action setting.toSetting state.lexer <;> rfl

/-- What has only read on leaves nothing behind when it is taken back, but the identities that are
used up. -/
theorem State.rolledBack_eq {last : State} (grown : state.lexer.Extends last.lexer) :
    last.rolledBack state = { state with identities := last.identities } := by
  rw [State.rolledBack, grown.rewound_checkpoint]

/-- Turning back leaves a state as if nothing had been looked at. -/
theorem orTurnBack_eq (look : Parse Bool) (action : Parse (Option Node)) (setting : Setting)
    (state : State) : orTurnBack look action setting state =
      match look setting state with
      | .ok true middle => action setting middle
      | .ok false _ => .ok none state
      | .error failure middle => .error failure middle := by
  change EStateM.bind (look setting) _ state = _
  unfold EStateM.bind
  cases look setting state with
  | ok found middle => cases found <;> rfl
  | error failure middle => rfl

/-- The calls of a step that may turn back are those of what it looks at and of what it does
then. -/
theorem Called.orTurnBack {look : Parse Bool} {action : Parse (Option Node)}
    (looks : Called setting reads look state)
    (goesOn : ∀ middle, Called setting reads action middle) :
    Called setting reads (Grammar.orTurnBack look action) state := by
  obtain ⟨calls, looked⟩ := looks
  cases ends : look setting state with
  | ok found middle =>
      cases found with
      | false => exact ⟨calls, .turnBack looked ends⟩
      | true =>
          obtain ⟨more, further⟩ := goesOn middle
          exact ⟨[] ++ (calls ++ more), .bind .get rfl (.bind looked ends further)⟩
  | error failure middle => exact ⟨[] ++ calls, .bind .get rfl (.fail looked ends)⟩

/-- What every step of a parse keeps. -/
structure State.Kept (reads : Lexer.State → Lexer.State → Prop) (keeps : State → Prop) :
    Prop where
  read {state : State} {lexer : Lexer.State} : keeps state → reads state.lexer lexer →
    keeps { state with lexer := lexer }
  note {state after : State} : keeps state → state.Notes after → keeps after
  attach {state after : State} {id : NodeId} {start stop : Nat} : keeps state →
    state.attach id start stop = .ok after → keeps after
  copy {state : State} {id other : NodeId} {attached : Attached} : keeps state →
    state.attached? id = some attached → keeps (state.setAttached other attached)

/-- What every step keeps holds before each node that is given comments, and where the parse
ends. -/
theorem Calls.keeps {keeps : State → Prop} (kept : State.Kept reads keeps)
    {calls : List Call} (called : Calls setting reads action state calls) (begins : keeps state) :
    (Gives action setting state fun _ last => keeps last) ∧ ∀ call ∈ calls, keeps call.before := by
  induction called with
  | get => exact ⟨gives_get.mpr begins, List.forall_mem_nil _⟩
  | read => exact ⟨gives_read.mpr begins, List.forall_mem_nil _⟩
  | pure => exact ⟨gives_pure.mpr begins, List.forall_mem_nil _⟩
  | throw => exact ⟨gives_throw.mpr trivial, List.forall_mem_nil _⟩
  | note notes => exact ⟨gives_modify.mpr (kept.note begins notes), List.forall_mem_nil _⟩
  | copy found same =>
      exact ⟨gives_modify.mpr (same ▸ kept.copy begins found), List.forall_mem_nil _⟩
  | lex goesOn =>
      exact ⟨gives_lex.mpr (goesOn.mono fun _ _ reads => kept.read begins reads),
        List.forall_mem_nil _⟩
  | attach =>
      refine ⟨fun _ last ends => ?_, List.forall_mem_singleton.mpr begins⟩
      unfold Grammar.attach at ends
      split at ends <;> cases ends
      next attached => exact kept.attach begins attached
  | bind _ ends _ first second =>
      have ⟨given, before⟩ := first begins
      have ⟨last, after⟩ := second (given _ _ ends)
      refine ⟨Gives.bind_iff.mpr fun value middle same => ?_, List.forall_mem_append.mpr ⟨before, after⟩⟩
      cases ends.symm.trans same
      exact last
  | fail _ ends first =>
      refine ⟨Gives.bind_iff.mpr fun value middle same => ?_, (first begins).2⟩
      cases ends.symm.trans same
  | attempt _ grown trial =>
      have ⟨given, before⟩ := trial begins
      refine ⟨fun result last ends => ?_, before⟩
      unfold Grammar.attempt at ends
      split at ends
      · next value after same =>
          cases ends
          exact given value last same
      · next error after same =>
          cases ends
          rw [same, lastState] at grown
          rw [State.rolledBack_eq grown]
          exact kept.note begins ⟨⟨_, _, rfl⟩, rfl, rfl⟩
      · cases ends
  | turnBack _ found looked =>
      refine ⟨fun result last ends => ?_, (looked begins).2⟩
      rw [orTurnBack_eq, found] at ends
      cases ends
      exact begins

end Called

end Grammar

end EcmaSyntax
