import EcmaSyntax.Proofs.Lexer.Record

namespace EcmaSyntax

namespace Lexer

/-- A state whose record was set aside takes back its earlier snapshot. -/
theorem State.restored_snapshot {state after : State} {record : Record}
    (recording : state.recording = true) (grows : State.Grows state.passed after)
    (aside : record = { state.record with recording := false }) :
    { after.withRecord record with recording := true }.restored state.snapshot = state := by
  have strict := grows.strict.trans state.passed_strict
  have inType := grows.inType.trans state.passed_inType
  clear grows
  cases state
  cases after
  subst aside
  simp only at recording strict inType
  subst recording strict inType
  rfl

/-- Outside of a lookahead, looking ahead is passing the token and forgetting that. -/
theorem lookahead_eq {state : State} (setting : Setting) (recording : state.recording = true) :
    lookahead setting state = match next setting state with
      | .ok _ after => .ok ⟨after.kind, after.value, after.start, after.stop⟩ state
      | .error failure _ => .error failure state := by
  have quiet := next_silent setting state
    (show Record.recording { state.record with recording := false } = false from rfl)
  have grows := nextToken_heedless.grows setting state.passed
  rw [← next_eq] at grows
  change next setting { state with recording := false } = _ at quiet
  unfold lookahead
  simp only [quiet]
  cases ends : next setting state with
  | ok value after =>
      rw [ends] at grows
      exact congrArg (EStateM.Result.ok _) (State.restored_snapshot recording grows rfl)
  | error failure after =>
      rw [ends] at grows
      exact congrArg (EStateM.Result.error _) (State.restored_snapshot recording grows rfl)

/-- Looking ahead leaves the state as it was, fails just as passing the token fails, and
otherwise tells the token that would become the current one. -/
theorem lookahead_agrees_next (setting : Setting) (state : State)
    (recording : state.recording = true) :
    lastState (lookahead setting state) = state ∧
      (∀ failure, (∃ last, lookahead setting state = .error failure last) ↔
        ∃ last, next setting state = .error failure last) ∧
      ∀ after, next setting state = .ok () after →
        lookahead setting state =
          .ok ⟨after.kind, after.value, after.start, after.stop⟩ state := by
  rw [lookahead_eq setting recording]
  cases ends : next setting state with
  | ok value after =>
      refine ⟨rfl, fun failure => ?_, ?_⟩
      · constructor <;> rintro ⟨last, absent⟩ <;> cases absent
      · rintro other same
        cases same
        rfl
  | error failure after =>
      refine ⟨rfl, fun other => ?_, ?_⟩
      · constructor
        · rintro ⟨last, same⟩
          cases same
          exact ⟨after, rfl⟩
        · rintro ⟨last, same⟩
          cases same
          exact ⟨state, rfl⟩
      · rintro other absent
        cases absent

/-- A comment and a string lie ahead of the start of a text. -/
theorem lookahead_agrees_next_string :
    let setting : Setting := { source := .ofString "/* a */ 'b'" }
    let state : State := .initial true
    state.recording = true ∧ lastState (lookahead setting state) = state ∧
      ∃ ahead, lookahead setting state = .ok ahead state ∧ ahead.start = 8 ∧ ahead.stop = 11 := by
  intro setting state
  have agrees := lookahead_agrees_next setting state rfl
  have spans : (match next setting state with
      | .ok _ after => some (after.start, after.stop)
      | .error _ _ => none) = some (8, 11) := by decide +kernel
  refine ⟨rfl, agrees.1, ?_⟩
  cases ends : next setting state with
  | error failure after => simp [ends] at spans
  | ok value after =>
      simp only [ends, Option.some.injEq, Prod.mk.injEq] at spans
      exact ⟨_, agrees.2.2 after ends, spans.1, spans.2⟩

section Oldest

variable {α : Type} {early late : List α}

/-- What was recorded early is the oldest part of what has been recorded later. -/
theorem keepOldest_of_suffix (suffix : early <:+ late) : keepOldest early.length late = early :=
  (List.suffix_iff_eq_drop.mp suffix).symm

/-- Keeping at least so many items keeps the oldest ones. -/
theorem suffix_keepOldest {count : Nat} (suffix : early <:+ late)
    (enough : early.length ≤ count) : early <:+ keepOldest count late := by
  obtain ⟨fresh, rfl⟩ := suffix
  refine ⟨fresh.drop ((fresh ++ early).length - count), ?_⟩
  rw [keepOldest, List.drop_append_of_le_length]
  rw [List.length_append]
  omega

end Oldest

/-- A checkpoint was made when at least as much was recorded as a state holds. -/
structure Checkpoint.After (checkpoint : Checkpoint) (base : State) : Prop where
  entries : base.entries.length ≤ checkpoint.entryCount
  comments : base.comments.length ≤ checkpoint.commentCount

variable {base first last : State} {setting : Setting}

/-- A checkpoint that is made later comes after what has been recorded before. -/
theorem State.Extends.checkpoint (grown : State.Extends base last) :
    last.checkpoint.After base :=
  ⟨grown.entries.length_le, grown.comments.length_le⟩

/-- Going back to a later checkpoint keeps what a state has recorded. -/
theorem State.Extends.rewound {checkpoint : Checkpoint} (grown : State.Extends base last)
    (after : checkpoint.After base) : State.Extends base (last.rewound checkpoint) :=
  ⟨suffix_keepOldest grown.entries after.entries, suffix_keepOldest grown.comments after.comments⟩

/-- A state that has grown goes back to where it was. -/
theorem State.Extends.rewound_checkpoint (grown : State.Extends base last) :
    last.rewound base.checkpoint = base := by
  have entries := keepOldest_of_suffix grown.entries
  have comments := keepOldest_of_suffix grown.comments
  simp only [State.rewound, State.checkpoint, entries, comments]

/-- A lookahead records nothing. -/
theorem lookahead_extends (setting : Setting) (state : State) :
    State.Extends state (lastState (lookahead setting state)) := by
  have quiet := next_silent setting state
    (show Record.recording { state.record with recording := false } = false from rfl)
  change next setting { state with recording := false } = _ at quiet
  unfold lookahead
  rw [quiet]
  cases next setting state <;> exact ⟨List.suffix_refl _, List.suffix_refl _⟩

section Extends

variable {base : State}

/-- What a state has recorded is still recorded after steps of a reading. -/
theorem State.Extends.closed :
    ∀ first last, State.Grows first last → State.Extends base first → State.Extends base last :=
  fun _ _ grows grown => grown.trans grows.toExtends

/-- What has been recorded before is still there once a token has been passed. -/
theorem State.Extends.pass (state : State) (grown : State.Extends base state) :
    State.Extends base state.passed :=
  grown.trans state.passed_extends

end Extends

/-- Strict code begins and ends without a trace in the record. -/
theorem setStrict_extends (strict : Bool) (setting : Setting) (state : State) :
    State.Extends state (lastState (setStrict strict setting state)) :=
  setStrict_maintains strict State.Extends.closed
    (fun _ grown => ⟨grown.entries, grown.comments⟩) setting state (.refl _)

/-- What may be done between a checkpoint and the return to it; checkpoints are told apart by
how many were made since. -/
inductive Operation where
  | next
  | nextToken
  | eat (kind : Kind)
  | skipSpace
  | lookahead
  | setStrict (strict : Bool)
  | checkpoint
  | rewind (index : Nat)

/-- A reading under way, with the checkpoints made so far, the newest first. -/
structure Course where
  state : State
  checkpoints : List Checkpoint

/-- An operation goes on from where it ends, whether it succeeds or fails. -/
def Course.perform (setting : Setting) (course : Course) : Operation → Course
  | .next => { course with state := lastState (Lexer.next setting course.state) }
  | .nextToken => { course with state := lastState (Lexer.nextToken setting course.state) }
  | .eat kind => { course with state := lastState (Lexer.eat kind setting course.state) }
  | .skipSpace => { course with state := lastState (Lexer.skipSpace setting course.state) }
  | .lookahead => { course with state := lastState (Lexer.lookahead setting course.state) }
  | .setStrict strict =>
    { course with state := lastState (Lexer.setStrict strict setting course.state) }
  | .checkpoint => { course with checkpoints := course.state.checkpoint :: course.checkpoints }
  | .rewind index =>
    match course.checkpoints[index]? with
    | some checkpoint =>
      { course with state := lastState (Lexer.rewind checkpoint setting course.state) }
    | none => course

/-- A course that has recorded at least what a state holds, and was no less far at each of its
checkpoints. -/
structure Course.From (base : State) (course : Course) : Prop where
  state : State.Extends base course.state
  checkpoints : ∀ checkpoint ∈ course.checkpoints, checkpoint.After base

namespace Course

variable {course : Course}

/-- Where a step only adds to the record, the course stays on from its base. -/
theorem From.step (far : course.From base) {state : State}
    (grown : State.Extends course.state state) : From base { course with state := state } :=
  ⟨far.state.trans grown, far.checkpoints⟩

/-- Every operation stays behind the state from which a course goes on. -/
theorem From.perform (far : course.From base) (setting : Setting) (operation : Operation) :
    From base (course.perform setting operation) := by
  cases operation with
  | next =>
      exact far.step (next_maintains State.Extends.closed State.Extends.pass setting _ (.refl _))
  | nextToken => exact far.step (nextToken_heedless.grows setting course.state).toExtends
  | eat kind =>
      exact far.step
        (eat_maintains kind State.Extends.closed State.Extends.pass setting _ (.refl _))
  | skipSpace => exact far.step (skipSpace_heedless.grows setting course.state).toExtends
  | lookahead => exact far.step (lookahead_extends setting course.state)
  | setStrict strict => exact far.step (setStrict_extends strict setting course.state)
  | checkpoint =>
      refine ⟨far.state, fun checkpoint member => ?_⟩
      rcases List.mem_cons.mp member with rfl | member
      · exact far.state.checkpoint
      · exact far.checkpoints checkpoint member
  | rewind index =>
      change From base (match course.checkpoints[index]? with
        | some checkpoint =>
          { course with state := lastState (rewind checkpoint setting course.state) }
        | none => course)
      split
      next checkpoint found =>
        have after := far.checkpoints checkpoint (List.mem_of_getElem? found)
        exact ⟨far.state.rewound after, far.checkpoints⟩
      next => exact far

/-- Every row of operations stays behind the state from which a course goes on. -/
theorem From.run (far : course.From base) (setting : Setting) (operations : List Operation) :
    From base (operations.foldl (Course.perform setting) course) := by
  induction operations generalizing course with
  | nil => exact far
  | cons operation rest inductionHypothesis =>
      exact inductionHypothesis (far.perform setting operation)

end Course

/-- Whatever is done after a checkpoint, going back to it gives the state of the checkpoint. -/
theorem rewind_restores (setting : Setting) (state : State) (operations : List Operation) :
    let course := operations.foldl (Course.perform setting) ⟨state, [state.checkpoint]⟩
    rewind state.checkpoint setting course.state = .ok () state := by
  intro course
  have starts : Course.From state ⟨state, [state.checkpoint]⟩ := by
    refine ⟨.refl _, fun checkpoint member => ?_⟩
    rw [List.mem_singleton.mp member]
    exact (State.Extends.refl state).checkpoint
  have grown := (starts.run setting operations).state
  exact congrArg (EStateM.Result.ok ()) grown.rewound_checkpoint

end Lexer

end EcmaSyntax
