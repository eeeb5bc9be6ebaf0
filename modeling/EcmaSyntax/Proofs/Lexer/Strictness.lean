import EcmaSyntax.Proofs.Lexer.Again
import EcmaSyntax.Proofs.Lexer.Rewind

namespace EcmaSyntax

namespace Lexer

section Lines

variable {source : Source} {offset start : Nat}

/-- Where nothing is counted between two offsets, nothing is there. -/
theorem count_eq_iff {counts : Nat → Prop} [DecidablePred counts] (ordered : start ≤ offset) :
    Nat.count counts offset = Nat.count counts start ↔
      ∀ inner, start ≤ inner → inner < offset → ¬counts inner := by
  obtain ⟨distance, rfl⟩ := Nat.exists_eq_add_of_le ordered
  rw [Nat.count_add, Nat.add_eq_left, Nat.count_iff_forall_not]
  constructor
  · intro none inner low high
    obtain ⟨later, rfl⟩ := Nat.exists_eq_add_of_le low
    exact none later (by omega)
  · intro none inner high
    exact none _ (Nat.le_add_right _ _) (by omega)

/-- The last line feed before an offset is the one after which none comes. -/
theorem lastLineFeed_eq_iff (ordered : start ≤ offset)
    (clear : ∀ inner, start ≤ inner → inner < offset → source.hasAt inner '\n' = false) :
    lastLineFeed source offset = start ↔
      start = 0 ∨ source.hasAt (start - 1) '\n' = true := by
  have le := lastLineFeed_le source offset
  have after := lastLineFeed_clear source offset
  constructor
  · rintro rfl
    rcases Nat.eq_zero_or_pos (lastLineFeed source offset) with none | found
    · exact .inl none
    · exact .inr (hasAt_lastLineFeed found)
  · intro opens
    rcases Nat.lt_trichotomy (lastLineFeed source offset) start with early | same | late
    · rcases opens with none | feed
      · omega
      · rw [after (start - 1) (by omega) (by omega)] at feed
        cases feed
    · exact same
    · have feed := hasAt_lastLineFeed (Nat.lt_of_le_of_lt (Nat.zero_le start) late)
      rw [clear _ (by omega) (by omega)] at feed
      cases feed

/-- The line of the cursor as it is found by looking back for line feeds. -/
def State.lineFound (source : Source) (state : State) : State :=
  if state.pos < state.lineStart then
    { state with
      lineStart := lastLineFeed source state.pos
      line := state.line - (feeds source (state.lineStart - 1) + 1 - feeds source state.pos) }
  else state

/-- One step back leads to the same line. -/
theorem State.lineFound_back {state : State} (late : state.pos < state.lineStart) :
    State.lineFound source { state with
      lineStart := lastLineFeed source (state.lineStart - 1), line := state.line - 1 } =
      state.lineFound source := by
  have le := lastLineFeed_le source (state.lineStart - 1)
  have clear := lastLineFeed_clear source (state.lineStart - 1)
  have before : state.pos ≤ state.lineStart - 1 := by omega
  by_cases later : state.pos < lastLineFeed source (state.lineStart - 1)
  · have feeds := feeds_lastLineFeed (Nat.lt_of_le_of_lt (Nat.zero_le _) later)
    have mono : Lexer.feeds source state.pos ≤ _ :=
      feeds_mono (Nat.le_sub_one_of_lt later)
    rw [lineFound, if_pos later, lineFound, if_pos late]
    simp only [State.mk.injEq, true_and, and_true]
    omega
  · have early : lastLineFeed source (state.lineStart - 1) ≤ state.pos := Nat.le_of_not_lt later
    have same : lastLineFeed source state.pos = lastLineFeed source (state.lineStart - 1) := by
      refine (lastLineFeed_eq_iff early fun inner low high => clear inner low (by omega)).mpr ?_
      exact (lastLineFeed_eq_iff le clear).mp rfl
    have none : Lexer.feeds source (state.lineStart - 1) = Lexer.feeds source state.pos :=
      feeds_eq_of_clear before fun inner low high => clear inner (by omega) high
    rw [lineFound, if_neg later, lineFound, if_pos late, same, none]
    simp only [State.mk.injEq, true_and, and_true]
    omega

/-- Going back finds the line at which the token begins, by its line feed. -/
theorem returnToLine_finds {setting : Setting} {state : State} (count : Nat)
    (enough : state.lineStart ≤ count) :
    Gives (returnToLine count) setting state fun _ after =>
      after = state.lineFound setting.source := by
  induction count generalizing state with
  | zero =>
      refine gives_pure.mpr ?_
      rw [State.lineFound, if_neg (by omega)]
  | succ count inductionHypothesis =>
      rw [returnToLine, Gives.bind_iff, gives_get]
      refine gives_ite (fun late => ?_) fun here => gives_pure.mpr ?_
      · rw [Gives.bind_iff]
        rintro _ _ ⟨⟩
        refine gives_ite (fun _ => fun _ _ absent => by cases absent) fun _ => ?_
        refine gives_ite (fun _ => fun _ _ absent => by cases absent) fun _ => ?_
        rw [Gives.bind_iff, gives_set, ← State.lineFound_back late]
        have le := lastLineFeed_le setting.source (state.lineStart - 1)
        refine inductionHypothesis ?_
        change lastLineFeed setting.source (state.lineStart - 1) ≤ count
        omega
      · rw [State.lineFound, if_neg here]

end Lines

section Twice

/-- What the reading of a number or a string sets. -/
def State.outcome (state : State) : State where
  pos := state.pos
  lineStart := state.lineStart
  line := state.line
  kind := state.kind
  value := state.value
  stop := state.stop
  stopLoc := state.stopLoc
  exprAllowed := state.exprAllowed
  containsOctal := state.containsOctal
  octalPosition := state.octalPosition

/-- What it leaves as it is. -/
def State.remainder (state : State) : State :=
  { state with
    pos := 0, lineStart := 0, line := 0, kind := .eof, value := .none, stop := 0
    stopLoc := .origin, exprAllowed := false, containsOctal := false, octalPosition := none }

/-- Two states are the same if their tokens are, and everything beside them. -/
theorem State.eq_of_outcome {first second : State} (outcome : first.outcome = second.outcome)
    (remainder : first.remainder = second.remainder) : first = second := by
  cases first
  cases second
  simp only [State.outcome, State.remainder, State.mk.injEq, true_and, and_true] at *
  simp [outcome, remainder]

/-- Two states read on from the same cursor, each with what has been left of another one. -/
structure Beside (one other first second : State) : Prop where
  cursor : first.cursor = second.cursor
  notes : first.notes = second.notes
  remainder : first.remainder = one.remainder ∧ second.remainder = other.remainder

/-- Two states have come to the same end, each with what has been left of another one. -/
structure Together (one other first second : State) : Prop where
  outcome : first.outcome = second.outcome
  remainder : first.remainder = one.remainder ∧ second.remainder = other.remainder

variable {setting : Setting} {one other : State}

theorem mirrors_position {before : State → State → Prop}
    (same : ∀ {first second}, before first second → first.cursor = second.cursor) :
    Mirrors setting before before position := by
  unfold position
  refine .get (fun state beside related => ?_) fun state =>
    .ite (fun _ => .pure _) fun _ => mirrors_fault _
  have pos : state.pos = beside.pos := congrArg Cursor.pos (same related)
  have lineStart : state.lineStart = beside.lineStart := congrArg Cursor.lineStart (same related)
  have position : state.position = beside.position := congrArg Cursor.position (same related)
  rw [pos, lineStart, position]

theorem Beside.parallel (start : one.start = other.start)
    (strict : other.strict = true → one.strict = true) : Parallel (Beside one other) where
  pos beside := congrArg Cursor.pos beside.cursor
  start {first second} beside := by
    have here : first.start = one.start := (congrArg State.start beside.remainder.1 :)
    have there : second.start = other.start := (congrArg State.start beside.remainder.2 :)
    rw [here, there, start]
  strict {first second} beside := by
    have here : first.strict = one.strict := (congrArg State.strict beside.remainder.1 :)
    have there : second.strict = other.strict := (congrArg State.strict beside.remainder.2 :)
    rw [here, there]
    exact strict
  moved beside _ _ _ same := ⟨same beside.cursor, beside.notes, beside.remainder⟩
  noted beside _ _ same := ⟨beside.cursor, same beside.notes, beside.remainder⟩

variable (noMarkup : setting.jsx = false)
include noMarkup

/-- A number or a string ends alike in both readings. -/
theorem Beside.mirrors_finishToken {kind : Kind} (usual : kind.isUsual = true) (value : Value) :
    Mirrors setting (Beside one other) (Together one other) (finishToken kind value) := by
  refine .bind (mirrors_position Beside.cursor) fun stopLoc => ?_
  intro first second beside
  refine .succeeds (nest_usual noMarkup first.kind usual { first with
    stop := first.pos, stopLoc := stopLoc, value := value }) (nest_usual noMarkup second.kind usual
    { second with stop := second.pos, stopLoc := stopLoc, value := value })
    ⟨rfl, ?_, beside.remainder⟩
  have pos : first.pos = second.pos := congrArg Cursor.pos beside.cursor
  have lineStart : first.lineStart = second.lineStart := congrArg Cursor.lineStart beside.cursor
  have line : first.line = second.line := congrArg Cursor.line beside.cursor
  have octal : first.containsOctal = second.containsOctal := congrArg Prod.fst beside.notes
  have position : first.octalPosition = second.octalPosition := congrArg Prod.snd beside.notes
  simp only [State.outcome, pos, lineStart, line, octal, position]

/-- A number or a string is read alike if both begin it at one place. -/
theorem Beside.mirrors_readMark {character : Char} {resume : Scan Unit}
    (known : character ∈ literalMarks) (start : one.start = other.start)
    (strict : other.strict = true → one.strict = true) :
    Mirrors setting (Beside one other) (Together one other) (readMark character resume) :=
  (Beside.parallel start strict).readMark
    (fun usual value => Beside.mirrors_finishToken noMarkup usual value) known

/-- Two readings of a number or a string from the same cursor come to the same end, also if only
one of them is strict. -/
theorem readMark_together {character : Char} {resume : Scan Unit} {first last : State}
    (known : character ∈ literalMarks) (begins : Beside one other one other)
    (start : one.start = other.start)
    (ran : readMark character resume setting one = .ok () first)
    (again : readMark character resume setting other = .ok () last) :
    Together one other first last := by
  by_cases stricter : other.strict = true → one.strict = true
  · exact ((Beside.mirrors_readMark noMarkup known start stricter one other begins).both
      ran again).2
  · have loose : one.strict = true → other.strict = true := fun _ =>
      Classical.byContradiction fun loose => stricter fun strict => absurd strict loose
    have met := ((Beside.mirrors_readMark noMarkup known start.symm loose other one
      ⟨begins.cursor.symm, begins.notes.symm, rfl, rfl⟩).both again ran).2
    exact ⟨met.outcome.symm, met.remainder.2, met.remainder.1⟩

/-- A number or a string leaves all that it does not set as it is. -/
theorem readMark_remainder {character : Char} {resume : Scan Unit} {first last : State}
    (known : character ∈ literalMarks)
    (ran : readMark character resume setting first = .ok () last) :
    last.remainder = first.remainder :=
  (readMark_together noMarkup known ⟨rfl, rfl, rfl, rfl⟩ rfl ran ran).remainder.1

end Twice

/-- A number or a string has been read from a state on that stood at its first character. -/
structure Rereads (setting : Setting) (origin last : State) : Prop where
  ready : Ready setting origin
  runs : ∃ character, setting.source.charAt? origin.pos = some character ∧
    readMark character (pure ()) setting origin.begun = .ok () last
  reads : ReadsLiteral setting origin.begun last

/-- If the current token is a number or a string, it has been read from its start on, in a state
that stood on its line. -/
def Recalls (setting : Setting) (state : State) : Prop :=
  state.kind = .num ∨ state.kind = .string → ∃ origin last, Rereads setting origin last ∧
    last.outcome = state.outcome ∧ last.start = state.start ∧ last.startLoc = state.startLoc

section Recalls

variable {setting : Setting} {origin other first state last : State} {strict : Bool}

/-- A token that is read again begins like a number or a string. -/
theorem Rereads.known {character : Char} (rereads : Rereads setting origin last)
    (found : setting.source.charAt? origin.pos = some character) :
    character ∈ literalMarks := by
  obtain ⟨⟨text, hidden, -, fits⟩, literal⟩ := rereads.reads
  exact mem_literalMarks (fits.opens literal).1 found

/-- A number or a string ends on the line on which it begins, unless it is continued. -/
theorem Rereads.returns (noMarkup : setting.jsx = false) (rereads : Rereads setting origin last) :
    Returns setting.source origin.begun last := by
  obtain ⟨⟨text, hidden, -, fits⟩, literal⟩ := rereads.reads
  rcases fits.returns literal with returns | ⟨markup, -⟩
  · exact returns
  · rw [noMarkup] at markup
    cases markup

/-- Only the line of a state is found anew. -/
theorem State.lineFound_eq (source : Source) (state : State) :
    ∃ lineStart line, state.lineFound source =
      { state with lineStart := lineStart, line := line } := by
  unfold State.lineFound
  split
  · exact ⟨_, _, rfl⟩
  · exact ⟨_, _, rfl⟩

/-- The state in which strict code begins or ends, at the start of the token and on its line. -/
def State.reopened (source : Source) (strict : Bool) (state : State) : State :=
  State.lineFound source { state with strict := strict, pos := state.start }

variable (noMarkup : setting.jsx = false)
include noMarkup

/-- Reading a token again changes nothing beside it. -/
theorem Rereads.remainder (rereads : Rereads setting origin last) :
    last.remainder = origin.begun.remainder := by
  obtain ⟨character, found, ran⟩ := rereads.runs
  exact readMark_remainder noMarkup (rereads.known found) ran

/-- Where a number or a string is read twice from the same cursor on, the token is the same. -/
theorem Rereads.together (one : Rereads setting origin first) (two : Rereads setting other last)
    (cursor : origin.cursor = other.cursor) : first.outcome = last.outcome := by
  obtain ⟨character, found, ran⟩ := one.runs
  obtain ⟨_, same, again⟩ := two.runs
  have pos : origin.pos = other.pos := congrArg Cursor.pos cursor
  obtain rfl : character = _ := Option.some.inj (found.symm.trans (pos ▸ same))
  have begins : Beside origin.begun other.begun origin.begun other.begun :=
    ⟨cursor, rfl, rfl, rfl⟩
  exact (readMark_together noMarkup (one.known found) begins pos ran again).outcome

/-- A reading recalls where a number or a string has begun. -/
theorem nextToken_recalls (ready : Ready setting state) :
    Meets nextToken setting state fun _ last => Recalls setting last := by
  refine (nextToken_literal_runs noMarkup ready).mono fun _ last runs literal => ?_
  obtain ⟨origin, character, ready, found, ran, reads⟩ := runs literal
  exact ⟨origin, last, ⟨ready, ⟨character, found, ran⟩, reads⟩, rfl, rfl, rfl⟩

/-- Where strict code begins or ends, the number or the string there is read again. -/
theorem State.Sound.rereads {after : State} (sound : state.Sound setting)
    (literal : state.kind = .num ∨ state.kind = .string)
    (backs : Backs setting { state with strict := strict, pos := state.start } after)
    (read : nextToken setting after = .ok () last) : Rereads setting after last := by
  obtain ⟨lineStart, line, rfl, cursor⟩ := backs
  obtain ⟨opens, outside, -⟩ := sound.opens literal
  have never : ∀ {claim : Prop}, setting.jsx = true → claim :=
    fun markup => absurd (noMarkup.symm.trans markup) (by decide)
  have ready : Ready setting (state.restarted strict lineStart line) :=
    ⟨cursor, sound.previous, sound.ordered⟩
  have runs : Gives nextToken setting (state.restarted strict lineStart line) _ :=
    nextToken_runs noMarkup opens outside
  have reads := nextToken_literal ready ⟨ready.begun, outside, never, opens⟩
  exact ⟨ready, runs () last read, reads.of_ok read⟩

/-- Strict code begins or ends; a number or a string is read again on the line that is found. -/
theorem setStrict_rereads (sound : state.Sound setting) :
    Gives (setStrict strict) setting state fun _ last =>
      ((state.kind = .num ∨ state.kind = .string) ∧
        Rereads setting (state.reopened setting.source strict) last) ∨
      (¬(state.kind = .num ∨ state.kind = .string) ∧ last = { state with strict := strict }) := by
  simp only [setStrict, Gives.bind_iff, gives_modify, gives_get, Bool.or_eq_true, beq_iff_eq]
  refine gives_ite (fun literal => ?_) fun other => gives_pure.mpr (.inr ⟨other, rfl⟩)
  simp only [moveTo, Gives.bind_iff, gives_modify, gives_get]
  have finds : Gives (returnToLine state.lineStart) setting
      { state with strict := strict, pos := state.start }
      fun _ after => after = state.reopened setting.source strict :=
    returnToLine_finds _ (Nat.le_refl _)
  have backs : Gives (returnToLine state.lineStart) setting
      { state with strict := strict, pos := state.start }
      fun _ after => Backs setting { state with strict := strict, pos := state.start } after :=
    returnToLine_gives _ sound.rewindable (Nat.le_refl _)
  intro _ returned returns _ last read
  exact .inl ⟨literal, finds _ _ returns ▸
    sound.rereads noMarkup literal (backs _ _ returns) read⟩

/-- A reading still recalls this where strict code begins or ends. -/
theorem setStrict_recalls (sound : state.Sound setting) (recalls : Recalls setting state) :
    Gives (setStrict strict) setting state fun _ last => Recalls setting last := by
  refine (setStrict_rereads noMarkup sound).mono fun _ last ends => ?_
  rcases ends with ⟨-, rereads⟩ | ⟨-, rfl⟩
  · exact fun _ => ⟨_, last, rereads, rfl, rfl, rfl⟩
  · exact recalls

end Recalls

section Found

variable {source : Source} {origin last state : State}

/-- The line that is found is the one that a reading began on, if that one follows a line feed or
begins the text, and if on the way to the last line no carriage return comes without one. -/
theorem lineFound_iff (sound : origin.cursor.Sound source)
    (returns : Returns source origin.begun last)
    (pos : state.pos = origin.pos) (lineStart : state.lineStart = last.lineStart)
    (line : state.line = last.line) :
    (state.lineFound source).cursor = origin.cursor ↔ (origin.pos < last.lineStart →
      (origin.lineStart = 0 ∨ source.hasAt (origin.lineStart - 1) '\n' = true) ∧
      ∀ inner, origin.pos ≤ inner → inner + 1 < last.lineStart → ¬source.loneAt inner = true) := by
  have ordered : origin.lineStart ≤ origin.pos := sound.ordered
  have counted : last.line + breaks source origin.pos = origin.line + breaks source last.pos :=
    returns.counted
  rcases returns.starts with ⟨same, none⟩ | ⟨ending, starts, late, -, single⟩
  · change last.lineStart = origin.lineStart at same
    change breaks source last.pos = breaks source origin.pos at none
    refine iff_of_true ?_ fun late => by omega
    rw [State.lineFound, if_neg (by omega), State.cursor, State.cursor, Cursor.mk.injEq]
    omega
  · change origin.pos ≤ ending at late
    have opening := lastLineFeed_eq_iff ordered sound.clear
    have alone : _ ↔ ∀ inner, _ → _ → ¬source.loneAt inner = true := count_eq_iff late
    have feeds : feeds source _ ≤ feeds source _ := feeds_mono late
    have lone := Nat.count_monotone (source.loneAt · = true) late
    rw [single, breaks, breaks] at counted
    rw [State.lineFound, if_pos (by omega), starts, ← opening]
    simp only [State.cursor, Cursor.mk.injEq, pos, lineStart, line, starts, Nat.add_sub_cancel,
      Nat.add_lt_add_iff_right, true_and]
    rw [imp_iff_right (Nat.lt_succ_of_le late), ← alone]
    refine and_congr_right fun _ => ?_
    omega

end Found

/-- The steps of a tokenizer that has come to its first token, as long as none of them fails. It
passes tokens and looks ahead, goes back to what it has been through, and begins or ends strict
code. -/
inductive Course.Smooth (setting : Setting) : Course → Prop
  | start {strict : Bool} {state : State}
      (begins : (do skipShebang; nextToken : Scan Unit) setting (.initial strict) = .ok () state) :
      Smooth setting ⟨state, []⟩
  | next {course : Course} {after : State} (smooth : Smooth setting course)
      (step : next setting course.state = .ok () after) :
      Smooth setting { course with state := after }
  | lookahead {course : Course} {ahead : Ahead} {after : State} (smooth : Smooth setting course)
      (step : lookahead setting course.state = .ok ahead after) :
      Smooth setting { course with state := after }
  | restrict {course : Course} {strict : Bool} {after : State} (smooth : Smooth setting course)
      (step : setStrict strict setting course.state = .ok () after) :
      Smooth setting { course with state := after }
  | checkpoint {course : Course} (smooth : Smooth setting course) :
      Smooth setting { course with checkpoints := course.state.checkpoint :: course.checkpoints }
  | rewind {course : Course} {checkpoint : Checkpoint} {after : State}
      (smooth : Smooth setting course) (listed : checkpoint ∈ course.checkpoints)
      (step : rewind checkpoint setting course.state = .ok () after) :
      Smooth setting { course with state := after }

/-- What holds of the states that a tokenizer comes to. -/
structure State.Kept (setting : Setting) (state : State) : Prop where
  sound : state.Sound setting
  recording : state.recording = true
  recalls : Recalls setting state

section Course

variable {setting : Setting} {state last : State} {strict : Bool} {course : Course}

/-- A state is as good as the one it goes back to, whatever else is recorded. -/
theorem State.Kept.rewound {checkpoint : Checkpoint} (kept : checkpoint.state.Kept setting) :
    State.Kept setting (state.rewound checkpoint) where
  sound := ⟨kept.sound.cursor, kept.sound.previous, kept.sound.boundary, kept.sound.ordered,
    kept.sound.within, kept.sound.stops, kept.sound.returns, kept.sound.opens, kept.sound.atEnd,
    kept.sound.filled, kept.sound.cooked⟩
  recording := kept.recording
  recalls := kept.recalls

variable (noMarkup : setting.jsx = false)
include noMarkup

/-- A reading keeps its lines from the first token on. -/
theorem begin_kept (begins : (do skipShebang; nextToken : Scan Unit) setting (.initial strict) =
    .ok () state) : state.Kept setting where
  sound := ((begin_meets setting strict).of_ok begins).2
  recording := begin_recording begins
  recalls := by
    have met : Meets (do skipShebang; nextToken : Scan Unit) setting (.initial strict)
        fun _ state => Recalls setting state :=
      (skipShebang_meets (.initial _)).bind fun _ _ skips =>
        nextToken_recalls noMarkup ((ready_initial strict).skips skips)
    exact met.of_ok begins

/-- A reading keeps its lines when a token is passed. -/
theorem State.Kept.next (kept : state.Kept setting) (step : next setting state = .ok () last) :
    last.Kept setting where
  sound := ((next_meets kept.sound).of_ok step).2
  recording := next_recording kept.recording step
  recalls := by
    have met : Meets Lexer.next setting state fun _ last => Recalls setting last := by
      rw [Lexer.next, Meets.bind_iff, meets_modify]
      exact nextToken_recalls noMarkup kept.sound.ready
    exact met.of_ok step

/-- A reading keeps its lines where strict code begins or ends. -/
theorem State.Kept.restrict (kept : state.Kept setting)
    (step : setStrict strict setting state = .ok () last) : last.Kept setting where
  sound := (setStrict_gives kept.sound _ _ step).2
  recording := setStrict_recording kept.recording step
  recalls := setStrict_recalls noMarkup kept.sound kept.recalls _ _ step

/-- Along a smooth course the lines are kept, also in the checkpoints. -/
theorem Course.Smooth.kept (smooth : course.Smooth setting) :
    course.state.Kept setting ∧
      ∀ checkpoint ∈ course.checkpoints, checkpoint.state.Kept setting := by
  induction smooth with
  | start begins => exact ⟨begin_kept noMarkup begins, by simp⟩
  | next smooth step inductionHypothesis =>
      exact ⟨inductionHypothesis.1.next noMarkup step, inductionHypothesis.2⟩
  | lookahead smooth step inductionHypothesis =>
      obtain ⟨kept, checkpoints⟩ := inductionHypothesis
      rw [lookahead_eq setting kept.recording] at step
      split at step
      · cases step
        exact ⟨kept, checkpoints⟩
      · cases step
  | restrict smooth step inductionHypothesis =>
      exact ⟨inductionHypothesis.1.restrict noMarkup step, inductionHypothesis.2⟩
  | checkpoint smooth inductionHypothesis =>
      exact ⟨inductionHypothesis.1, List.forall_mem_cons.mpr inductionHypothesis⟩
  | rewind smooth listed step inductionHypothesis =>
      obtain ⟨kept, checkpoints⟩ := inductionHypothesis
      cases step
      exact ⟨(checkpoints _ listed).rewound, checkpoints⟩

end Course

/-- The offset at which the line of the current token starts. -/
def State.tokenLine (state : State) : Nat := state.start - state.startLoc.column

/-- The line of the current token begins the text or follows a line feed, and in the token no
carriage return comes without one on the way to its last line. -/
structure State.Fed (source : Source) (state : State) : Prop where
  opens : state.tokenLine = 0 ∨ source.hasAt (state.tokenLine - 1) '\n' = true
  goesOn : ∀ offset, state.start ≤ offset → offset + 1 < state.lineStart →
    source.hasAt offset '\r' = true → source.hasAt (offset + 1) '\n' = true

/-- Where line feeds open the line of a token and all lines within it, this can be read off the
source. -/
theorem State.fed_iff {source : Source} {state : State} : state.Fed source ↔
    (state.tokenLine = 0 ∨ source.hasAt (state.tokenLine - 1) '\n' = true) ∧
      ∀ offset, state.start ≤ offset → offset + 1 < state.lineStart →
        ¬source.loneAt offset = true := by
  have alone (offset : Nat) : ¬source.loneAt offset = true ↔
      (source.hasAt offset '\r' = true → source.hasAt (offset + 1) '\n' = true) := by
    simp [Source.loneAt]
  simp only [alone]
  exact ⟨fun fed => ⟨fed.opens, fed.goesOn⟩, fun parts => ⟨parts.1, parts.2⟩⟩

section Unchanged

variable {setting : Setting} {origin first state last : State} {strict : Bool}
  (noMarkup : setting.jsx = false)
include noMarkup

/-- A token that is read again stays as it is if and only if its line is found. -/
theorem Rereads.eq_iff {lineStart line : Nat} (one : Rereads setting origin first)
    (outcome : first.outcome = state.outcome) (pos : origin.pos = state.start)
    (position : origin.position = state.startLoc)
    (two : Rereads setting (state.restarted strict lineStart line) last) :
    last = { state with strict := strict } ↔
      (state.restarted strict lineStart line).cursor = origin.cursor := by
  have remainder := two.remainder noMarkup
  have here : (state.restarted strict lineStart line).position =
      ⟨line, state.start - lineStart⟩ := rfl
  constructor
  · rintro rfl
    -- The token has kept the position of its start.
    have startLoc : state.startLoc = ⟨line, state.start - lineStart⟩ :=
      (congrArg State.startLoc remainder :)
    have back : lineStart ≤ state.start := two.ready.cursor.ordered
    have ordered : origin.lineStart ≤ origin.pos := one.ready.cursor.ordered
    rw [← position, State.position, Position.mk.injEq] at startLoc
    change Cursor.mk state.start lineStart line = Cursor.mk origin.pos origin.lineStart origin.line
    rw [Cursor.mk.injEq]
    omega
  · intro cursor
    refine State.eq_of_outcome ((two.together noMarkup one cursor).trans outcome) ?_
    have same : (state.restarted strict lineStart line).position = state.startLoc :=
      (congrArg Cursor.position cursor :).trans position
    rw [remainder]
    show { state.remainder with
      strict := strict, startLoc := (state.restarted strict lineStart line).position } =
      { state.remainder with strict := strict }
    rw [same]
    rfl

end Unchanged

/-- If strict code begins or ends and that succeeds, nothing else changes if and only if the
current token is no number and no string, or ends on the line that it starts on, or the lines are
found by looking back for line feeds. -/
theorem setStrict_eq_iff {setting : Setting} (noMarkup : setting.jsx = false) {course : Course}
    (smooth : course.Smooth setting) {strict : Bool} {last : State}
    (ran : setStrict strict setting course.state = .ok () last) :
    last = { course.state with strict := strict } ↔
      (course.state.kind = .num ∨ course.state.kind = .string →
        course.state.start < course.state.lineStart → course.state.Fed setting.source) := by
  obtain ⟨⟨sound, -, recalls⟩, -⟩ := smooth.kept noMarkup
  generalize course.state = state at *
  rcases setStrict_rereads noMarkup sound _ _ ran with ⟨literal, again⟩ | ⟨other, rfl⟩
  · obtain ⟨origin, first, reads, outcome, start, startLoc⟩ := recalls literal
    have remainder := reads.remainder noMarkup
    have pos : origin.pos = state.start := (congrArg State.start remainder :).symm.trans start
    have position : origin.position = state.startLoc :=
      (congrArg State.startLoc remainder :).symm.trans startLoc
    have lineStart : state.lineStart = first.lineStart := (congrArg State.lineStart outcome :).symm
    have line : state.line = first.line := (congrArg State.line outcome :).symm
    have found : (state.reopened setting.source strict).cursor = origin.cursor ↔ _ :=
      lineFound_iff reads.ready.cursor (reads.returns noMarkup) pos.symm lineStart line
    obtain ⟨lineStart', line', same⟩ : ∃ lineStart line,
        state.reopened setting.source strict = state.restarted strict lineStart line :=
      State.lineFound_eq _ _
    rw [same] at again
    rw [reads.eq_iff noMarkup outcome pos position again, ← same, found]
    have tokenLine : state.tokenLine = origin.lineStart := by
      have ordered : origin.lineStart ≤ origin.pos := reads.ready.cursor.ordered
      rw [State.tokenLine, ← position, ← pos]
      exact Nat.sub_sub_self ordered
    rw [forall_prop_of_true literal, State.fed_iff, tokenLine, ← pos, lineStart]
  · exact iff_of_true rfl fun literal => absurd literal other

section Continued

/-- What is seen of the first token of a text before and after strict code begins. -/
def seenAround {α : Type} (setting : Setting) (view : State → State → α) : Option α :=
  (okState? ((do skipShebang; nextToken : Scan Unit) setting (.initial false))).bind fun state =>
    (okState? (setStrict true setting state)).map (view state)

/-- What can be computed of a change to strict code is seen of one. -/
theorem exists_of_seenAround {α : Type} {setting : Setting} {view : State → State → α} {seen : α}
    (known : seenAround setting view = some seen) :
    ∃ state last, Course.Smooth setting ⟨state, []⟩ ∧
      setStrict true setting state = .ok () last ∧ view state last = seen := by
  obtain ⟨state, begins, rest⟩ := Option.bind_eq_some_iff.mp known
  obtain ⟨last, ran, same⟩ := Option.map_eq_some_iff.mp rest
  obtain ⟨⟨⟩, begins⟩ := exists_ok_of_okState? begins
  obtain ⟨⟨⟩, ran⟩ := exists_ok_of_okState? ran
  exact ⟨state, last, .start begins, ran, same⟩

/-- A string that goes on behind a line feed stays as it is. -/
theorem setStrict_eq_iff_continued :
    ∃ state last, Course.Smooth { source := .ofString "'a\\\nb'" } ⟨state, []⟩ ∧
      state.start < state.lineStart ∧
      setStrict true { source := .ofString "'a\\\nb'" } state = .ok () last ∧
      last = { state with strict := true } := by
  have known : seenAround { source := .ofString "'a\\\nb'" } (fun state _ =>
      (state.start, state.startLoc.column, state.lineStart)) = some (0, 0, 4) := by
    decide +kernel
  obtain ⟨state, last, smooth, ran, seen⟩ := exists_of_seenAround known
  simp only [Prod.mk.injEq] at seen
  obtain ⟨start, column, lineStart⟩ := seen
  have none : ∀ offset < 4, (Source.ofString "'a\\\nb'").hasAt offset '\r' = false := by
    decide +kernel
  refine ⟨state, last, smooth, by omega, ran, (setStrict_eq_iff rfl smooth ran).mpr ?_⟩
  refine fun _ _ => ⟨.inl ?_, fun offset _ inside carriage => ?_⟩
  · rw [State.tokenLine, start, column]
  · change offset + 1 < state.lineStart at inside
    rw [none offset (by omega)] at carriage
    cases carriage

/-- Where a carriage return has begun the line of a string that goes on behind a line feed, the
string gets another position. -/
theorem setStrict_misplaces_continued :
    ∃ state last, Course.Smooth { source := .ofString "\r'a\\\nb'" } ⟨state, []⟩ ∧
      setStrict true { source := .ofString "\r'a\\\nb'" } state = .ok () last ∧
      last ≠ { state with strict := true } := by
  have known : seenAround { source := .ofString "\r'a\\\nb'" } (fun state last =>
      (state.startLoc.column, last.startLoc.column)) = some (0, 1) := by
    decide +kernel
  obtain ⟨state, last, smooth, ran, seen⟩ := exists_of_seenAround known
  refine ⟨state, last, smooth, ran, ?_⟩
  rintro rfl
  simp only [Prod.mk.injEq] at seen
  omega

end Continued

end Lexer

end EcmaSyntax
