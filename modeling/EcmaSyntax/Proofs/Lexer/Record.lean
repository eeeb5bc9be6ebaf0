import EcmaSyntax.Lexer.Next
import EcmaSyntax.Proofs.Outcome

namespace EcmaSyntax

namespace Lexer

/-- What a reading records, and whether it does. -/
structure Record where
  leading : List Comment
  trailing : List Comment
  entries : List Entry
  comments : List Comment
  recording : Bool

/-- The record of a state. -/
def State.record (state : State) : Record :=
  ⟨state.leading, state.trailing, state.entries, state.comments, state.recording⟩

/-- A state with another record. -/
def State.withRecord (state : State) (record : Record) : State :=
  { state with
    leading := record.leading
    trailing := record.trailing
    entries := record.entries
    comments := record.comments
    recording := record.recording }

/-- What a state has recorded is still recorded in a later one. -/
structure State.Extends (first last : State) : Prop where
  entries : first.entries <:+ last.entries
  comments : first.comments <:+ last.comments

/-- Besides, no token has been recorded since, and the rules that hold are the same. -/
structure State.Grows (first last : State) : Prop extends State.Extends first last where
  tokens : last.entries.filterMap Entry.token? = first.entries.filterMap Entry.token?
  recording : last.recording = first.recording
  strict : last.strict = first.strict
  inType : last.inType = first.inType

/-- A step does not look at the record. While nothing is recorded, it leaves any record as it
is; otherwise it only adds comments to it. -/
structure Heedless {α : Type} (action : Scan α) : Prop where
  silent : ∀ setting (state : State) (record : Record), record.recording = false →
    action setting (state.withRecord record) =
      overState (·.withRecord record) (action setting state)
  grows : ∀ setting state, State.Grows state (lastState (action setting state))

variable {first middle last : State} {α β : Type}

theorem State.Extends.refl (state : State) : State.Extends state state :=
  ⟨List.suffix_refl _, List.suffix_refl _⟩

theorem State.Extends.trans (begins : State.Extends first middle)
    (ends : State.Extends middle last) : State.Extends first last :=
  ⟨begins.entries.trans ends.entries, begins.comments.trans ends.comments⟩

theorem State.Grows.refl (state : State) : State.Grows state state :=
  ⟨.refl _, rfl, rfl, rfl, rfl⟩

theorem State.Grows.trans (begins : State.Grows first middle) (ends : State.Grows middle last) :
    State.Grows first last :=
  ⟨begins.toExtends.trans ends.toExtends, ends.tokens.trans begins.tokens,
    ends.recording.trans begins.recording, ends.strict.trans begins.strict,
    ends.inType.trans begins.inType⟩

/-- A state with the same record and rules has grown by nothing. -/
theorem State.Grows.ofSame (record : last.record = first.record)
    (strict : last.strict = first.strict) (inType : last.inType = first.inType) :
    State.Grows first last := by
  have entries : last.entries = first.entries := congrArg Record.entries record
  have comments : last.comments = first.comments := congrArg Record.comments record
  refine ⟨⟨?_, ?_⟩, congrArg _ entries, congrArg Record.recording record, strict, inType⟩
  · exact entries ▸ List.suffix_refl _
  · exact comments ▸ List.suffix_refl _

/-- A record grows by a comment. -/
theorem State.recordComment_grows (state : State) (comment : Comment) :
    State.Grows state (state.recordComment comment) := by
  unfold State.recordComment
  split
  · exact ⟨⟨List.suffix_cons _ _, List.suffix_cons _ _⟩, rfl, rfl, rfl, rfl⟩
  · exact .refl _

namespace Heedless

variable {action : Scan α} {next : α → Scan β}

theorem bind (begins : Heedless action) (goesOn : ∀ value, Heedless (next value)) :
    Heedless (action >>= next) := by
  have run : ∀ setting state, (action >>= next) setting state =
      EStateM.bind (action setting) (fun value => next value setting) state := fun _ _ => rfl
  constructor
  · intro setting state record quiet
    rw [run, run, EStateM.bind, EStateM.bind, begins.silent setting state record quiet]
    cases action setting state with
    | ok value middle => exact (goesOn value).silent setting middle record quiet
    | error failure middle => rfl
  · intro setting state
    have first := begins.grows setting state
    rw [run, EStateM.bind]
    cases same : action setting state with
    | ok value middle =>
        rw [same] at first
        exact first.trans ((goesOn value).grows setting middle)
    | error failure middle =>
        rw [same] at first
        exact first

theorem pure (value : α) : Heedless (Pure.pure value) where
  silent _ _ _ _ := rfl
  grows _ state := .refl state

theorem throw (failure : Failure) : Heedless (throw failure : Scan α) where
  silent _ _ _ _ := rfl
  grows _ state := .refl state

theorem ite {condition : Prop} [Decidable condition] {other : Scan α}
    (holds : Heedless action) (fails : Heedless other) :
    Heedless (if condition then action else other) := by
  split
  · exact holds
  · exact fails

theorem read {next : Setting → Scan β} (goesOn : ∀ setting, Heedless (next setting)) :
    Heedless (MonadReader.read >>= next) where
  silent setting := (goesOn setting).silent setting
  grows setting := (goesOn setting).grows setting

/-- What is taken from the state is no part of the record. -/
theorem get {next : State → Scan β}
    (same : ∀ (state : State) record, next (state.withRecord record) = next state)
    (goesOn : ∀ state, Heedless (next state)) : Heedless (MonadState.get >>= next) := by
  constructor
  · intro setting state record quiet
    change next (state.withRecord record) setting (state.withRecord record) = _
    rw [same]
    exact (goesOn state).silent setting state record quiet
  · exact fun setting state => (goesOn state).grows setting state

/-- A change of the state that leaves its record and the rules as they are. -/
theorem modify {change : State → State}
    (same : ∀ (state : State) record,
      change (state.withRecord record) = (change state).withRecord record)
    (keeps : ∀ state : State, (change state).record = state.record ∧
      (change state).strict = state.strict ∧ (change state).inType = state.inType) :
    Heedless (modify change : Scan PUnit) where
  silent _ state record _ := by
    change EStateM.Result.ok _ (change (state.withRecord record)) = _
    rw [same]
    rfl
  grows _ state := .ofSame (keeps state).1 (keeps state).2.1 (keeps state).2.2

end Heedless

section Steps

theorem source_heedless : Heedless source := .read fun _ => .pure _

theorem fault_heedless (reason : Fault) : Heedless (fault reason : Scan α) := .throw _

theorem raise_heedless (pos : Nat) (problem : Problem) : Heedless (raise pos problem : Scan α) :=
  .bind source_heedless fun _ => .throw _

theorem unexpected_heedless (pos : Option Nat) : Heedless (unexpected pos : Scan α) :=
  .get (fun _ _ => rfl) fun _ => raise_heedless _ _

theorem slice_heedless (start stop : Nat) : Heedless (slice start stop) := by
  refine .bind source_heedless fun source => ?_
  split
  · exact .pure _
  · exact fault_heedless _

theorem checkRest_heedless (start : Nat) : Heedless (checkRest start) :=
  .bind source_heedless fun _ => .ite (fault_heedless _) (.pure _)

theorem breaksBetween_heedless (start stop : Nat) : Heedless (breaksBetween start stop) :=
  .bind source_heedless fun _ => .ite (.pure _) (fault_heedless _)

theorem position_heedless : Heedless position :=
  .get (fun _ _ => rfl) fun _ => .ite (.pure _) (fault_heedless _)

theorem behind_heedless (count : Nat) : Heedless (behind count) :=
  .get (fun _ _ => rfl) fun _ => .ite (.pure _) (fault_heedless _)

theorem sliceFrom_heedless (start : Nat) : Heedless (sliceFrom start) :=
  .get (fun _ _ => rfl) fun _ => slice_heedless _ _

theorem advance_heedless (count : Nat) : Heedless (advance count) :=
  .modify (fun _ _ => rfl) fun _ => ⟨rfl, rfl, rfl⟩

theorem moveTo_heedless (pos : Nat) : Heedless (moveTo pos) :=
  .modify (fun _ _ => rfl) fun _ => ⟨rfl, rfl, rfl⟩

theorem startLine_heedless (pos : Nat) : Heedless (startLine pos) :=
  .modify (fun _ _ => rfl) fun _ => ⟨rfl, rfl, rfl⟩

theorem peek_heedless (ahead : Nat) : Heedless (peek ahead) :=
  .bind source_heedless fun _ => .get (fun _ _ => rfl) fun _ => .pure _

theorem peekIs_heedless (ahead : Nat) (character : Char) : Heedless (peekIs ahead character) :=
  .bind (peek_heedless _) fun _ => .pure _

theorem remaining_heedless : Heedless remaining :=
  .bind source_heedless fun _ => .get (fun _ _ => rfl) fun _ => .pure _

theorem passLineBreak_heedless (unified : Bool) : Heedless (passLineBreak unified) :=
  .get (fun _ _ => rfl) fun _ => .bind (peek_heedless _) fun _ => .bind (peek_heedless _) fun _ =>
    .bind (startLine_heedless _) fun _ => .ite (.pure _) (slice_heedless _ _)

end Steps

section Nesting

theorem openContext_heedless (context : Context) (exprAllowed : Bool) :
    Heedless (openContext context exprAllowed) :=
  .modify (fun _ _ => rfl) fun _ => ⟨rfl, rfl, rfl⟩

theorem allowExpr_heedless (allowed : Bool) : Heedless (allowExpr allowed) :=
  .modify (fun _ _ => rfl) fun _ => ⟨rfl, rfl, rfl⟩

theorem braceIsBlock_heedless (previous : Kind) : Heedless (braceIsBlock previous) := by
  refine .get (fun _ _ => rfl) fun state => ?_
  dsimp only
  split
  · split <;> exact .pure _
  · exact breaksBetween_heedless _ _
  all_goals exact .pure _

theorem closeContext_heedless : Heedless closeContext := by
  refine .modify ?_ fun state => ?_
  · intro state record
    simp only [State.withRecord]
    split <;> rfl
  · split <;> exact ⟨rfl, rfl, rfl⟩

theorem closeTag_heedless (previous : Kind) : Heedless (closeTag previous) := by
  refine .modify ?_ fun state => ?_
  · intro state record
    dsimp only [State.withRecord]
    by_cases closes : (state.contexts.head? == some .jsxOpenTag && previous == .slash ||
        state.contexts.head? == some .jsxCloseTag) = true
    · simp only [if_pos closes]
    · simp only [if_neg closes]
  · dsimp only
    split <;> exact ⟨rfl, rfl, rfl⟩

theorem nestPlain_heedless (previous : Kind) : Heedless (nestPlain previous) := by
  refine .get (fun _ _ => rfl) fun state => .ite (allowExpr_heedless _) ?_
  split
  · exact closeContext_heedless
  · exact closeContext_heedless
  · refine .ite (.bind source_heedless fun _ => ?_) (allowExpr_heedless _)
    exact .bind (breaksBetween_heedless _ _) fun _ => allowExpr_heedless _
  · exact .bind (braceIsBlock_heedless _) fun _ => openContext_heedless _ _
  · exact openContext_heedless _ _
  · exact openContext_heedless _ _
  · exact .pure _
  · exact .ite (openContext_heedless _ _) (allowExpr_heedless _)
  · exact .ite (.modify (fun _ _ => rfl) fun _ => ⟨rfl, rfl, rfl⟩) (openContext_heedless _ _)
  · exact .bind (openContext_heedless _ _) fun _ => openContext_heedless _ _
  · exact closeTag_heedless _
  · exact allowExpr_heedless _

theorem nest_heedless (previous : Kind) : Heedless (nest previous) := by
  refine .read fun setting =>
    .ite (.get (fun _ _ => rfl) fun state => .ite ?_ ?_) (nestPlain_heedless _)
  · split
    · exact openContext_heedless _ _
    · exact openContext_heedless _ _
    · exact .bind (nestPlain_heedless _) fun _ => allowExpr_heedless _
  · exact .ite (.modify (fun _ _ => rfl) fun _ => ⟨rfl, rfl, rfl⟩) (nestPlain_heedless _)

theorem finishToken_heedless (kind : Kind) (value : Value) : Heedless (finishToken kind value) :=
  .bind position_heedless fun _ => .get (fun _ _ => rfl) fun _ =>
    .bind (.modify (fun _ _ => rfl) fun _ => ⟨rfl, rfl, rfl⟩) fun _ => nest_heedless _

theorem finishMark_heedless (kind : Kind) (length : Nat) : Heedless (finishMark kind length) :=
  .bind (advance_heedless _) fun _ => finishToken_heedless _ _

theorem finishOperator_heedless (kind : Kind) (length : Nat) :
    Heedless (finishOperator kind length) :=
  .get (fun _ _ => rfl) fun _ => .bind (slice_heedless _ _) fun _ =>
    .bind (moveTo_heedless _) fun _ => finishToken_heedless _ _

end Nesting

section Space

theorem finishComment_heedless (isBlock : Bool) (value : List Char) (start : Nat)
    (startLoc : Position) : Heedless (finishComment isBlock value start startLoc) := by
  refine .bind position_heedless fun stopLoc => ⟨?_, fun _ state => state.recordComment_grows _⟩
  intro setting state record quiet
  -- A quiet record takes no comment, and hides the one that the state has taken.
  change EStateM.Result.ok _ (State.recordComment _ (state.withRecord record)) = _
  have same : ∀ comment : Comment, (state.withRecord record).recordComment comment =
      (state.recordComment comment).withRecord record := by
    intro comment
    unfold State.recordComment
    rw [if_neg (by simp [State.withRecord, quiet])]
    split <;> rfl
  rw [same]
  rfl

theorem passBlockComment_heedless : Heedless passBlockComment := by
  unfold passBlockComment
  refine .bind position_heedless fun startLoc => .get (fun _ _ => rfl) fun state => ?_
  refine .bind source_heedless fun source => ?_
  have ends : ∀ stop, Heedless (do
      finishComment true (← slice (state.pos + 2) stop) state.pos startLoc) := fun _ =>
    .bind (slice_heedless _ _) fun _ => finishComment_heedless _ _ _ _
  refine .ite (.bind (fault_heedless _) fun _ => ?_) ?_
  all_goals
    split
    · exact raise_heedless _ _
    · refine .bind (moveTo_heedless _) fun _ => .bind (slice_heedless _ _) fun text => ?_
      exact .ite
        (.bind (.modify (fun _ _ => rfl) fun _ => ⟨rfl, rfl, rfl⟩) fun _ => ends _) (ends _)

theorem passLineComment_heedless (opening : Nat) : Heedless (passLineComment opening) := by
  unfold passLineComment
  refine .bind position_heedless fun startLoc => ?_
  refine .get (fun _ _ => rfl) fun state => .bind source_heedless fun source =>
    .bind (moveTo_heedless _) fun _ => ?_
  exact .bind (slice_heedless _ _) fun text => finishComment_heedless _ _ _ _

theorem passBlanks_heedless (count : Nat) : Heedless (passBlanks count) := by
  induction count with
  | zero => exact .pure _
  | succ count inductionHypothesis =>
      refine .bind (peek_heedless _) fun found => ?_
      split
      · exact .pure _
      · refine .ite (.bind (passLineBreak_heedless _) fun _ => inductionHypothesis)
          (.ite (.bind (advance_heedless _) fun _ => inductionHypothesis)
            (.ite (.bind (peek_heedless _) fun second => ?_) (.pure _)))
        split
        · exact .bind passBlockComment_heedless fun _ => inductionHypothesis
        · exact .bind (passLineComment_heedless _) fun _ => inductionHypothesis
        · exact .pure _

theorem skipSpace_heedless : Heedless skipSpace :=
  .bind remaining_heedless fun _ => passBlanks_heedless _

theorem skipShebang_heedless : Heedless skipShebang :=
  .get (fun _ _ => rfl) fun _ => .bind source_heedless fun _ =>
    .ite (passLineComment_heedless _) (.pure _)

end Space

section Literals

theorem readHex_heedless (count : Nat) : Heedless (readHex count) := by
  unfold readHex
  refine .bind source_heedless fun source => .get (fun _ _ => rfl) fun state => ?_
  exact .bind (moveTo_heedless _) fun _ => .ite (.pure _) (raise_heedless _ _)

theorem readCodePoint_heedless : Heedless readCodePoint := by
  unfold readCodePoint
  refine .bind (peekIs_heedless _ _) fun found => .ite ?_ (readHex_heedless _)
  refine .bind (advance_heedless _) fun _ => .get (fun _ _ => rfl) fun state => ?_
  refine .bind (checkRest_heedless _) fun _ => .bind source_heedless fun source => ?_
  refine .ite (.bind (readHex_heedless _) fun code => .bind (advance_heedless _) fun _ =>
    .ite ?_ (.pure _)) (raise_heedless _ _)
  exact .bind (raise_heedless _ _) fun _ => .pure _

theorem octalDigits_heedless (start : Nat) : Heedless (octalDigits start) :=
  .bind source_heedless fun _ => .bind (slice_heedless _ _) fun _ =>
    .ite (slice_heedless _ _) (.pure _)

theorem readOctal_heedless (inTemplate : Bool) : Heedless (readOctal inTemplate) := by
  unfold readOctal
  refine .bind (behind_heedless _) fun start => .bind (octalDigits_heedless _) fun digits => ?_
  have ends : Heedless (do
      moveTo (start + digits.length)
      return [charOf (Digit.number 8 digits)]) := .bind (moveTo_heedless _) fun _ => .pure _
  refine .ite (.bind (behind_heedless _) fun escape => ?_) ends
  refine .bind (.modify ?_ fun state => ?_) fun _ => .get (fun _ _ => rfl) fun state => .ite ?_ ends
  · intro state record
    by_cases noted : state.containsOctal
    · simp [State.withRecord, noted]
    · simp [State.withRecord, noted]
  · split <;> exact ⟨rfl, rfl, rfl⟩
  · exact .bind (raise_heedless _ _) fun _ => ends

theorem readEscape_heedless (inTemplate : Bool) : Heedless (readEscape inTemplate) := by
  unfold readEscape
  refine .bind (advance_heedless _) fun _ => .bind (peek_heedless _) fun found => ?_
  split
  · exact .pure _
  · refine .bind (advance_heedless _) fun _ => ?_
    split
    case h_3 => exact .bind (readHex_heedless _) fun _ => .pure _
    case h_4 => exact .bind readCodePoint_heedless fun _ => .pure _
    case h_9 =>
      refine .bind (peekIs_heedless _ _) fun feed =>
        .ite (.bind (advance_heedless _) fun _ => ?_) ?_
      all_goals exact .get (fun _ _ => rfl) fun _ => .bind (startLine_heedless _) fun _ => .pure _
    case h_10 => exact .get (fun _ _ => rfl) fun _ => .bind (startLine_heedless _) fun _ => .pure _
    case h_11 => exact .ite (readOctal_heedless _) (.pure _)
    all_goals exact .pure _

theorem gatherString_heedless (quote : Char) (count chunk : Nat) (gathered : List Char) :
    Heedless (gatherString quote count chunk gathered) := by
  induction count generalizing chunk gathered with
  | zero => exact .get (fun _ _ => rfl) fun _ => raise_heedless _ _
  | succ count inductionHypothesis =>
      refine .bind (peek_heedless _) fun found => ?_
      split
      · exact .get (fun _ _ => rfl) fun _ => raise_heedless _ _
      · refine .ite (.bind (sliceFrom_heedless _) fun _ => .pure _) (.ite ?_ (.ite ?_ ?_))
        · exact .bind (sliceFrom_heedless _) fun _ => .bind (readEscape_heedless _) fun _ =>
            .get (fun _ _ => rfl) fun _ => inductionHypothesis _ _
        · exact .get (fun _ _ => rfl) fun _ => raise_heedless _ _
        · exact .bind (advance_heedless _) fun _ => inductionHypothesis _ _

theorem readString_heedless (quote : Char) : Heedless (readString quote) :=
  .bind (advance_heedless _) fun _ => .bind remaining_heedless fun _ =>
    .get (fun _ _ => rfl) fun _ => .bind (gatherString_heedless _ _ _ _) fun _ =>
      .bind (advance_heedless _) fun _ => finishToken_heedless _ _

theorem atSubstitution_heedless : Heedless atSubstitution :=
  .bind (peekIs_heedless _ _) fun _ => .bind (peekIs_heedless _ _) fun _ => .pure _

theorem gatherChunk_heedless (count chunk : Nat) (gathered : List Char) :
    Heedless (gatherChunk count chunk gathered) := by
  induction count generalizing chunk gathered with
  | zero => exact .get (fun _ _ => rfl) fun _ => raise_heedless _ _
  | succ count inductionHypothesis =>
      refine .bind (peek_heedless _) fun found => ?_
      split
      · exact .get (fun _ _ => rfl) fun _ => raise_heedless _ _
      · refine .bind atSubstitution_heedless fun ends => ?_
        refine .ite (.bind (sliceFrom_heedless _) fun _ => .pure _) (.ite ?_ (.ite ?_ ?_))
        · exact .bind (sliceFrom_heedless _) fun _ => .bind (readEscape_heedless _) fun _ =>
            .get (fun _ _ => rfl) fun _ => inductionHypothesis _ _
        · exact .bind (sliceFrom_heedless _) fun _ => .bind (passLineBreak_heedless _) fun _ =>
            .get (fun _ _ => rfl) fun _ => inductionHypothesis _ _
        · exact .bind (advance_heedless _) fun _ => inductionHypothesis _ _

theorem readWordEscape_heedless (first : Bool) : Heedless (readWordEscape first) := by
  unfold readWordEscape
  refine .bind (.modify (fun _ _ => rfl) fun _ => ⟨rfl, rfl, rfl⟩) fun _ =>
    .get (fun _ _ => rfl) fun state => ?_
  refine .bind (advance_heedless _) fun _ => .bind (peekIs_heedless _ _) fun marked => ?_
  refine .ite (.get (fun _ _ => rfl) fun _ => .bind (raise_heedless _ _) fun _ => ?_) ?_
  all_goals
    refine .bind (advance_heedless _) fun _ => .bind readCodePoint_heedless fun code => ?_
    split
    · exact .ite (.pure _) (raise_heedless _ _)
    · exact raise_heedless _ _

theorem readTemplate_heedless : Heedless readTemplate := by
  unfold readTemplate
  refine .get (fun _ _ => rfl) fun state => ?_
  have chunk : Heedless (do
      let gathered ← gatherChunk (← remaining) (← get).pos []
      finishToken .template (.text (String.ofList gathered.reverse))) :=
    .bind remaining_heedless fun _ => .get (fun _ _ => rfl) fun _ =>
      .bind (gatherChunk_heedless _ _ _) fun _ => finishToken_heedless _ _
  refine .bind atSubstitution_heedless fun opens => .ite (finishMark_heedless _ _) ?_
  exact .bind (peekIs_heedless _ _) fun closes => .ite (finishMark_heedless _ _) chunk

theorem gatherWord_heedless (count : Nat) (first : Bool) (chunk : Nat) (gathered : List Char) :
    Heedless (gatherWord count first chunk gathered) := by
  induction count generalizing first chunk gathered with
  | zero => exact .bind (sliceFrom_heedless _) fun _ => .pure _
  | succ count inductionHypothesis =>
      refine .bind (peek_heedless _) fun found => ?_
      split
      · exact .bind (sliceFrom_heedless _) fun _ => .pure _
      · refine .ite (.bind (advance_heedless _) fun _ => inductionHypothesis _ _ _) (.ite ?_ ?_)
        · exact .bind (sliceFrom_heedless _) fun _ => .bind (readWordEscape_heedless _) fun _ =>
            .get (fun _ _ => rfl) fun _ => inductionHypothesis _ _ _
        · exact .bind (sliceFrom_heedless _) fun _ => .pure _

theorem readWordText_heedless : Heedless readWordText :=
  .bind (.modify (fun _ _ => rfl) fun _ => ⟨rfl, rfl, rfl⟩) fun _ =>
    .bind remaining_heedless fun _ => .get (fun _ _ => rfl) fun _ =>
      .bind (gatherWord_heedless _ _ _ _) fun _ => .pure _

theorem readRegExp_heedless : Heedless readRegExp := by
  unfold readRegExp
  refine .get (fun _ _ => rfl) fun state => .bind source_heedless fun source =>
    .bind remaining_heedless fun count => .bind (moveTo_heedless _) fun _ =>
      .ite ?_ (raise_heedless _ _)
  refine .bind (slice_heedless _ _) fun _ => .bind (advance_heedless _) fun _ =>
    .bind readWordText_heedless fun _ => ?_
  exact .ite (finishToken_heedless _ _) (raise_heedless _ _)

theorem isKeyword_heedless (word : String) : Heedless (isKeyword word) :=
  .read fun _ => .get (fun _ _ => rfl) fun _ => .ite (.pure _) (.pure _)

theorem readWord_heedless : Heedless readWord :=
  .bind readWordText_heedless fun _ => .bind (isKeyword_heedless _) fun _ =>
    .get (fun _ _ => rfl) fun _ => finishToken_heedless _ _

theorem passDigits_heedless (radix : Nat) : Heedless (passDigits radix) :=
  .bind source_heedless fun _ => .get (fun _ _ => rfl) fun _ =>
    .bind (moveTo_heedless _) fun _ => .pure _

theorem checkNumberEnds_heedless : Heedless checkNumberEnds :=
  .bind (peek_heedless _) fun _ =>
    .ite (.get (fun _ _ => rfl) fun _ => raise_heedless _ _) (.pure _)

theorem readRadixNumber_heedless (radix : Nat) : Heedless (readRadixNumber radix) := by
  unfold readRadixNumber
  refine .bind (advance_heedless _) fun _ => .bind (passDigits_heedless _) fun digits => ?_
  have ends : Heedless (do
      checkNumberEnds
      finishToken .num (.number (Digit.rounded radix digits))) :=
    .bind checkNumberEnds_heedless fun _ => finishToken_heedless _ _
  exact .ite (.get (fun _ _ => rfl) fun _ => .bind (raise_heedless _ _) fun _ => ends) ends

theorem readFraction_heedless : Heedless readFraction :=
  .bind (peekIs_heedless _ _) fun _ =>
    .ite (.bind (advance_heedless _) fun _ => .bind (passDigits_heedless _) fun _ => .pure _)
      (.pure _)

theorem readExponent_heedless (start : Nat) : Heedless (readExponent start) := by
  unfold readExponent
  have ends : ∀ negative : Bool, Heedless (do
      let digits ← passDigits 10
      if digits.isEmpty then raise start .invalidNumber
      return some (negative, digits)) := fun negative =>
    .bind (passDigits_heedless _) fun _ =>
      .ite (.bind (raise_heedless _ _) fun _ => .pure _) (.pure _)
  refine .bind (peekIs_heedless _ _) fun small => .bind (peekIs_heedless _ _) fun capital => ?_
  refine .ite (.bind (advance_heedless _) fun _ => .bind (peekIs_heedless _ _) fun negative => ?_)
    (.pure _)
  refine .bind (peekIs_heedless _ _) fun positive => ?_
  exact .ite (.bind (advance_heedless _) fun _ => ends negative) (ends negative)

theorem numberRest_heedless (start : Nat) (integer : List Char) :
    Heedless (numberRest start integer) := by
  refine .bind readFraction_heedless fun fraction => .bind (readExponent_heedless _) fun exponent =>
    .bind checkNumberEnds_heedless fun _ => .bind (sliceFrom_heedless _) fun text => ?_
  refine .ite (finishToken_heedless _ _) (.get (fun _ _ => rfl) fun state => ?_)
  exact .ite (raise_heedless _ _) (finishToken_heedless _ _)

theorem readNumber_heedless (startsWithDot : Bool) : Heedless (readNumber startsWithDot) := by
  refine .get (fun _ _ => rfl) fun state => .ite (.bind (.pure _) fun integer => ?_)
    (.bind (passDigits_heedless _) fun integer => ?_)
  all_goals
    exact .ite (.bind (raise_heedless _ _) fun _ => numberRest_heedless _ _)
      (numberRest_heedless _ _)

end Literals

section Operators

variable {resume : Scan Unit}

theorem readDot_heedless : Heedless readDot := by
  refine .bind (peek_heedless _) fun _ => .ite (readNumber_heedless _) ?_
  refine .bind (peekIs_heedless _ _) fun _ => .bind (peekIs_heedless _ _) fun _ => ?_
  exact .ite (finishMark_heedless _ _) (finishMark_heedless _ _)

theorem readSlash_heedless : Heedless readSlash := by
  refine .get (fun _ _ => rfl) fun state =>
    .ite (.bind (advance_heedless _) fun _ => readRegExp_heedless) ?_
  exact .bind (peekIs_heedless _ _) fun _ =>
    .ite (finishOperator_heedless _ _) (finishOperator_heedless _ _)

theorem readStarModulo_heedless (character : Char) : Heedless (readStarModulo character) := by
  refine .bind (peekIs_heedless _ _) fun _ => .ite ?_ ?_
  all_goals
    exact .bind (peekIs_heedless _ _) fun _ =>
      .ite (finishOperator_heedless _ _) (finishOperator_heedless _ _)

theorem readBarAmpersand_heedless (character : Char) (twice once : Kind) :
    Heedless (readBarAmpersand character twice once) := by
  refine .bind (peekIs_heedless _ _) fun _ => .ite (finishOperator_heedless _ _) ?_
  exact .bind (peekIs_heedless _ _) fun _ =>
    .ite (finishOperator_heedless _ _) (finishOperator_heedless _ _)

theorem readCaret_heedless : Heedless readCaret :=
  .bind (peekIs_heedless _ _) fun _ =>
    .ite (finishOperator_heedless _ _) (finishOperator_heedless _ _)

theorem passMarkupComment_heedless (opening : Nat) (goesOn : Heedless resume) :
    Heedless (passMarkupComment opening resume) :=
  .bind (passLineComment_heedless _) fun _ => .bind skipSpace_heedless fun _ => goesOn

theorem readPlusMinus_heedless (character : Char) (goesOn : Heedless resume) :
    Heedless (readPlusMinus character resume) := by
  refine .bind (peekIs_heedless _ _) fun _ => .ite (.get (fun _ _ => rfl) fun state => ?_) ?_
  · refine .bind (peekIs_heedless _ _) fun _ => .bind (breaksBetween_heedless _ _) fun _ => ?_
    exact .ite (passMarkupComment_heedless _ goesOn) (finishOperator_heedless _ _)
  · exact .bind (peekIs_heedless _ _) fun _ =>
      .ite (finishOperator_heedless _ _) (finishOperator_heedless _ _)

theorem readAngle_heedless (character : Char) (goesOn : Heedless resume) :
    Heedless (readAngle character resume) := by
  unfold readAngle
  refine .bind (peekIs_heedless _ _) fun _ => .ite ?_ ?_
  · refine .bind (peekIs_heedless _ _) fun _ => .bind (peekIs_heedless _ _) fun _ => ?_
    exact .ite (finishOperator_heedless _ _) (finishOperator_heedless _ _)
  · refine .bind (peekIs_heedless _ _) fun _ => .bind (peekIs_heedless _ _) fun _ =>
      .bind (peekIs_heedless _ _) fun _ => .ite ?_ (.bind (peekIs_heedless _ _) fun _ => .ite ?_ ?_)
    · exact .read fun _ => .ite (unexpected_heedless _) (passMarkupComment_heedless _ goesOn)
    · exact .bind (peekIs_heedless _ _) fun _ => finishOperator_heedless _ _
    · exact finishOperator_heedless _ _

theorem readEqualsBang_heedless (character : Char) : Heedless (readEqualsBang character) := by
  unfold readEqualsBang
  refine .bind (peekIs_heedless _ _) fun _ => .ite ?_ (.bind (peekIs_heedless _ _) fun _ => ?_)
  · exact .bind (peekIs_heedless _ _) fun _ => finishOperator_heedless _ _
  · exact .ite (finishMark_heedless _ _) (finishOperator_heedless _ _)

theorem readZero_heedless : Heedless readZero := by
  refine .bind (peek_heedless _) fun second => ?_
  split
  all_goals first
    | exact readRadixNumber_heedless _
    | exact readNumber_heedless _

theorem readColon_heedless : Heedless readColon :=
  .bind (peekIs_heedless _ _) fun _ =>
    .ite (finishOperator_heedless _ _) (finishMark_heedless _ _)

theorem readMark_heedless (character : Char) (goesOn : Heedless resume) :
    Heedless (readMark character resume) := by
  unfold readMark
  split
  case h_1 => exact readDot_heedless
  case h_10 => exact readColon_heedless
  case h_14 => exact readZero_heedless
  case h_15 => exact readString_heedless _
  case h_16 => exact readString_heedless _
  case h_17 => exact readSlash_heedless
  case h_18 => exact readStarModulo_heedless _
  case h_19 => exact readStarModulo_heedless _
  case h_20 => exact readBarAmpersand_heedless _ _ _
  case h_21 => exact readBarAmpersand_heedless _ _ _
  case h_22 => exact readCaret_heedless
  case h_23 => exact readPlusMinus_heedless _ goesOn
  case h_24 => exact readPlusMinus_heedless _ goesOn
  case h_25 => exact readAngle_heedless _ goesOn
  case h_26 => exact readAngle_heedless _ goesOn
  case h_27 => exact readEqualsBang_heedless _
  case h_28 => exact readEqualsBang_heedless _
  case h_29 => exact finishOperator_heedless _ _
  case h_30 =>
    exact .ite (readNumber_heedless _) (.get (fun _ _ => rfl) fun _ => raise_heedless _ _)
  all_goals exact finishMark_heedless _ _

theorem readPlain_heedless (character : Char) (goesOn : Heedless resume) :
    Heedless (readPlain character resume) :=
  .ite readWord_heedless (readMark_heedless _ goesOn)

theorem readEntity_heedless : Heedless readEntity := by
  unfold readEntity
  refine .bind (advance_heedless _) fun _ => .get (fun _ _ => rfl) fun state =>
    .bind source_heedless fun source => ?_
  dsimp only
  split
  · exact .bind (moveTo_heedless _) fun _ => .pure _
  · exact .pure _

theorem gatherMarkup_heedless (count chunk : Nat) (gathered : List Char) :
    Heedless (gatherMarkup count chunk gathered) := by
  induction count generalizing chunk gathered with
  | zero => exact .get (fun _ _ => rfl) fun _ => raise_heedless _ _
  | succ count inductionHypothesis =>
      refine .bind (peek_heedless _) fun found => ?_
      split
      · exact .get (fun _ _ => rfl) fun _ => raise_heedless _ _
      · refine .ite (.bind (sliceFrom_heedless _) fun _ => .pure _) (.ite ?_ (.ite ?_ ?_))
        · exact .bind (sliceFrom_heedless _) fun _ => .bind readEntity_heedless fun _ =>
            .get (fun _ _ => rfl) fun _ => inductionHypothesis _ _
        · exact .bind (sliceFrom_heedless _) fun _ => .bind (passLineBreak_heedless _) fun _ =>
            .get (fun _ _ => rfl) fun _ => inductionHypothesis _ _
        · exact .bind (advance_heedless _) fun _ => inductionHypothesis _ _

theorem gatherAttribute_heedless (quote : Char) (count chunk : Nat) (gathered : List Char) :
    Heedless (gatherAttribute quote count chunk gathered) := by
  induction count generalizing chunk gathered with
  | zero => exact .get (fun _ _ => rfl) fun _ => raise_heedless _ _
  | succ count inductionHypothesis =>
      refine .bind (peek_heedless _) fun found => ?_
      split
      · exact .get (fun _ _ => rfl) fun _ => raise_heedless _ _
      · refine .ite (.bind (sliceFrom_heedless _) fun _ => .pure _) (.ite ?_ (.ite ?_ ?_))
        · exact .bind (sliceFrom_heedless _) fun _ => .bind readEntity_heedless fun _ =>
            .get (fun _ _ => rfl) fun _ => inductionHypothesis _ _
        · exact .bind (sliceFrom_heedless _) fun _ => .bind (passLineBreak_heedless _) fun _ =>
            .get (fun _ _ => rfl) fun _ => inductionHypothesis _ _
        · exact .bind (advance_heedless _) fun _ => inductionHypothesis _ _

theorem readMarkupText_heedless (character : Char) (goesOn : Heedless resume) :
    Heedless (readMarkupText character resume) := by
  unfold readMarkupText
  refine .get (fun _ _ => rfl) fun state =>
    .ite (finishMark_heedless _ _) (.ite (readMark_heedless _ goesOn) ?_)
  exact .bind remaining_heedless fun _ => .get (fun _ _ => rfl) fun _ =>
    .bind (gatherMarkup_heedless _ _ _) fun _ => finishToken_heedless _ _

theorem readAttributeText_heedless (quote : Char) : Heedless (readAttributeText quote) :=
  .bind (advance_heedless _) fun _ => .bind remaining_heedless fun _ =>
    .get (fun _ _ => rfl) fun _ => .bind (gatherAttribute_heedless _ _ _ _) fun _ =>
      .bind (advance_heedless _) fun _ => finishToken_heedless _ _

theorem readMarkupName_heedless (character : Char) : Heedless (readMarkupName character) :=
  .get (fun _ _ => rfl) fun _ => .bind source_heedless fun _ => .bind (moveTo_heedless _) fun _ =>
    .bind (slice_heedless _ _) fun _ => finishToken_heedless _ _

theorem readMarkup_heedless (character : Char) (goesOn : Heedless resume) :
    Heedless (readMarkup character resume) := by
  unfold readMarkup
  refine .get (fun _ _ => rfl) fun state => .ite (readMarkupText_heedless _ goesOn)
    (.ite (readMarkupName_heedless _) (.ite (finishMark_heedless _ _) ?_))
  exact .ite (readAttributeText_heedless _)
    (.ite (finishMark_heedless _ _) (readPlain_heedless _ goesOn))

theorem readToken_heedless (character : Char) (goesOn : Heedless resume) :
    Heedless (readToken character resume) :=
  .read fun _ => .get (fun _ _ => rfl) fun _ => .ite (finishOperator_heedless _ _)
    (.ite (readMarkup_heedless _ goesOn) (readPlain_heedless _ goesOn))

end Operators

section Tokens

theorem beginToken_heedless : Heedless beginToken :=
  .bind position_heedless fun _ => .modify (fun _ _ => rfl) fun _ => ⟨rfl, rfl, rfl⟩

theorem fetchToken_heedless (context : Context) (resumes : Heedless resume) :
    Heedless (fetchToken context resume) := by
  refine .bind beginToken_heedless fun _ => .bind (peek_heedless _) fun found => ?_
  split
  · exact finishToken_heedless _ _
  · exact .ite readTemplate_heedless (readToken_heedless _ resumes)

theorem nextTokenWithin_heedless (count : Nat) : Heedless (nextTokenWithin count) := by
  induction count with
  | zero => exact finishToken_heedless _ _
  | succ count inductionHypothesis =>
      refine .get (fun _ _ => rfl) fun state => .ite (.bind skipSpace_heedless fun _ => ?_) ?_
      all_goals exact fetchToken_heedless _ inductionHypothesis

theorem nextToken_heedless : Heedless nextToken :=
  .bind remaining_heedless fun _ => nextTokenWithin_heedless _

end Tokens

section Passing

/-- The current token is recorded and becomes the previous one. -/
def State.passed (state : State) : State := state.recordToken.passToken

/-- Passing a token is reading the next one after the current one has been recorded. -/
theorem next_eq (setting : Setting) (state : State) :
    next setting state = nextToken setting state.passed := rfl

/-- Where nothing is recorded, the record does not matter to what is passed. -/
theorem State.passed_withRecord {state : State} {record : Record}
    (quiet : record.recording = false) :
    (state.withRecord record).passed = state.passed.withRecord record := by
  unfold passed recordToken
  rw [if_neg (by simp only [withRecord, quiet, Bool.false_eq_true, not_false_eq_true])]
  split <;> rfl

/-- Passing a token leaves the record as long as it was, or longer. -/
theorem State.passed_extends (state : State) : State.Extends state state.passed := by
  unfold passed recordToken
  split
  · exact ⟨List.suffix_cons _ _, List.suffix_refl _⟩
  · exact ⟨List.suffix_refl _, List.suffix_refl _⟩

@[simp] theorem State.passed_recording (state : State) :
    state.passed.recording = state.recording := by
  unfold passed recordToken
  split <;> rfl

@[simp] theorem State.passed_strict (state : State) : state.passed.strict = state.strict := by
  unfold passed recordToken
  split <;> rfl

@[simp] theorem State.passed_inType (state : State) : state.passed.inType = state.inType := by
  unfold passed recordToken
  split <;> rfl

/-- While nothing is recorded, the passing of a token leaves any record as it is. -/
theorem next_silent (setting : Setting) (state : State) {record : Record}
    (quiet : record.recording = false) :
    next setting (state.withRecord record) =
      overState (·.withRecord record) (next setting state) := by
  rw [next_eq, State.passed_withRecord quiet, next_eq]
  exact nextToken_heedless.silent setting state.passed record quiet

end Passing

section Maintained

variable {condition : State → Prop}

/-- What stays true of a state that grows is maintained by any such step. -/
theorem Heedless.maintains {action : Scan α} (heedless : Heedless action)
    (closed : ∀ first last, State.Grows first last → condition first → condition last) :
    Maintains condition action :=
  fun setting state => closed _ _ (heedless.grows setting state)

/-- So is it by the passing of a token, if the record of the token does not matter. -/
theorem next_maintains
    (closed : ∀ first last, State.Grows first last → condition first → condition last)
    (anyway : ∀ state : State, condition state → condition state.passed) :
    Maintains condition next :=
  .bind (.modify anyway) fun _ => nextToken_heedless.maintains closed

/-- What passing a token maintains, eating one maintains, too. -/
theorem eat_maintains (kind : Kind)
    (closed : ∀ first last, State.Grows first last → condition first → condition last)
    (anyway : ∀ state : State, condition state → condition state.passed) :
    Maintains condition (eat kind) :=
  .get fun _ _ => .ite (.bind (next_maintains closed anyway) fun _ => .pure _) (.pure _)

/-- So is it where the line is found again, if the line does not matter. -/
theorem returnToLine_maintains (count : Nat)
    (anyway : ∀ (state : State) lineStart line, condition state →
      condition { state with lineStart := lineStart, line := line }) :
    Maintains condition (returnToLine count) := by
  induction count with
  | zero => exact .pure _
  | succ count inductionHypothesis =>
      unfold returnToLine
      refine .get fun state holds =>
        .ite (.bind (.read fun _ => .pure _) fun source => ?_) (.pure _)
      have steps : Maintains condition (do
          set { state with
            lineStart := lastLineFeed source (state.lineStart - 1), line := state.line - 1 }
          returnToLine count : Scan Unit) :=
        .bind (.set (anyway state _ _ holds)) fun _ => inductionHypothesis
      have turn : Maintains condition (do
          if state.line == 0 then fault .line
          set { state with
            lineStart := lastLineFeed source (state.lineStart - 1), line := state.line - 1 }
          returnToLine count : Scan Unit) :=
        .ite (.bind (.throw _) fun _ => steps) steps
      exact .ite (.bind (.throw _) fun _ => turn) turn

/-- So is it by the beginning and the end of strict code, if strictness does not matter. -/
theorem setStrict_maintains (strict : Bool)
    (closed : ∀ first last, State.Grows first last → condition first → condition last)
    (anyway : ∀ state : State, condition state → condition { state with strict := strict }) :
    Maintains condition (setStrict strict) := by
  refine .bind (.modify anyway) fun _ => .get fun state _ => .ite ?_ (.pure _)
  refine .get fun state _ => .bind ((moveTo_heedless _).maintains closed) fun _ => ?_
  refine .get fun state _ => .bind (returnToLine_maintains _ fun _ _ _ =>
    closed _ _ (.ofSame rfl rfl rfl)) fun _ => ?_
  exact nextToken_heedless.maintains closed

end Maintained

end Lexer

end EcmaSyntax
