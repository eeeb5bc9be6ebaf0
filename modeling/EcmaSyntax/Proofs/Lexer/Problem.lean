import EcmaSyntax.Proofs.Lexer.Rewind
import EcmaSyntax.Proofs.Lexer.Fault
import EcmaSyntax.Proofs.Lexer.Next

namespace EcmaSyntax

namespace Lexer

variable {α β : Type} {setting : Setting} {state : State}

/-- The offset of an escape that is remembered is a seam. -/
def State.OctalPlaced (source : Source) (state : State) : Prop :=
  ∀ pos ∈ state.octalPosition, source.Seam pos

/-- The octal number that is remembered stays where it is. -/
theorem State.Remembers.octalPlaced {source : Source} {first last : State}
    (remembers : first.Remembers last) (placed : first.OctalPlaced source) :
    last.OctalPlaced source := by
  intro pos known
  rcases remembers with same | none
  · exact placed pos (same ▸ known)
  · rw [none] at known
    cases known

/-- If a step fails, its problem lies in its place, and it is never the nesting of constructs. The
escapes that may be found to be a problem later lie in their places, too. -/
structure InPlace (action : Scan α) (setting : Setting) (state : State) : Prop where
  fails : state.OctalPlaced setting.source →
    Fails action setting state fun failure => failure.Placed setting.source ∧ failure.IsFlat
  octal : state.OctalPlaced setting.source →
    Gives action setting state fun _ after => after.OctalPlaced setting.source

namespace InPlace

variable {action first second : Scan α} {next : α → Scan β}

/-- A step that raises no problem raises none in a wrong place. -/
theorem tame [tame : Tame action] : InPlace action setting state where
  fails _ := (tame.tame setting state).mono fun failure fault => by
    cases failure with
    | syntaxError error | nestingTooDeep pos loc => cases fault
    | fault reason => exact ⟨trivial, nofun⟩
  octal placed := (tame.remembers setting state).mono fun _ _ remembers =>
    remembers.octalPlaced placed

/-- The problem of a step that fails lies in its place. -/
theorem places (inPlace : InPlace action setting state)
    (placed : state.OctalPlaced setting.source) :
    Fails action setting state (Failure.Placed setting.source) :=
  (inPlace.fails placed).mono fun _ => And.left

/-- The problem of a step that fails is not the nesting. -/
theorem flat (inPlace : InPlace action setting state)
    (placed : state.OctalPlaced setting.source) : Fails action setting state Failure.IsFlat :=
  (inPlace.fails placed).mono fun _ => And.right

theorem bind (begins : InPlace action setting state)
    (goesOn : Gives action setting state fun value after =>
      InPlace (next value) setting after) :
    InPlace (action >>= next) setting state where
  fails placed := (begins.fails placed).bind fun value after ends =>
    (goesOn value after ends).fails (begins.octal placed value after ends)
  octal placed := Gives.bind_iff.mpr fun value after ends =>
    (goesOn value after ends).octal (begins.octal placed value after ends)

/-- What comes after a step does not depend on the state in which the step ends. -/
theorem step (begins : InPlace action setting state)
    (goesOn : ∀ value after, InPlace (next value) setting after) :
    InPlace (action >>= next) setting state :=
  begins.bind fun value after _ => goesOn value after

/-- Only the first of two steps raises problems. -/
theorem begin (begins : InPlace action setting state) [∀ value, Tame (next value)] :
    InPlace (action >>= next) setting state := begins.step fun _ _ => .tame

/-- Only the second of two steps raises problems. -/
theorem after [Tame action]
    (goesOn : Gives action setting state fun value after =>
      InPlace (next value) setting after) :
    InPlace (action >>= next) setting state := tame.bind goesOn

/-- Only the second of two steps raises problems, and it does so in its place anywhere. -/
theorem last [Tame action] (goesOn : ∀ value after, InPlace (next value) setting after) :
    InPlace (action >>= next) setting state := tame.step goesOn

/-- What comes after a step depends on no more than the start of the current token. -/
theorem along (begins : InPlace action setting state) [anchored : Anchored action]
    (goesOn : ∀ value after, after.start = state.start →
      InPlace (next value) setting after) :
    InPlace (action >>= next) setting state :=
  begins.bind fun value after ends => goesOn value after (anchored.anchored _ _ _ _ ends)

theorem ite {condition : Prop} [Decidable condition]
    (holds : condition → InPlace first setting state)
    (fails : ¬condition → InPlace second setting state) :
    InPlace (if condition then first else second) setting state := by
  split
  · exact holds ‹_›
  · exact fails ‹_›

/-- A step that is taken under a condition, after which the reading goes on alike. -/
theorem guard {condition : Prop} [Decidable condition] {check : Scan PUnit}
    {next : PUnit → Scan β} (checks : condition → InPlace check setting state)
    (goesOn : ∀ value after, InPlace (next value) setting after) :
    InPlace (if condition then check >>= next else next ⟨⟩) setting state :=
  ite (fun known => (checks known).step goesOn) fun _ => goesOn _ _

/-- A problem that is raised at a seam is in its place. -/
theorem raise {pos : Nat} {problem : Problem} (seam : setting.source.Seam pos) :
    InPlace (Lexer.raise pos problem : Scan α) setting state :=
  .after (gives_source.mpr ⟨fun _ => fails_throw ⟨⟨seam, rfl⟩, nofun⟩, fun _ => gives_throw.mpr trivial⟩)

/-- What would follow a problem is never reached. -/
theorem raised {pos : Nat} {problem : Problem} {next : α → Scan β}
    (seam : setting.source.Seam pos) :
    InPlace (Lexer.raise pos problem >>= next) setting state := by
  refine (raise seam).bind ?_
  rintro _ _ ⟨⟩

theorem onGet {next : State → Scan β} (goesOn : InPlace (next state) setting state) :
    InPlace (get >>= next) setting state := .after (gives_get.mpr goesOn)

theorem onRead {next : Setting → Scan β} (goesOn : InPlace (next setting) setting state) :
    InPlace (read >>= next) setting state := .after (gives_read.mpr goesOn)

/-- What is noted in a step is no escape. -/
theorem note {change : State → State} {next : PUnit → Scan β}
    (remembers : state.Remembers (change state))
    (goesOn : InPlace (next ⟨⟩) setting (change state)) :
    InPlace (modify change >>= next) setting state where
  fails placed := by
    refine .bind (.never ⟨_, _, rfl⟩) (gives_modify.mpr ?_)
    exact goesOn.fails (remembers.octalPlaced placed)
  octal placed := Gives.bind_iff.mpr (gives_modify.mpr (goesOn.octal (remembers.octalPlaced placed)))

theorem onSource {next : Source → Scan β}
    (goesOn : InPlace (next setting.source) setting state) :
    InPlace (source >>= next) setting state := .after (gives_source.mpr goesOn)

/-- The position of the cursor is taken where it stays. -/
theorem onPosition {next : Position → Scan β}
    (goesOn : ∀ {loc}, InPlace (next loc) setting state) :
    InPlace (position >>= next) setting state := by
  refine after ?_
  simp only [position, Gives.bind_iff, gives_get]
  exact gives_ite (fun _ => gives_pure.mpr goesOn) fun _ => gives_throw.mpr trivial

theorem onPeek {ahead : Nat} {next : Option Char → Scan β}
    (goesOn : InPlace (next (setting.source.charAt? (state.pos + ahead))) setting state) :
    InPlace (peek ahead >>= next) setting state := .after (gives_peek.mpr goesOn)

theorem onPeekIs {ahead : Nat} {character : Char} {next : Bool → Scan β}
    (goesOn : InPlace (next (setting.source.charAt? (state.pos + ahead) == some character))
      setting state) : InPlace (peekIs ahead character >>= next) setting state :=
  .after (gives_peekIs.mpr goesOn)

theorem onAdvance {count : Nat} {next : Unit → Scan β}
    (goesOn : InPlace (next ()) setting { state with pos := state.pos + count }) :
    InPlace (advance count >>= next) setting state := .after (gives_modify.mpr goesOn)

theorem onSlice {start stop : Nat} {next : List Char → Scan β}
    (goesOn : ∀ text, InPlace (next text) setting state) :
    InPlace (slice start stop >>= next) setting state := by
  refine .after fun text after sliced => ?_
  have still := slice_still start stop setting state
  rw [sliced] at still
  exact (show after = state from still) ▸ goesOn text

theorem onSliceFrom {start : Nat} {next : List Char → Scan β}
    (goesOn : ∀ text, InPlace (next text) setting state) :
    InPlace (sliceFrom start >>= next) setting state := by
  rw [sliceFrom, bind_assoc]
  exact onGet (onSlice goesOn)

theorem onCheckRest {start : Nat} {next : Unit → Scan β}
    (goesOn : InPlace (next ()) setting state) :
    InPlace (checkRest start >>= next) setting state := by
  refine after ?_
  simp only [checkRest, Gives.bind_iff, gives_source]
  exact gives_ite (fun _ => gives_throw.mpr trivial) fun _ => gives_pure.mpr goesOn

theorem onBehind {count : Nat} {next : Nat → Scan β}
    (goesOn : InPlace (next (state.pos - count)) setting state) :
    InPlace (behind count >>= next) setting state := by
  refine after ?_
  simp only [behind, Gives.bind_iff, gives_get]
  exact gives_ite (fun _ => gives_pure.mpr goesOn) fun _ => gives_throw.mpr trivial

end InPlace

section Seams

variable {source : Source} {offset : Nat} {character : Char}

/-- A text can be parted before and after a character that ends no line. -/
theorem seam_before (found : source.charAt? offset = some character)
    (inside : Blank.isLineBreak character = false) : source.Seam offset := by
  refine .before found ?_
  rintro rfl
  exact absurd inside (by decide)

/-- After a character of one byte that is part of no line terminator the text can be parted. -/
theorem seam_past (found : source.charAt? offset = some character) (narrow : Narrow character) :
    source.Seam (offset + 1) := by
  refine narrow.2 ▸ Source.Seam.after found ?_
  rintro rfl
  exact absurd narrow.1 (by decide)

end Seams

section Escapes

theorem readHex_inPlace {count : Nat} (here : setting.source.Seam state.pos) :
    InPlace (readHex count) setting state :=
  .after (gives_source.mpr (.onGet (.last fun _ _ => .ite (fun _ => .tame) fun _ => .raise here)))

theorem readCodePoint_inPlace (here : setting.source.Seam state.pos) :
    InPlace readCodePoint setting state := by
  refine .onPeekIs (.ite (fun opens => ?_) fun _ => readHex_inPlace here)
  rw [beq_iff_eq] at opens
  have next := seam_past opens (by decide)
  refine .onAdvance (.onGet (.onCheckRest (.onSource (.ite (fun _ => ?_) fun _ => .raise next))))
  exact (readHex_inPlace next).step fun _ _ => .last fun _ _ =>
    .guard (fun _ => .raise next) fun _ _ => .tame

theorem readWordEscape_inPlace {first : Bool}
    (opens : setting.source.charAt? state.pos = some '\\') :
    InPlace (readWordEscape first) setting state := by
  have start := seam_before opens (by decide)
  have next := seam_past opens (by decide)
  refine .note (.inl rfl) (.onGet (.onAdvance (.onPeekIs ?_)))
  refine .ite (fun _ => .onGet (.raised next)) fun marked => ?_
  simp only [Bool.not_eq_true', Bool.not_eq_false, beq_iff_eq, Nat.add_zero] at marked
  refine .onAdvance ((readCodePoint_inPlace (seam_past marked (by decide))).step fun _ _ => ?_)
  split
  · exact .ite (fun _ => .tame) fun _ => .raise start
  · exact .raise start

theorem gatherWord_inPlace (count : Nat) {first : Bool} {chunk : Nat} {gathered : List Char} :
    InPlace (gatherWord count first chunk gathered) setting state := by
  induction count generalizing state first chunk gathered with
  | zero => exact .onSliceFrom fun _ => .tame
  | succ count inductionHypothesis =>
      refine .onPeek ?_
      rw [Nat.add_zero]
      split
      · exact .tame
      · next character found =>
          refine .ite (fun _ => .last fun _ _ => inductionHypothesis) fun _ => ?_
          refine .ite (fun opens => ?_) fun _ => .tame
          obtain rfl := beq_iff_eq.mp opens
          refine .onSliceFrom fun _ => (readWordEscape_inPlace found).step fun _ _ => ?_
          exact .last fun _ _ => inductionHypothesis

theorem readWordText_inPlace : InPlace readWordText setting state :=
  .note (.inl rfl) <| .last fun _ _ => .last fun _ _ => (gatherWord_inPlace _).begin

theorem readWord_inPlace : InPlace readWord setting state :=
  readWordText_inPlace.step fun _ _ => .tame

theorem octalDigits_still {start : Nat} :
    Gives (octalDigits start) setting state fun _ after => after = state := by
  have still (start stop : Nat) :
      Gives (slice start stop) setting state fun _ after => after = state := by
    intro text after sliced
    have same := slice_still start stop setting state
    rwa [sliced] at same
  simp only [octalDigits, Gives.bind_iff, gives_source]
  refine (still _ _).mono ?_
  rintro digits _ rfl
  exact gives_ite (fun _ => still _ _) fun _ => gives_pure.mpr rfl

theorem readOctal_inPlace {inTemplate : Bool} (escape : setting.source.Seam (state.pos - 2)) :
    InPlace (readOctal inTemplate) setting state := by
  refine .onBehind (.after (octalDigits_still.mono ?_))
  rintro digits _ rfl
  refine .ite (fun _ => .onBehind (InPlace.step ?_ fun _ _ => .onGet ?_)) fun _ => .tame
  · refine ⟨fun _ => .never ⟨_, _, rfl⟩, fun placed => gives_modify.mpr ?_⟩
    split
    · exact placed
    · rintro _ ⟨⟩
      exact escape
  · exact .ite (fun _ => .raised escape) fun _ => .tame

theorem readEscape_inPlace {inTemplate : Bool}
    (opens : setting.source.charAt? state.pos = some '\\') :
    InPlace (readEscape inTemplate) setting state := by
  refine .onAdvance (.onPeek ?_)
  rw [Nat.add_zero]
  split
  · exact .tame
  · next character found =>
      refine .onAdvance ?_
      split
      · exact .tame
      · exact .tame
      · exact (readHex_inPlace (.after found (by decide))).begin
      · exact (readCodePoint_inPlace (.after found (by decide))).begin
      · exact .tame
      · exact .tame
      · exact .tame
      · exact .tame
      · exact .tame
      · exact .tame
      · refine .ite (fun octal => readOctal_inPlace ?_) fun _ => .tame
        have narrow := (Digit.inside octal).2.2
        rw [narrow]
        exact seam_before opens (by decide)

end Escapes

section Numbers

theorem checkNumberEnds_inPlace : InPlace checkNumberEnds setting state := by
  refine .onPeek (.ite (fun begins => .onGet (.raise ?_)) fun _ => .tame)
  rw [Option.any_eq_true] at begins
  obtain ⟨character, found, start⟩ := begins
  exact seam_before found (Identifier.inside (Identifier.isPart_of_isStart start))

theorem readRadixNumber_inPlace {radix : Nat} (here : setting.source.Seam (state.start + 2)) :
    InPlace (readRadixNumber radix) setting state := by
  refine .onAdvance (.after fun digits middle passed => ?_)
  have start : middle.start = state.start := (Anchored.anchored setting _ _ _ passed :)
  refine .ite (fun _ => .onGet (.raised (start ▸ here))) fun _ => ?_
  exact checkNumberEnds_inPlace.begin

theorem readExponent_inPlace {start : Nat} (begins : setting.source.Seam start) :
    InPlace (readExponent start) setting state := by
  have digits (negative : Bool) (state : State) : InPlace (do
      let digits ← passDigits 10
      if digits.isEmpty then raise start .invalidNumber
      return some (negative, digits)) setting state :=
    .last fun _ _ => .ite (fun _ => .raised begins) fun _ => .tame
  refine .last fun _ _ => .last fun _ _ => .ite (fun _ => ?_) fun _ => .tame
  refine .last fun _ _ => .last fun negative _ => .last fun _ _ => ?_
  exact .ite (fun _ => .last fun _ _ => digits negative _) fun _ => digits negative _

theorem numberRest_inPlace {start : Nat} {integer : List Char}
    (begins : setting.source.Seam start) : InPlace (numberRest start integer) setting state := by
  refine .last fun _ _ => (readExponent_inPlace begins).step fun _ _ => ?_
  refine checkNumberEnds_inPlace.step fun _ _ => .last fun _ _ => .ite (fun _ => ?_) fun _ => ?_
  · split
    exact .tame
  · exact .onGet (.ite (fun _ => .raise begins) fun _ => .tame)

theorem readNumber_inPlace {startsWithDot : Bool} (here : setting.source.Seam state.pos) :
    InPlace (readNumber startsWithDot) setting state := by
  have rest (integer : List Char) (after : State) : InPlace (do
      if !startsWithDot && integer.isEmpty then raise state.pos .invalidNumber
      numberRest state.pos integer) setting after :=
    .ite (fun _ => .raised here) fun _ => numberRest_inPlace here
  exact .onGet (.ite (fun _ => .last fun _ _ => rest _ _) fun _ => .last fun _ _ => rest _ _)

end Numbers

section Quotes

theorem readRegExp_inPlace (here : setting.source.Seam state.pos) :
    InPlace readRegExp setting state := by
  refine .onGet (.last fun source after => .last fun _ _ => .last fun _ _ =>
    .ite (fun _ => ?_) fun _ => .raise here)
  refine .last fun _ _ => .last fun _ _ => readWordText_inPlace.step fun _ _ => ?_
  exact .ite (fun _ => .tame) fun _ => .raise here

theorem gatherString_inPlace (quote : Char) (count : Nat) {chunk : Nat} {gathered : List Char}
    (start : setting.source.Seam state.start) :
    InPlace (gatherString quote count chunk gathered) setting state := by
  induction count generalizing state chunk gathered with
  | zero => exact .onGet (.raise start)
  | succ count inductionHypothesis =>
      refine .onPeek ?_
      rw [Nat.add_zero]
      split
      · exact .onGet (.raise start)
      · next character found =>
          refine .ite (fun _ => .tame) fun _ => .ite (fun opens => ?_) fun _ => ?_
          · obtain rfl := beq_iff_eq.mp opens
            refine .onSliceFrom fun _ => (readEscape_inPlace found).along fun _ _ same => ?_
            exact .onGet (inductionHypothesis (same ▸ start))
          · exact .ite (fun _ => .onGet (.raise start)) fun _ =>
              .onAdvance (inductionHypothesis start)

theorem gatherChunk_inPlace (count : Nat) {chunk : Nat} {gathered : List Char}
    (start : setting.source.Seam state.start) :
    InPlace (gatherChunk count chunk gathered) setting state := by
  induction count generalizing state chunk gathered with
  | zero => exact .onGet (.raise start)
  | succ count inductionHypothesis =>
      refine .onPeek ?_
      rw [Nat.add_zero]
      split
      · exact .onGet (.raise start)
      · next character found =>
          refine .after ?_
          simp only [atSubstitution, Gives.bind_iff, gives_peekIs, gives_pure]
          refine .ite (fun _ => .tame) fun _ => .ite (fun opens => ?_) fun _ => ?_
          · obtain rfl := beq_iff_eq.mp opens
            refine .onSliceFrom fun _ => (readEscape_inPlace found).along fun _ _ same => ?_
            exact .onGet (inductionHypothesis (same ▸ start))
          · refine .ite (fun _ => ?_) fun _ => .onAdvance (inductionHypothesis start)
            exact .onSliceFrom fun _ => .along .tame fun _ _ same =>
              .onGet (inductionHypothesis (same ▸ start))

theorem readString_inPlace {quote : Char} (start : setting.source.Seam state.start) :
    InPlace (readString quote) setting state :=
  .onAdvance (.along .tame fun _ _ same => .onGet
    ((gatherString_inPlace quote _ (same ▸ start)).begin))

theorem readTemplate_inPlace (start : setting.source.Seam state.start) :
    InPlace readTemplate setting state := by
  refine .onGet (.after ?_)
  simp only [atSubstitution, Gives.bind_iff, gives_peekIs, gives_pure]
  refine .ite (fun _ => .tame) fun _ => .onPeekIs (.ite (fun _ => .tame) fun _ => ?_)
  exact .along .tame fun _ _ same => .onGet ((gatherChunk_inPlace _ (same ▸ start)).begin)

end Quotes

section Spaces

theorem passBlockComment_inPlace (opens : setting.source.charAt? state.pos = some '/') :
    InPlace passBlockComment setting state := by
  refine .onPosition (.onGet (.onSource (.ite (fun _ => ?_) fun _ => ?_)))
  · exact InPlace.tame.bind (by rintro _ _ ⟨⟩)
  dsimp only
  split
  · exact .raise (seam_before opens (by decide))
  · refine .last fun _ _ => .last fun _ _ => .ite (fun _ => ?_) fun _ => .tame
    exact .note (.inl rfl) .tame

theorem passBlanks_inPlace (count : Nat) : InPlace (passBlanks count) setting state := by
  induction count generalizing state with
  | zero => exact (InPlace.tame : InPlace (pure ()) setting state)
  | succ count inductionHypothesis =>
      refine .onPeek ?_
      rw [Nat.add_zero]
      split
      · exact .tame
      · next character found =>
          refine .ite (fun _ => .last fun _ _ => inductionHypothesis) fun _ => ?_
          refine .ite (fun _ => .last fun _ _ => inductionHypothesis) fun _ => ?_
          refine .ite (fun opens => .onPeek ?_) fun _ => .tame
          obtain rfl := beq_iff_eq.mp opens
          split
          · exact (passBlockComment_inPlace found).step fun _ _ => inductionHypothesis
          · exact .last fun _ _ => inductionHypothesis
          · exact .tame

theorem skipSpace_inPlace : InPlace skipSpace setting state :=
  .last fun _ _ => passBlanks_inPlace _

theorem skipShebang_inPlace : InPlace skipShebang setting state := by
  refine .last fun _ _ => .last fun _ _ => ?_
  exact .ite (fun _ => .tame) fun _ => .tame

end Spaces

section Markup

theorem gatherMarkup_inPlace (count : Nat) {chunk : Nat} {gathered : List Char}
    (start : setting.source.Seam state.start) :
    InPlace (gatherMarkup count chunk gathered) setting state := by
  induction count generalizing state chunk gathered with
  | zero => exact .onGet (.raise start)
  | succ count inductionHypothesis =>
      refine .onPeek ?_
      rw [Nat.add_zero]
      split
      · exact .onGet (.raise start)
      · next character found =>
          have goesOn {after : State} (same : after.start = state.start) {chunk : Nat}
              {gathered : List Char} :
              InPlace (gatherMarkup count chunk gathered) setting after :=
            inductionHypothesis (same ▸ start)
          refine .ite (fun _ => .tame) fun _ =>
            .ite (fun _ => ?_) fun _ => .ite (fun _ => ?_) fun _ => ?_
          · exact .onSliceFrom fun _ => .along .tame fun _ _ same => .onGet (goesOn same)
          · exact .onSliceFrom fun _ => .along .tame fun _ _ same => .onGet (goesOn same)
          · exact .onAdvance (inductionHypothesis start)

theorem gatherAttribute_inPlace (quote : Char) (count : Nat) {chunk : Nat} {gathered : List Char}
    (start : setting.source.Seam state.start) :
    InPlace (gatherAttribute quote count chunk gathered) setting state := by
  induction count generalizing state chunk gathered with
  | zero => exact .onGet (.raise start)
  | succ count inductionHypothesis =>
      refine .onPeek ?_
      rw [Nat.add_zero]
      split
      · exact .onGet (.raise start)
      · next character found =>
          have goesOn {after : State} (same : after.start = state.start) {chunk : Nat}
              {gathered : List Char} :
              InPlace (gatherAttribute quote count chunk gathered) setting after :=
            inductionHypothesis (same ▸ start)
          refine .ite (fun _ => .tame) fun _ =>
            .ite (fun _ => ?_) fun _ => .ite (fun _ => ?_) fun _ => ?_
          · exact .onSliceFrom fun _ => .along .tame fun _ _ same => .onGet (goesOn same)
          · exact .onSliceFrom fun _ => .along .tame fun _ _ same => .onGet (goesOn same)
          · exact .onAdvance (inductionHypothesis start)

theorem readAttributeText_inPlace {quote : Char} (start : setting.source.Seam state.start) :
    InPlace (readAttributeText quote) setting state :=
  .onAdvance (.along .tame fun _ _ same => .onGet
    ((gatherAttribute_inPlace quote _ (same ▸ start)).begin))

end Markup

section Marks

variable {character : Char} {resume : Scan Unit}

theorem readDot_inPlace (here : setting.source.Seam state.pos) :
    InPlace readDot setting state :=
  .onPeek (.ite (fun _ => readNumber_inPlace here) fun _ => .tame)

theorem readSlash_inPlace (opens : setting.source.charAt? state.pos = some '/') :
    InPlace readSlash setting state :=
  .onGet (.ite (fun _ => .onAdvance (readRegExp_inPlace (seam_past opens (by decide))))
    fun _ => .tame)

theorem readZero_inPlace (started : state.start = state.pos)
    (opens : setting.source.charAt? state.pos = some '0') :
    InPlace readZero setting state := by
  have radix {letter : Char} (found : setting.source.charAt? (state.pos + 1) = some letter)
      (narrow : Narrow letter) {radix : Nat} :
      InPlace (readRadixNumber radix) setting state :=
    readRadixNumber_inPlace (started ▸ seam_past found narrow)
  refine .onPeek ?_
  split
  · next found => exact radix found (by decide)
  · next found => exact radix found (by decide)
  · next found => exact radix found (by decide)
  · next found => exact radix found (by decide)
  · next found => exact radix found (by decide)
  · next found => exact radix found (by decide)
  · exact readNumber_inPlace (seam_before opens (by decide))

/-- The reading that goes on after a comment of markup raises its problems in their places. -/
def ResumesInPlace (setting : Setting) (state : State) (resume : Scan Unit) : Prop :=
  ∀ middle, Skips setting.source state middle → state.pos < middle.pos →
    InPlace resume setting middle

theorem passMarkupComment_inPlace {opening : Nat} {mark : List Char}
    (begun : Begun setting.source state) (resumes : ResumesInPlace setting state resume)
    (positive : 0 < opening)
    (marked : Plain setting.source mark state.pos (state.pos + opening)) :
    InPlace (passMarkupComment opening resume) setting state := by
  refine .after fun _ middle passed => ?_
  obtain ⟨skip, ahead⟩ := (passLineComment_meets begun.cursor positive marked).of_ok passed
  refine skipSpace_inPlace.bind fun _ after skipped => ?_
  have skips := (skipSpace_meets (skip.sound begun.cursor)).of_ok skipped
  refine resumes after (.step skip skips) ?_
  have := skips.le
  omega

theorem readPlusMinus_inPlace (begun : Begun setting.source state)
    (found : setting.source.charAt? state.pos = some character) (narrow : Narrow character)
    (resumes : ResumesInPlace setting state resume) :
    InPlace (readPlusMinus character resume) setting state := by
  refine .onPeekIs (.ite (fun again => .onGet (.onPeekIs ?_)) fun _ => .tame)
  refine .after fun breaks after looked => ?_
  have still := breaksBetween_still state.lastStop state.pos setting state
  rw [looked] at still
  obtain rfl : after = state := still
  refine .ite (fun closes => ?_) fun _ => .tame
  simp only [Bool.and_eq_true] at closes
  have two := (Plain.single found narrow).push begun.here again narrow
  exact passMarkupComment_inPlace begun resumes (by decide)
    (two.push begun.here closes.1.2 (by decide))

theorem readAngle_inPlace (begun : Begun setting.source state)
    (started : state.start = state.pos)
    (found : setting.source.charAt? state.pos = some character) (narrow : Narrow character)
    (resumes : ResumesInPlace setting state resume) :
    InPlace (readAngle character resume) setting state := by
  have start := started ▸ seam_before found narrow.1
  refine .onPeekIs (.ite (fun _ => .last fun _ _ => .tame) fun _ => ?_)
  refine .onPeekIs (.onPeekIs (.onPeekIs (.ite (fun opens => ?_) fun _ => .tame)))
  refine .onRead (.ite (fun _ => .onGet (.raise start)) fun _ => ?_)
  simp only [Bool.and_eq_true] at opens
  have one := Plain.single found narrow
  exact passMarkupComment_inPlace begun resumes (by decide)
    (((one.push begun.here opens.1.1.2 (by decide)).push begun.here opens.1.2
      (by decide)).push begun.here opens.2 (by decide))

theorem readMark_inPlace (begun : Begun setting.source state)
    (started : state.start = state.pos) (here : setting.source.Seam state.pos)
    (found : setting.source.charAt? state.pos = some character)
    (resumes : ResumesInPlace setting state resume) :
    InPlace (readMark character resume) setting state := by
  have start := started ▸ here
  unfold readMark
  split
  · exact readDot_inPlace here
  · exact .tame
  · exact .tame
  · exact .tame
  · exact .tame
  · exact .tame
  · exact .tame
  · exact .tame
  · exact .tame
  · exact .tame
  · exact .tame
  · exact .tame
  · exact .tame
  · exact readZero_inPlace started found
  · exact readString_inPlace start
  · exact readString_inPlace start
  · exact readSlash_inPlace found
  · exact .tame
  · exact .tame
  · exact .tame
  · exact .tame
  · exact .tame
  · exact readPlusMinus_inPlace begun found (by decide) resumes
  · exact readPlusMinus_inPlace begun found (by decide) resumes
  · exact readAngle_inPlace begun started found (by decide) resumes
  · exact readAngle_inPlace begun started found (by decide) resumes
  · exact .tame
  · exact .tame
  · exact .tame
  · exact .ite (fun _ => readNumber_inPlace here) fun _ => .onGet (.raise here)

theorem readPlain_inPlace (begun : Begun setting.source state)
    (started : state.start = state.pos) (here : setting.source.Seam state.pos)
    (found : setting.source.charAt? state.pos = some character)
    (resumes : ResumesInPlace setting state resume) :
    InPlace (readPlain character resume) setting state :=
  .ite (fun _ => readWord_inPlace) fun _ => readMark_inPlace begun started here found resumes

theorem readMarkupText_inPlace (begun : Begun setting.source state)
    (started : state.start = state.pos) (here : setting.source.Seam state.pos)
    (found : setting.source.charAt? state.pos = some character)
    (resumes : ResumesInPlace setting state resume) :
    InPlace (readMarkupText character resume) setting state := by
  refine .onGet (.ite (fun _ => .tame) fun _ => .ite (fun _ => ?_) fun _ => ?_)
  · exact readMark_inPlace begun started here found resumes
  · exact .along .tame fun _ _ same => .onGet
      ((gatherMarkup_inPlace _ (same ▸ started ▸ here)).begin)

theorem readToken_inPlace (begun : Begun setting.source state)
    (started : state.start = state.pos) (here : setting.source.Seam state.pos)
    (found : setting.source.charAt? state.pos = some character)
    (resumes : ResumesInPlace setting state resume) :
    InPlace (readToken character resume) setting state := by
  have plain := readPlain_inPlace begun started here found resumes
  have markup : InPlace (readMarkup character resume) setting state := by
    refine .onGet (.ite (fun _ => ?_) fun _ => .ite (fun _ => .tame) fun _ =>
      .ite (fun _ => .tame) fun _ => .ite (fun _ => ?_) fun _ => .ite (fun _ => .tame) fun _ => plain)
    · exact readMarkupText_inPlace begun started here found resumes
    · exact readAttributeText_inPlace (started ▸ here)
  exact .onRead (.onGet (.ite (fun _ => .tame) fun _ => .ite (fun _ => markup) fun _ => plain))

end Marks

section Tokens

/-- A blank or a comment ends where the text can be parted. -/
theorem Skip.seam {source : Source} {first last : State} (skip : Skip source first last)
    (begins : source.Seam first.pos) : source.Seam last.pos := by
  cases skip with
  | blanks passes blank => exact passes.seam begins
  | comment isBlock value passes ahead =>
      rw [State.recordComment_pos]
      exact passes.seam begins
  | begins startLoc => exact begins

/-- Blanks and comments end where the text can be parted. -/
theorem Skips.seam {source : Source} {first last : State} (skips : Skips source first last)
    (begins : source.Seam first.pos) : source.Seam last.pos := by
  induction skips with
  | stay state => exact begins
  | step skip rest inductionHypothesis => exact inductionHypothesis (skip.seam begins)

theorem fetchToken_inPlace {context : Context} {resume : Scan Unit} (ready : Ready setting state)
    (here : setting.source.Seam state.pos) (resumes : ResumesInPlace setting state.begun resume) :
    InPlace (fetchToken context resume) setting state := by
  refine .after fun _ middle begins => ?_
  obtain rfl := (beginToken_meets ready).of_ok begins
  refine .onPeek ?_
  rw [Nat.add_zero]
  split
  · exact .tame
  · next character found =>
      refine .ite (fun _ => readTemplate_inPlace here) fun _ => ?_
      exact readToken_inPlace ready.begun rfl here found resumes

theorem nextTokenWithin_inPlace (count : Nat) (ready : Ready setting state)
    (here : setting.source.Seam state.pos) :
    InPlace (nextTokenWithin count) setting state := by
  induction count generalizing state with
  | zero => exact (InPlace.tame : InPlace (finishToken .eof .none) setting state)
  | succ count inductionHypothesis =>
      have fetches {middle : State} (skips : Skips setting.source state middle) :
          InPlace (fetchToken state.context (nextTokenWithin count)) setting middle := by
        have ready := ready.skips skips
        have here := skips.seam here
        refine fetchToken_inPlace ready here fun further rest _ => ?_
        have later : Skips setting.source middle further :=
          .step (.begins middle middle.position) rest
        exact inductionHypothesis (ready.skips later) (later.seam here)
      refine .onGet (.ite (fun _ => ?_) fun _ => fetches (.stay _))
      exact skipSpace_inPlace.bind fun _ middle skipped =>
        fetches ((skipSpace_meets ready.cursor).of_ok skipped)

theorem nextToken_inPlace (ready : Ready setting state) (here : setting.source.Seam state.pos) :
    InPlace nextToken setting state := by
  refine .after ?_
  simp only [remaining, Gives.bind_iff, gives_source, gives_get, gives_pure]
  exact nextTokenWithin_inPlace _ ready here

theorem next_inPlace (sound : state.Sound setting) (here : setting.source.Seam state.pos) :
    InPlace next setting state := by
  have ready := sound.ready
  refine .note (.inl ?_) (nextToken_inPlace ready ?_)
  · unfold State.recordToken
    split <;> rfl
  rwa [show state.recordToken.passToken.pos = state.pos by
    unfold State.recordToken
    split <;> rfl]

theorem eat_inPlace {kind : Kind} (sound : state.Sound setting)
    (here : setting.source.Seam state.pos) : InPlace (eat kind) setting state := by
  have looks : Tame (atKind kind) := inferInstanceAs (Tame (get >>= _))
  refine .after ?_
  simp only [atKind, Gives.bind_iff, gives_get, gives_pure]
  exact .ite (fun _ => (next_inPlace sound here).begin) fun _ => .tame

theorem lookahead_inPlace (recording : state.recording = true) (sound : state.Sound setting)
    (here : setting.source.Seam state.pos) : InPlace lookahead setting state where
  fails placed := by
    intro failure after failed
    rw [lookahead_eq setting recording] at failed
    split at failed
    · cases failed
    · next other last ends =>
        cases failed
        exact (next_inPlace sound here).fails placed _ _ ends
  octal placed := by
    intro ahead after ends
    rw [lookahead_eq setting recording] at ends
    split at ends <;> cases ends
    exact placed

theorem returnToLine_inPlace (count : Nat) : InPlace (returnToLine count) setting state := by
  induction count generalizing state with
  | zero => exact (InPlace.tame : InPlace (pure ()) setting state)
  | succ count inductionHypothesis =>
      have back (lineStart line : Nat) : InPlace (do
          set { state with lineStart := lineStart, line := line }
          returnToLine count) setting state :=
        InPlace.bind ⟨fun _ => .never ⟨_, _, rfl⟩, fun placed => gives_set.mpr placed⟩
          (gives_set.mpr inductionHypothesis)
      refine .onGet (.ite (fun _ => .onSource ?_) fun _ => .tame)
      refine .ite (fun _ => InPlace.tame.bind (by rintro _ _ ⟨⟩)) fun _ => ?_
      exact .ite (fun _ => InPlace.tame.bind (by rintro _ _ ⟨⟩)) fun _ => back _ _

theorem setStrict_inPlace {strict : Bool} (sound : state.Sound setting)
    (start : setting.source.Seam state.start) :
    InPlace (setStrict strict) setting state := by
  refine .note (.inl rfl) (.onGet (.ite (fun _ => ?_) fun _ => .tame))
  refine .onGet (.note (.inl rfl) (.onGet ((returnToLine_inPlace _).bind ?_)))
  intro _ after returned
  obtain ⟨lineStart, line, rfl, cursor⟩ :=
    returnToLine_gives _ sound.rewindable (Nat.le_refl _) _ _ returned
  exact nextToken_inPlace ⟨cursor, sound.previous, sound.ordered⟩ start

end Tokens

end Lexer

end EcmaSyntax
