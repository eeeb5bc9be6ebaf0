import EcmaSyntax.Lexer.Next
import EcmaSyntax.Proofs.Lexer.Mark

namespace EcmaSyntax

namespace Lexer

/-- What of a state blanks and comments leave as it is. -/
def State.essence (state : State) : State :=
  { state with
    pos := 0, lineStart := 0, line := 0, start := 0, startLoc := .origin
    containsOctal := false, octalPosition := none
    leading := [], trailing := [], entries := [], comments := [] }

/-- Passing a blank or a comment leaves alone what is known of the tokens. -/
theorem Skip.essence {source : Source} {first last : State} (skip : Skip source first last) :
    last.essence = first.essence := by
  cases skip with
  | blanks passes blank => rfl
  | comment isBlock value passes ahead =>
      unfold State.recordComment
      split <;> rfl
  | begins startLoc => rfl

/-- Passing blanks and comments leaves alone what is known of the tokens. -/
theorem Skips.essence {source : Source} {first last : State} (skips : Skips source first last) :
    last.essence = first.essence := by
  induction skips with
  | stay state => rfl
  | step skip rest inductionHypothesis => rw [inductionHypothesis, skip.essence]

theorem Skips.lastStop {source : Source} {first last : State} (skips : Skips source first last) :
    last.lastStop = first.lastStop := by
  show last.essence.lastStop = first.essence.lastStop
  rw [skips.essence]

theorem Skips.context {source : Source} {first last : State} (skips : Skips source first last) :
    last.context = first.context := by
  show last.essence.context = first.essence.context
  rw [skips.essence]

/-- A token starts at the cursor. -/
def State.begun (state : State) : State :=
  { state with
    containsOctal := false, octalPosition := none
    start := state.pos, startLoc := state.position }

/-- The token after a state has been fetched, or the end of the text. -/
inductive Fetches (setting : Setting) (first last : State) : Prop
  | token {middle : State} (skips : Skips setting.source first middle)
      (inside : middle.pos < setting.source.size) (reads : Reads setting middle.begun last)
  | ending {middle : State} (skips : Skips setting.source first middle)
      (atEnd : middle.pos = setting.source.size)
      (ends : Ends setting .eof [] 0 middle.begun last)

/-- The state after a token is sound: the token lies between boundaries up to the cursor, and
what its kind says about its start holds. -/
structure State.Sound (setting : Setting) (state : State) : Prop where
  cursor : state.cursor.Sound setting.source
  previous : setting.source.isBoundary state.lastStop = true
  boundary : setting.source.isBoundary state.start = true
  ordered : state.lastStop ≤ state.start
  within : state.start ≤ state.stop
  stops : state.stop = state.pos
  returns : state.kind = .num ∨ state.kind = .string → state.start < state.lineStart →
    setting.source.isBoundary (state.lineStart - 1) = true ∨
      (setting.jsx = true ∧ state.context = .jsxOpenTag)
  opens : state.kind = .num ∨ state.kind = .string →
    setting.source.literalAt state.start = true ∧ state.context ≠ .quoteTemplate ∧
      (setting.jsx = true → state.context ≠ .jsxExpression)
  atEnd : state.kind = .eof → state.start = setting.source.size
  filled : state.kind ≠ .eof → state.kind ≠ .template → state.start < state.stop
  cooked : state.token.Cooked setting.source

variable {setting : Setting} {first state last : State}

/-- A token ends between characters. -/
theorem State.Sound.closing (sound : state.Sound setting) :
    setting.source.isBoundary state.stop = true := by
  rw [sound.stops]
  exact sound.cursor.boundary

/-- A token may begin where the cursor is not within the previous token. -/
structure Ready (setting : Setting) (state : State) : Prop where
  cursor : state.cursor.Sound setting.source
  previous : setting.source.isBoundary state.lastStop = true
  ordered : state.lastStop ≤ state.pos

/-- A state that is ready for a token stays so when blanks are passed. -/
theorem Ready.skips (ready : Ready setting state) (skips : Skips setting.source state last) :
    Ready setting last := by
  refine ⟨skips.sound ready.cursor, ?_, ?_⟩
  · rw [skips.lastStop]
    exact ready.previous
  · rw [skips.lastStop]
    exact Nat.le_trans ready.ordered skips.le

theorem Ready.begun (ready : Ready setting state) : Begun setting.source state.begun :=
  ⟨ready.cursor, ready.previous, ready.cursor.boundary, ready.ordered, Nat.le_refl _⟩

/-- A state is ready for the next token once its own has been recorded. -/
theorem State.Sound.ready (sound : state.Sound setting) :
    Ready setting state.recordToken.passToken := by
  have cursor : state.recordToken.passToken.cursor = state.cursor := by
    unfold State.recordToken
    split <;> rfl
  have lastStop : state.recordToken.passToken.lastStop = state.stop := by
    unfold State.recordToken
    split <;> rfl
  refine ⟨cursor ▸ sound.cursor, lastStop ▸ sound.closing, ?_⟩
  rw [lastStop, sound.stops]
  exact Nat.le_of_eq (congrArg Cursor.pos cursor).symm

/-- A number or a string opens and closes nothing. -/
theorem nested_literal {markup block : Bool} {previous kind : Kind} {contexts : List Context}
    (literal : kind = .num ∨ kind = .string) :
    nested markup previous kind block contexts = contexts := by
  have plain : nestedPlain previous kind block contexts = contexts := by
    rcases literal with rfl | rfl <;> simp [nestedPlain]
  rcases literal with rfl | rfl <;> simp [nested, nestedMarkup, plain]

/-- A state is sound where a token ends, and where the token can be read again if it is a number or
a string. -/
theorem Ends.sound {kind : Kind} {text : List Char} {hidden : Nat} (ready : Ready setting state)
    (ends : Ends setting kind text hidden state.begun last)
    (returns : kind = .num ∨ kind = .string → Returns setting.source state.begun last ∨
      (setting.jsx = true ∧ state.context = .jsxOpenTag))
    (opens : kind = .num ∨ kind = .string → setting.source.literalAt state.pos = true ∧
      state.context ≠ .quoteTemplate ∧ (setting.jsx = true → state.context ≠ .jsxExpression))
    (atEnd : kind = .eof → state.pos = setting.source.size)
    (filled : kind ≠ .eof → kind ≠ .template → text ≠ [])
    (cooks : kind = .template → Cooks text last.value) : last.Sound setting := by
  have same := ends.kind_eq
  obtain ⟨middle, value, block, allowed, moved, rfl⟩ := ends
  have begun := ready.begun.moved moved
  have start : middle.start = state.pos := moved.start
  have context : kind = .num ∨ kind = .string →
      (middle.ended kind value (nested setting.jsx state.begun.kind kind block
        state.begun.contexts) allowed).context = state.context := by
    intro literal
    rw [nested_literal literal]
    rfl
  refine ⟨begun.cursor, begun.previous, begun.boundary, begun.ordered, begun.within, rfl, ?_, ?_,
    ?_, ?_, ?_⟩
  · intro literal late
    rcases returns literal with returns | inTag
    · rcases returns.starts with ⟨sameLine, -⟩ | ⟨ending, starts, -, boundary, -⟩
      · have ordered := ready.cursor.ordered
        change middle.lineStart = state.lineStart at sameLine
        change middle.start < middle.lineStart at late
        change state.lineStart ≤ state.pos at ordered
        omega
      · change middle.lineStart = ending + 1 at starts
        refine .inl ?_
        show setting.source.isBoundary (middle.lineStart - 1) = true
        rw [starts]
        exact boundary
    · rw [context literal]
      exact .inr inTag
  · intro literal
    rw [context literal]
    show setting.source.literalAt middle.start = true ∧ _
    rw [start]
    exact opens literal
  · intro ending
    show middle.start = _
    rw [start]
    exact atEnd ending
  · intro goesOn chunk
    show middle.start < middle.pos
    rw [start, moved.pos_eq]
    exact Nat.lt_add_of_pos_right (Source.byteLength_pos (filled goesOn chunk))
  · intro chunk between sliced
    change setting.source.slice? middle.start middle.pos = some between at sliced
    rw [start, show state.pos = state.begun.pos from rfl, moved.slice? ready.begun.here,
      Option.some.injEq] at sliced
    exact sliced ▸ cooks chunk

/-- A state is sound after each token that has a text. -/
theorem Reads.sound (ready : Ready setting state) (reads : Reads setting state.begun last) :
    last.Sound setting := by
  obtain ⟨text, hidden, ends, fits⟩ := reads
  refine ends.sound ready fits.returns ?_ (fun ending => absurd ending fits.goesOn)
    (fun _ chunk empty => chunk (fits.filled empty).1) fits.cooks
  intro literal
  obtain ⟨opens, beside⟩ := fits.opens literal
  exact ⟨opens, fits.outside literal, beside⟩

/-- A state is sound after a token that has been fetched. -/
theorem Fetches.sound (ready : Ready setting first) (fetches : Fetches setting first last) :
    last.Sound setting := by
  cases fetches with
  | token skips inside reads => exact reads.sound (ready.skips skips)
  | ending skips atEnd ends =>
      refine ends.sound (ready.skips skips) ?_ ?_ (fun _ => atEnd)
        (fun goesOn => absurd rfl goesOn) nofun
      · intro literal
        exact absurd literal (by decide)
      · intro literal
        exact absurd literal (by decide)

/-- A token begins at the cursor. -/
theorem beginToken_meets (ready : Ready setting state) :
    Meets beginToken setting state fun _ after => after = state.begun := by
  simp only [beginToken, Meets.bind_iff, meets_position, meets_modify]
  exact ⟨ready.cursor.ordered, rfl⟩

/-- With enough comments of markup allowed for, the token after a state is what is wanted, if it
is so when it is read after blanks and comments and the reading may go on. -/
theorem nextTokenWithin_wanted {wanted : State → Prop} (count : Nat) (ready : Ready setting state)
    (enough : setting.source.size - state.pos < count)
    (fetched : ∀ middle resume, Skips setting.source state middle → Ready setting middle →
      Resumes setting middle.begun resume wanted →
      Meets (fetchToken state.context resume) setting middle fun _ last => wanted last) :
    Meets (nextTokenWithin count) setting state fun _ last => wanted last := by
  induction count generalizing state with
  | zero => omega
  | succ count inductionHypothesis =>
      have begins : ∀ middle, Skips setting.source state middle →
          Meets (fetchToken state.context (nextTokenWithin count)) setting middle
            fun _ last => wanted last := by
        intro middle skips
        refine fetched middle _ skips (ready.skips skips) fun further rest ahead => ?_
        change middle.pos < further.pos at ahead
        have whole : Skips setting.source state further :=
          skips.trans (.step (.begins middle middle.position) rest)
        have le := skips.le
        have bound : further.pos ≤ setting.source.size :=
          Source.le_size_of_isBoundary (ready.skips whole).cursor.boundary
        refine inductionHypothesis (ready.skips whole) (by omega) fun last resume later => ?_
        rw [whole.context]
        exact fetched last resume (whole.trans later)
      rw [nextTokenWithin, Meets.bind_iff, meets_get]
      apply meets_ite
      · intro _
        exact (skipSpace_meets ready.cursor).bind fun _ middle skips => begins middle skips
      · intro _
        exact begins state (.stay _)

/-- What is read at the cursor is the end of the text or a token. -/
theorem fetchToken_meets {wanted : State → Prop} {resume : Scan Unit} (ready : Ready setting state)
    (resumes : Resumes setting state.begun resume wanted)
    (ending : ∀ last, state.pos = setting.source.size → Ends setting .eof [] 0 state.begun last →
      wanted last)
    (reads : ∀ last, state.pos < setting.source.size → Reads setting state.begun last →
      wanted last) :
    Meets (fetchToken state.context resume) setting state fun _ last => wanted last := by
  refine (beginToken_meets ready).bind ?_
  rintro _ _ rfl
  rw [Meets.bind_iff, meets_peek, Nat.add_zero]
  split
  · next absent =>
      refine (finish_meets ready.begun (.stay _ _)).mono fun _ last ends => ending last ?_ ends
      exact Source.eq_size_of_charAt?_eq_none ready.cursor.boundary absent
  · next character found =>
      have filled := Source.lt_size_of_charAt? found
      change state.pos < setting.source.size at filled
      apply meets_ite
      · intro inside
        rw [beq_iff_eq] at inside
        exact (readTemplate_meets ready.begun inside found).mono fun _ last => reads last filled
      · intro outside
        rw [beq_iff_eq] at outside
        exact readToken_meets ready.begun rfl outside found resumes fun last => reads last filled

/-- With enough comments of markup allowed for, the token after a state is fetched. -/
theorem nextTokenWithin_meets (count : Nat) (ready : Ready setting state)
    (enough : setting.source.size - state.pos < count) :
    Meets (nextTokenWithin count) setting state fun _ last => Fetches setting state last := by
  refine nextTokenWithin_wanted count ready enough fun middle resume skips ready resumes => ?_
  rw [← skips.context]
  refine fetchToken_meets ready resumes ?_ ?_
  · exact fun _ atEnd ends => .ending skips atEnd ends
  · exact fun _ inside reads => .token skips inside reads

/-- A state that is ready leads to the next token, and to a sound state. -/
theorem nextToken_meets (ready : Ready setting state) :
    Meets nextToken setting state fun _ last =>
      Fetches setting state last ∧ last.Sound setting := by
  rw [nextToken, Meets.bind_iff, meets_remaining]
  refine (nextTokenWithin_meets _ ready (Nat.lt_succ_self _)).mono ?_
  intro _ last fetches
  exact ⟨fetches, fetches.sound ready⟩

/-- The current token is recorded and the one after it fetched. -/
def Advances (setting : Setting) (first last : State) : Prop :=
  Fetches setting first.recordToken.passToken last

/-- A sound state leads to the next token, and to a sound state. -/
theorem next_meets (sound : state.Sound setting) :
    Meets next setting state fun _ last => Advances setting state last ∧ last.Sound setting := by
  rw [next, Meets.bind_iff, meets_modify]
  exact nextToken_meets sound.ready

section Lines

theorem lastLineFeed_le (source : Source) (offset : Nat) : lastLineFeed source offset ≤ offset := by
  induction offset with
  | zero => exact Nat.le_refl 0
  | succ offset inductionHypothesis =>
      unfold lastLineFeed
      split
      · exact Nat.le_refl _
      · exact Nat.le_succ_of_le inductionHypothesis

/-- No line feed stands between the last one and an offset. -/
theorem lastLineFeed_clear (source : Source) (offset : Nat) :
    ∀ inner, lastLineFeed source offset ≤ inner → inner < offset →
      source.hasAt inner '\n' = false := by
  induction offset with
  | zero =>
      intro inner low high
      omega
  | succ offset inductionHypothesis =>
      intro inner low high
      unfold lastLineFeed at low
      split at low
      · omega
      · next other =>
          rcases Nat.lt_or_eq_of_le (Nat.le_of_lt_succ high) with before | rfl
          · exact inductionHypothesis inner low before
          · simpa using other

/-- The last line feed before an offset is one. -/
theorem hasAt_lastLineFeed {source : Source} {offset : Nat}
    (found : 0 < lastLineFeed source offset) :
    source.hasAt (lastLineFeed source offset - 1) '\n' = true := by
  induction offset with
  | zero => simp [lastLineFeed] at found
  | succ offset inductionHypothesis =>
      unfold lastLineFeed at found ⊢
      split
      · next here => exact here
      · next other =>
          rw [if_neg other] at found
          exact inductionHypothesis found

/-- There are no fewer line feeds before a later offset. -/
theorem feeds_mono {source : Source} {start stop : Nat} (ordered : start ≤ stop) :
    feeds source start ≤ feeds source stop := by
  induction stop with
  | zero => exact Nat.le_zero.mp ordered ▸ Nat.le_refl _
  | succ stop inductionHypothesis =>
      rcases Nat.lt_or_eq_of_le ordered with before | rfl
      · have := inductionHypothesis (Nat.le_of_lt_succ before)
        rw [feeds]
        omega
      · exact Nat.le_refl _

/-- The line feeds before an offset are the last one and those before it. -/
theorem feeds_lastLineFeed {source : Source} {offset : Nat}
    (found : 0 < lastLineFeed source offset) :
    feeds source offset = feeds source (lastLineFeed source offset - 1) + 1 := by
  have here := hasAt_lastLineFeed found
  rw [feeds_eq_of_clear (lastLineFeed_le source offset) (lastLineFeed_clear source offset)]
  obtain ⟨before, same⟩ : ∃ before, lastLineFeed source offset = before + 1 :=
    ⟨lastLineFeed source offset - 1, by omega⟩
  rw [same, Nat.add_sub_cancel] at here ⊢
  rw [feeds, if_pos here]

/-- A cursor that has moved back is on its line, or on one before it. -/
structure Rewindable (source : Source) (cursor : Cursor) : Prop where
  boundary : source.isBoundary cursor.pos = true
  clear : ∀ offset, cursor.lineStart ≤ offset → offset < cursor.pos →
    source.hasAt offset '\n' = false
  positive : 1 ≤ cursor.line
  enough : 0 < cursor.lineStart → feeds source (cursor.lineStart - 1) + 2 ≤ cursor.line

/-- Besides, it can find its line again. -/
structure Returnable (source : Source) (cursor : Cursor) : Prop
    extends Rewindable source cursor where
  before : cursor.pos < cursor.lineStart → source.isBoundary (cursor.lineStart - 1) = true

/-- A cursor is sound once it is known on which line it stands. -/
theorem Rewindable.sound {source : Source} {cursor : Cursor}
    (rewindable : Rewindable source cursor) (ordered : cursor.lineStart ≤ cursor.pos) :
    cursor.Sound source :=
  ⟨rewindable.boundary, ordered, rewindable.clear, rewindable.positive, rewindable.enough⟩

/-- The cursor goes back by one line. -/
theorem Rewindable.back {source : Source} {cursor : Cursor}
    (rewindable : Rewindable source cursor) (late : cursor.pos < cursor.lineStart) :
    Returnable source
      ⟨cursor.pos, lastLineFeed source (cursor.lineStart - 1), cursor.line - 1⟩ := by
  have lines := rewindable.enough (Nat.lt_of_le_of_lt (Nat.zero_le _) late)
  refine ⟨⟨rewindable.boundary, ?_, ?_, ?_⟩, ?_⟩
  · intro offset low high
    change offset < cursor.pos at high
    exact lastLineFeed_clear _ _ offset low (by omega)
  · change 1 ≤ cursor.line - 1
    omega
  · intro found
    have := feeds_lastLineFeed found
    change feeds source (lastLineFeed source (cursor.lineStart - 1) - 1) + 2 ≤ cursor.line - 1
    omega
  · intro later
    have found := hasAt_lastLineFeed (Nat.lt_of_le_of_lt (Nat.zero_le cursor.pos) later)
    exact Source.isBoundary_of_charAt? (Source.hasAt_iff.mp found)

/-- A state goes back to the line of its cursor. -/
def Backs (setting : Setting) (first last : State) : Prop :=
  ∃ lineStart line, last = { first with lineStart := lineStart, line := line } ∧
    last.cursor.Sound setting.source

/-- A reading that goes back to the start of a token goes back as many lines as it has passed. -/
theorem returnToLine_meets (count : Nat) (returnable : Returnable setting.source state.cursor)
    (enough : state.lineStart ≤ count) :
    Meets (returnToLine count) setting state fun _ after => Backs setting state after := by
  induction count generalizing state with
  | zero =>
      refine ⟨_, _, rfl, returnable.sound ?_⟩
      exact Nat.le_trans enough (Nat.zero_le _)
  | succ count inductionHypothesis =>
      rw [returnToLine, Meets.bind_iff, meets_get]
      apply meets_ite
      · intro late
        have boundary := returnable.before late
        have lines := returnable.enough (Nat.lt_of_le_of_lt (Nat.zero_le _) late)
        change setting.source.isBoundary (state.lineStart - 1) = true at boundary
        change feeds setting.source (state.lineStart - 1) + 2 ≤ state.line at lines
        rw [Meets.bind_iff, meets_source]
        apply meets_ite
        · intro missing
          simp [boundary] at missing
        intro _
        apply meets_ite
        · intro zero
          rw [beq_iff_eq] at zero
          omega
        intro _
        rw [Meets.bind_iff, meets_set]
        refine Meets.mono (inductionHypothesis (returnable.back late) ?_) ?_
        · have := lastLineFeed_le setting.source (state.lineStart - 1)
          change lastLineFeed setting.source (state.lineStart - 1) ≤ count
          omega
        · rintro _ after ⟨lineStart, line, rfl, sound⟩
          exact ⟨lineStart, line, rfl, sound⟩
      · intro here
        exact ⟨_, _, rfl, returnable.sound (Nat.le_of_not_lt here)⟩

/-- If the cursor finds its line, it is the right one. -/
theorem returnToLine_gives (count : Nat) (rewindable : Rewindable setting.source state.cursor)
    (enough : state.lineStart ≤ count) :
    Gives (returnToLine count) setting state fun _ after => Backs setting state after := by
  cases count with
  | zero =>
      refine gives_pure.mpr ⟨_, _, rfl, rewindable.sound ?_⟩
      exact Nat.le_trans enough (Nat.zero_le _)
  | succ count =>
      rw [returnToLine, Gives.bind_iff, gives_get]
      refine gives_ite (fun late => ?_) fun here =>
        gives_pure.mpr ⟨_, _, rfl, rewindable.sound (Nat.le_of_not_lt here)⟩
      rw [Gives.bind_iff]
      rintro _ _ ⟨⟩
      refine gives_ite (fun _ => fun _ _ absent => by cases absent) fun _ => ?_
      refine gives_ite (fun _ => fun _ _ absent => by cases absent) fun _ => ?_
      rw [Gives.bind_iff, gives_set]
      intro _ after ends
      have le := lastLineFeed_le setting.source (state.lineStart - 1)
      obtain ⟨lineStart, line, rfl, sound⟩ :=
        (returnToLine_meets count (rewindable.back late) (by
          change lastLineFeed setting.source (state.lineStart - 1) ≤ count
          omega)).of_ok ends
      exact ⟨lineStart, line, rfl, sound⟩

end Lines

section Strict

/-- What begins a number or a string begins no word and no tag, and is neither blank nor the
start of a comment. -/
structure OpensLiteral (character : Char) : Prop where
  narrow : Narrow character
  word : Identifier.isStart character = false
  blank : Blank.isBlank character = false
  other : character ≠ '\\' ∧ character ≠ '/' ∧ character ≠ '<' ∧ character ≠ '>'

theorem mem_digits {character : Char} (digit : Digit.isDigit 10 character = true) :
    character ∈ ['0', '1', '2', '3', '4', '5', '6', '7', '8', '9'] := by
  have range : '0' ≤ character ∧ character ≤ '9' := by
    rw [Digit.isDigit, Digit.value, Option.isSome_filter, Option.any_eq_true] at digit
    obtain ⟨value, known, small⟩ := digit
    rw [decide_eq_true_eq] at small
    unfold Digit.anyValue at known
    simp only [Bool.and_eq_true, decide_eq_true_eq] at known
    split at known
    · next inside => exact inside
    · split at known
      · have := Option.some.inj known
        omega
      · split at known
        · have := Option.some.inj known
          omega
        · simp at known
  have low : 48 ≤ character.toNat := range.1
  have high : character.toNat ≤ 57 := range.2
  rw [← Char.ofNat_toNat character]
  generalize character.toNat = code at low high
  rcases (by omega : code = 48 ∨ code = 49 ∨ code = 50 ∨ code = 51 ∨ code = 52 ∨ code = 53 ∨
    code = 54 ∨ code = 55 ∨ code = 56 ∨ code = 57) with
    rfl | rfl | rfl | rfl | rfl | rfl | rfl | rfl | rfl | rfl <;> decide

/-- The characters that numbers and strings begin with. -/
def literalMarks : List Char :=
  ['0', '1', '2', '3', '4', '5', '6', '7', '8', '9', '"', '\'', '.']

/-- Each character of a list begins a number or a string. -/
theorem opensLiteral_of_mem {character : Char} (known : character ∈ literalMarks) :
    OpensLiteral character := by
  simp only [literalMarks, List.mem_cons, List.not_mem_nil, or_false] at known
  rcases known with rfl | rfl | rfl | rfl | rfl | rfl | rfl | rfl | rfl | rfl | rfl | rfl | rfl
    <;> exact ⟨by decide, by decide, by decide, by decide⟩

/-- A number begins with a digit or a point, and a string with a quote. -/
theorem literalAt_cases {source : Source} {offset : Nat}
    (literal : source.literalAt offset = true) :
    ∃ character, source.charAt? offset = some character ∧
      (Digit.isDigit 10 character = true ∨ (character = '"' ∨ character = '\'') ∨
        (character = '.' ∧ (source.charAt? (offset + 1)).any (Digit.isDigit 10) = true)) := by
  rw [Source.literalAt, Bool.or_eq_true, Option.any_eq_true, Bool.and_eq_true,
    Source.hasAt_iff] at literal
  rcases literal with ⟨character, found, known⟩ | ⟨dot, digit⟩
  · refine ⟨character, found, ?_⟩
    simp only [Bool.or_eq_true, beq_iff_eq] at known
    rcases known with (digit | double) | single
    · exact .inl digit
    · exact .inr (.inl (.inl double))
    · exact .inr (.inl (.inr single))
  · exact ⟨'.', dot, .inr (.inr ⟨rfl, digit⟩)⟩

/-- What begins a number or a string is in the list. -/
theorem mem_literalMarks {source : Source} {offset : Nat} {character : Char}
    (literal : source.literalAt offset = true)
    (found : source.charAt? offset = some character) : character ∈ literalMarks := by
  obtain ⟨other, same, known⟩ := literalAt_cases literal
  rw [found, Option.some.injEq] at same
  subst same
  rcases known with digit | (rfl | rfl) | ⟨rfl, -⟩
  · exact List.mem_append_left ['"', '\'', '.'] (mem_digits digit)
  all_goals decide

/-- Where a number or a string stands, its character begins one. -/
theorem opensLiteral_of_literalAt {source : Source} {offset : Nat} {character : Char}
    (literal : source.literalAt offset = true)
    (found : source.charAt? offset = some character) : OpensLiteral character :=
  opensLiteral_of_mem (mem_literalMarks literal found)

/-- No blank and no comment stands before a number or a string. -/
theorem skipSpace_literal (literal : setting.source.literalAt state.pos = true) :
    Meets skipSpace setting state fun _ after => after = state := by
  obtain ⟨character, found, -⟩ := literalAt_cases literal
  have opens := opensLiteral_of_literalAt literal found
  have blank := opens.blank
  rw [Blank.isBlank, Bool.or_eq_false_iff] at blank
  rw [skipSpace, Meets.bind_iff, meets_remaining]
  cases setting.source.size - state.pos with
  | zero => rfl
  | succ count =>
      rw [passBlanks, Meets.bind_iff, meets_peek, Nat.add_zero, found]
      simp only
      rw [if_neg (by simp [blank.2]), if_neg (by simp [blank.1]), if_neg (by simp [opens.other])]
      rfl

/-- A number or a string has been read. -/
def ReadsLiteral (setting : Setting) (first last : State) : Prop :=
  Reads setting first last ∧ (last.kind = .num ∨ last.kind = .string)

/-- The character of a number or a string leads to a token of this kind. -/
theorem readMark_literal {character : Char} {resume : Scan Unit} (opens : Opens setting state)
    (found : setting.source.charAt? state.pos = some character) :
    Meets (readMark character resume) setting state fun _ last =>
      ReadsLiteral setting state last := by
  obtain ⟨other, same, known⟩ := literalAt_cases opens.literal
  rw [found, Option.some.injEq] at same
  subst same
  rcases known with digit | (rfl | rfl) | ⟨rfl, digit⟩
  · by_cases zero : character = '0'
    · subst zero
      exact (readZero_meets opens found).mono fun _ _ met => ⟨met.1, .inl met.2⟩
    · have number : readMark character resume = readNumber false := by
        have member := mem_digits digit
        simp only [List.mem_cons, zero, List.not_mem_nil, or_false, false_or] at member
        rcases member with rfl | rfl | rfl | rfl | rfl | rfl | rfl | rfl | rfl <;> rfl
      rw [number]
      exact (readNumber_meets opens (by simp)).mono fun _ _ met => ⟨met.1, .inl met.2⟩
  · exact (readString_meets opens found (by decide) (by decide)).mono
      fun _ _ met => ⟨met.1, .inr met.2⟩
  · exact (readString_meets opens found (by decide) (by decide)).mono
      fun _ _ met => ⟨met.1, .inr met.2⟩
  · change Meets readDot setting state _
    rw [readDot, Meets.bind_iff, meets_peek, if_pos digit]
    exact (readNumber_meets opens fun _ => Source.hasAt_iff.mpr found).mono
      fun _ _ met => ⟨met.1, .inl met.2⟩

/-- So it does whatever constructs are open. -/
theorem readToken_literal {character : Char} {resume : Scan Unit} (opens : Opens setting state)
    (found : setting.source.charAt? state.pos = some character) :
    Meets (readToken character resume) setting state fun _ last =>
      ReadsLiteral setting state last := by
  have first := opensLiteral_of_literalAt opens.literal found
  have plain : Meets (readPlain character resume) setting state
      fun _ last => ReadsLiteral setting state last := by
    rw [readPlain, if_neg (by simp [first.word, first.other.1])]
    exact readMark_literal opens found
  rw [readToken, Meets.bind_iff, meets_read, Meets.bind_iff, meets_get,
    if_neg (by simp [first.other])]
  apply meets_ite
  · intro markup
    have between := opens.beside markup
    rw [readMarkup, Meets.bind_iff, meets_get, if_neg (by simpa using between),
      if_neg (by simp [first.word]), if_neg (by simp [first.other])]
    apply meets_ite
    · intro quotes
      simp only [Bool.and_eq_true, beq_iff_eq] at quotes
      exact (readAttributeText_meets opens.begun markup quotes.2 found first.narrow
        opens.literal).mono fun _ _ met => ⟨met.1, .inr met.2⟩
    · intro _
      rw [if_neg (by simp [first.other])]
      exact plain
  · intro _
    exact plain

/-- A number or a string is fetched where it stands. -/
theorem fetchToken_literal {resume : Scan Unit} (ready : Ready setting state)
    (opens : Opens setting state.begun) :
    Meets (fetchToken state.context resume) setting state fun _ last =>
      ReadsLiteral setting state.begun last := by
  have literal : setting.source.literalAt state.pos = true := opens.literal
  obtain ⟨character, found, -⟩ := literalAt_cases literal
  refine (beginToken_meets ready).bind ?_
  rintro _ _ rfl
  have found : setting.source.charAt? (state.begun.pos + 0) = some character := found
  rw [Meets.bind_iff, meets_peek, found]
  simp only
  have outside : state.context ≠ .quoteTemplate := opens.outside
  rw [if_neg (by simpa using outside)]
  exact readToken_literal opens found

/-- A number or a string is the next token where it stands. -/
theorem nextToken_literal (ready : Ready setting state) (opens : Opens setting state.begun) :
    Meets nextToken setting state fun _ last => ReadsLiteral setting state.begun last := by
  have literal : setting.source.literalAt state.pos = true := opens.literal
  rw [nextToken, Meets.bind_iff, meets_remaining, nextTokenWithin, Meets.bind_iff, meets_get]
  apply meets_ite
  · intro _
    refine (skipSpace_literal literal).bind ?_
    rintro _ _ rfl
    exact fetchToken_literal ready opens
  · intro _
    exact fetchToken_literal ready opens

/-- The state in which strict code begins or ends, at the start of the token. -/
def State.restarted (state : State) (strict : Bool) (lineStart line : Nat) : State :=
  { state with strict := strict, pos := state.start, lineStart := lineStart, line := line }

/-- Strict code begins or ends; a number or a string has been read again. -/
def Restricts (setting : Setting) (strict : Bool) (first last : State) : Prop :=
  (¬(first.kind = .num ∨ first.kind = .string) ∧ last = { first with strict := strict }) ∨
    ((first.kind = .num ∨ first.kind = .string) ∧ ∃ lineStart line,
      ReadsLiteral setting (first.restarted strict lineStart line).begun last)

/-- The cursor is at the start of the current token of a sound state. -/
theorem State.Sound.rewindable (sound : state.Sound setting) :
    Rewindable setting.source ⟨state.start, state.lineStart, state.line⟩ := by
  have ordered : state.start ≤ state.pos := sound.stops ▸ sound.within
  refine ⟨sound.boundary, ?_, sound.cursor.positive, sound.cursor.enough⟩
  intro offset low high
  exact sound.cursor.clear offset low (Nat.lt_of_lt_of_le high ordered)

/-- A number or a string is read again. -/
theorem State.Sound.again {strict : Bool} {after : State} (sound : state.Sound setting)
    (literal : state.kind = .num ∨ state.kind = .string)
    (backs : Backs setting { state with strict := strict, pos := state.start } after) :
    Meets nextToken setting after fun _ last =>
      Restricts setting strict state last ∧ last.Sound setting := by
  obtain ⟨lineStart, line, rfl, cursor⟩ := backs
  have ready : Ready setting (state.restarted strict lineStart line) :=
    ⟨cursor, sound.previous, sound.ordered⟩
  obtain ⟨opens, outside, beside⟩ := sound.opens literal
  refine (nextToken_literal ready ⟨ready.begun, outside, beside, opens⟩).mono ?_
  intro _ last reads
  exact ⟨.inr ⟨literal, lineStart, line, reads⟩, reads.1.sound ready⟩

/-- Other tokens stay as they are. -/
theorem State.Sound.restricts {strict : Bool} (sound : state.Sound setting)
    (other : ¬(state.kind = .num ∨ state.kind = .string)) :
    Restricts setting strict state { state with strict := strict } ∧
      State.Sound setting { state with strict := strict } :=
  ⟨.inl ⟨other, rfl⟩, sound.cursor, sound.previous, sound.boundary, sound.ordered, sound.within,
    sound.stops, sound.returns, sound.opens, sound.atEnd, sound.filled, sound.cooked⟩

/-- Strict code may begin or end at any token; a number or a string is read again. -/
theorem setStrict_meets {strict : Bool} (sound : state.Sound setting)
    (calm : state.kind = .num ∨ state.kind = .string → setting.jsx = true →
      state.context ≠ .jsxOpenTag) :
    Meets (setStrict strict) setting state fun _ last =>
      Restricts setting strict state last ∧ last.Sound setting := by
  simp only [setStrict, Meets.bind_iff, meets_modify, meets_get, Bool.or_eq_true, beq_iff_eq]
  apply meets_ite
  · intro literal
    simp only [Meets.bind_iff, meets_get, meets_moveTo]
    refine Meets.mono (returnToLine_meets _ ⟨sound.rewindable, fun late => ?_⟩ (Nat.le_refl _))
      fun _ after backs => sound.again literal backs
    rcases sound.returns literal late with boundary | ⟨markup, inTag⟩
    · exact boundary
    · exact absurd inTag (calm literal markup)
  · exact sound.restricts

/-- If strict code begins or ends, the state after that is sound also in a tag. -/
theorem setStrict_gives {strict : Bool} (sound : state.Sound setting) :
    Gives (setStrict strict) setting state fun _ last =>
      Restricts setting strict state last ∧ last.Sound setting := by
  simp only [setStrict, Gives.bind_iff, gives_modify, gives_get, Bool.or_eq_true, beq_iff_eq]
  refine gives_ite (fun literal => ?_) fun other => gives_pure.mpr (sound.restricts other)
  simp only [Gives.bind_iff, gives_get]
  rintro _ _ ⟨⟩ _ after returned _ last read
  exact (sound.again literal (returnToLine_gives _ sound.rewindable (Nat.le_refl _) _ after
    returned)).of_ok read

end Strict

end Lexer

end EcmaSyntax
