import EcmaSyntax.Lexer.State
import EcmaSyntax.Proofs.Text.LineMap
import EcmaSyntax.Proofs.Text.Offset
import Mathlib.Data.Nat.Count

namespace EcmaSyntax

theorem Blank.isLineBreak_eq (character : Char) :
    isLineBreak character =
      (character == '\n' || character == '\r' || isSeparator character) := by
  simp [isLineBreak, isSeparator, Bool.or_assoc]

/-- The terminator that begins at an offset; a carriage return takes the line feed after it
with it. -/
def Source.terminatorAt? (source : Source) (offset : Nat) : Option (List Char) :=
  match source.charAt? offset with
  | none => none
  | some character =>
    if character == '\r' && source.hasAt (offset + 1) '\n' then some ['\r', '\n']
    else if Blank.isLineBreak character then some [character]
    else none

/-- A carriage return stands at an offset, and no line feed after it. -/
def Source.loneAt (source : Source) (offset : Nat) : Bool :=
  source.hasAt offset '\r' && !source.hasAt (offset + 1) '\n'

namespace Lexer

/-- A cursor stands at an offset, in a line that starts at an offset and has a number. -/
structure Cursor where
  pos : Nat
  lineStart : Nat
  line : Nat

/-- The cursor of a reading. -/
def State.cursor (state : State) : Cursor := ⟨state.pos, state.lineStart, state.line⟩

namespace Cursor

/-- The position of a cursor. -/
def position (cursor : Cursor) : Position := ⟨cursor.line, cursor.pos - cursor.lineStart⟩

/-- A cursor moves on within its line. -/
def forward (cursor : Cursor) (count : Nat) : Cursor :=
  { cursor with pos := cursor.pos + count }

/-- A cursor moves on to the start of the next line. -/
def newLine (cursor : Cursor) (count : Nat) : Cursor :=
  ⟨cursor.pos + count, cursor.pos + count, cursor.line + 1⟩

@[simp] theorem forward_pos (cursor : Cursor) (count : Nat) :
    (cursor.forward count).pos = cursor.pos + count := rfl

@[simp] theorem newLine_pos (cursor : Cursor) (count : Nat) :
    (cursor.newLine count).pos = cursor.pos + count := rfl

end Cursor

/-- A cursor passes over a text character by character and terminator by terminator. A
separator may be hidden from the count of lines; their number is kept. -/
inductive Passes (source : Source) : List Char → Nat → Cursor → Cursor → Prop
  | stay (cursor : Cursor) : Passes source [] 0 cursor cursor
  | character {character : Char} {text : List Char} {hidden : Nat} {cursor last : Cursor}
      (found : source.charAt? cursor.pos = some character)
      (inside : Blank.isLineBreak character = false)
      (rest : Passes source text hidden (cursor.forward character.utf8Size) last) :
      Passes source (character :: text) hidden cursor last
  | terminator {terminator text : List Char} {hidden : Nat} {cursor last : Cursor}
      (found : source.terminatorAt? cursor.pos = some terminator)
      (rest : Passes source text hidden (cursor.newLine (byteLength terminator)) last) :
      Passes source (terminator ++ text) hidden cursor last
  | hidden {character : Char} {text : List Char} {hidden : Nat} {cursor last : Cursor}
      (found : source.charAt? cursor.pos = some character)
      (separates : Blank.isSeparator character = true)
      (rest : Passes source text hidden (cursor.forward character.utf8Size) last) :
      Passes source (character :: text) (hidden + 1) cursor last

namespace Passes

variable {source : Source} {first second : List Char} {hidden later : Nat}
  {start middle last : Cursor}

theorem trans (begins : Passes source first hidden start middle)
    (ends : Passes source second later middle last) :
    Passes source (first ++ second) (hidden + later) start last := by
  induction begins with
  | stay cursor => simpa using ends
  | character found inside rest inductionHypothesis =>
      exact .character found inside (inductionHypothesis ends)
  | terminator found rest inductionHypothesis =>
      rw [List.append_assoc]
      exact .terminator found (inductionHypothesis ends)
  | hidden found separates rest inductionHypothesis =>
      rw [List.cons_append, Nat.add_right_comm]
      exact .hidden found separates (inductionHypothesis ends)

/-- One character that breaks no line is passed on the same line. -/
theorem one (start : Cursor) {character : Char}
    (found : source.charAt? start.pos = some character)
    (inside : Blank.isLineBreak character = false) :
    Passes source [character] 0 start (start.forward character.utf8Size) :=
  .character found inside (.stay _)

/-- One line terminator is passed and begins a new line. -/
theorem terminatorOne (start : Cursor) {terminator : List Char}
    (found : source.terminatorAt? start.pos = some terminator) :
    Passes source terminator 0 start (start.newLine (byteLength terminator)) := by
  simpa using Passes.terminator found (.stay _)

/-- A separator of lines may be passed without beginning a new line, which is then hidden. -/
theorem hiddenOne {character : Char} (found : source.charAt? start.pos = some character)
    (separates : Blank.isSeparator character = true) :
    Passes source [character] 1 start (start.forward character.utf8Size) :=
  .hidden found separates (.stay _)

/-- Characters that end no line are passed within it. -/
theorem ofStartsWith (start : Cursor) {text : List Char}
    (spelled : source.startsWith text start.pos = true)
    (inside : ∀ character ∈ text, Blank.isLineBreak character = false) :
    Passes source text 0 start (start.forward (byteLength text)) := by
  induction text generalizing start with
  | nil => exact .stay start
  | cons character rest inductionHypothesis =>
      simp only [Source.startsWith, Bool.and_eq_true, Source.hasAt_iff] at spelled
      have tail := inductionHypothesis (start.forward character.utf8Size) spelled.2
        fun other member => inside other (List.mem_cons_of_mem _ member)
      have whole := Passes.character spelled.1 (inside character List.mem_cons_self) tail
      simpa [Cursor.forward, Nat.add_assoc] using whole

/-- A text is passed byte by byte. -/
theorem pos_eq (passes : Passes source first hidden start last) :
    last.pos = start.pos + byteLength first := by
  induction passes with
  | stay cursor => simp
  | character found inside rest inductionHypothesis =>
      rw [inductionHypothesis, Cursor.forward_pos, byteLength_cons, Nat.add_assoc]
  | terminator found rest inductionHypothesis =>
      rw [inductionHypothesis, Cursor.newLine_pos, byteLength_append, Nat.add_assoc]
  | hidden found separates rest inductionHypothesis =>
      rw [inductionHypothesis, Cursor.forward_pos, byteLength_cons, Nat.add_assoc]

/-- A passage never goes back. -/
theorem le (passes : Passes source first hidden start last) : start.pos ≤ last.pos := by
  have := passes.pos_eq
  omega

end Passes

end Lexer

namespace Source

variable {source : Source} {offset : Nat} {before after terminator : List Char}

theorem utf8Size_return : ('\r').utf8Size = 1 := by decide

theorem utf8Size_feed : ('\n').utf8Size = 1 := by decide

/-- A line terminator is a carriage return with its line feed, or a single character. -/
theorem terminatorAt?_cases (found : source.terminatorAt? offset = some terminator) :
    (terminator = ['\r', '\n'] ∧ source.charAt? offset = some '\r' ∧
        source.charAt? (offset + 1) = some '\n') ∨
      ∃ character, terminator = [character] ∧ source.charAt? offset = some character ∧
        Blank.isLineBreak character = true ∧
        ¬(character = '\r' ∧ source.charAt? (offset + 1) = some '\n') := by
  unfold terminatorAt? at found
  split at found
  · simp at found
  · next character here =>
      split at found
      · next pair =>
          simp only [Bool.and_eq_true, beq_iff_eq, hasAt_iff] at pair
          obtain ⟨rfl, feed⟩ := pair
          exact .inl ⟨(Option.some.inj found).symm, here, feed⟩
      · next single =>
          simp only [Bool.and_eq_true, beq_iff_eq, hasAt_iff] at single
          split at found
          · exact .inr ⟨character, (Option.some.inj found).symm, here, ‹_›, single⟩
          · simp at found

/-- The text before and after a terminator. -/
theorem At.passTerminator (parted : source.At offset before after)
    (found : source.terminatorAt? offset = some terminator) :
    ∃ rest, after = terminator ++ rest ∧
      source.At (offset + byteLength terminator) (before ++ terminator) rest := by
  suffices begins : ∃ rest, after = terminator ++ rest by
    obtain ⟨rest, rfl⟩ := begins
    exact ⟨rest, rfl, parted.append⟩
  rcases terminatorAt?_cases found with ⟨rfl, carriage, feed⟩ | ⟨character, rfl, here, -⟩
  · rw [parted.charAt?, List.head?_eq_some_iff] at carriage
    obtain ⟨rest, rfl⟩ := carriage
    have second := parted.next.charAt?
    rw [utf8Size_return, feed, eq_comm, List.head?_eq_some_iff] at second
    obtain ⟨others, rfl⟩ := second
    exact ⟨others, rfl⟩
  · rw [parted.charAt?, List.head?_eq_some_iff] at here
    obtain ⟨rest, rfl⟩ := here
    exact ⟨rest, rfl⟩

theorem isBoundary_terminator (found : source.terminatorAt? offset = some terminator) :
    source.isBoundary (offset + byteLength terminator) = true := by
  have boundary : source.isBoundary offset = true := by
    rcases terminatorAt?_cases found with ⟨-, carriage, -⟩ | ⟨character, -, here, -⟩
    · exact isBoundary_of_charAt? carriage
    · exact isBoundary_of_charAt? here
  obtain ⟨before, after, parted⟩ := isBoundary_iff.mp boundary
  obtain ⟨rest, -, ends⟩ := parted.passTerminator found
  exact isBoundary_iff.mpr ⟨_, _, ends⟩

end Source

namespace Lexer

namespace Passes

variable {source : Source} {text : List Char} {hidden : Nat} {start last : Cursor}

/-- What a cursor passes over is what the source holds there. -/
theorem parts (passes : Passes source text hidden start last) {before after : List Char}
    (parted : source.At start.pos before after) :
    ∃ rest, after = text ++ rest ∧ source.At last.pos (before ++ text) rest := by
  suffices begins : ∃ rest, after = text ++ rest by
    obtain ⟨rest, rfl⟩ := begins
    refine ⟨rest, rfl, ?_⟩
    rw [passes.pos_eq]
    exact parted.append
  induction passes generalizing before after with
  | stay cursor => exact ⟨after, rfl⟩
  | character found inside rest inductionHypothesis =>
      rw [parted.charAt?, List.head?_eq_some_iff] at found
      obtain ⟨tail, rfl⟩ := found
      obtain ⟨others, rfl⟩ := inductionHypothesis parted.next
      exact ⟨others, rfl⟩
  | terminator found rest inductionHypothesis =>
      obtain ⟨tail, rfl, ends⟩ := parted.passTerminator found
      obtain ⟨others, rfl⟩ := inductionHypothesis ends
      exact ⟨others, by simp⟩
  | hidden found separates rest inductionHypothesis =>
      rw [parted.charAt?, List.head?_eq_some_iff] at found
      obtain ⟨tail, rfl⟩ := found
      obtain ⟨others, rfl⟩ := inductionHypothesis parted.next
      exact ⟨others, rfl⟩

/-- A passage that begins between characters ends between characters. -/
theorem boundary (passes : Passes source text hidden start last)
    (begins : source.isBoundary start.pos = true) : source.isBoundary last.pos = true := by
  obtain ⟨before, after, parted⟩ := Source.isBoundary_iff.mp begins
  obtain ⟨rest, -, ends⟩ := passes.parts parted
  exact Source.isBoundary_iff.mpr ⟨_, _, ends⟩

/-- The text that has been passed can be cut out. -/
theorem slice? (passes : Passes source text hidden start last)
    (begins : source.isBoundary start.pos = true) :
    source.slice? start.pos last.pos = some text := by
  obtain ⟨before, after, parted⟩ := Source.isBoundary_iff.mp begins
  obtain ⟨rest, rfl, -⟩ := passes.parts parted
  rw [passes.pos_eq]
  exact Source.slice?_eq parted

end Passes

/-- The number of line feeds before an offset. -/
def feeds (source : Source) : Nat → Nat
  | 0 => 0
  | offset + 1 => feeds source offset + if source.hasAt offset '\n' then 1 else 0

/-- A stretch without line feeds adds nothing to their number. -/
theorem feeds_eq_of_clear {source : Source} {start stop : Nat} (ordered : start ≤ stop)
    (clear : ∀ offset, start ≤ offset → offset < stop → source.hasAt offset '\n' = false) :
    feeds source stop = feeds source start := by
  induction stop with
  | zero => rw [Nat.le_zero.mp ordered]
  | succ stop inductionHypothesis =>
      rcases Nat.lt_or_ge stop start with before | from_
      · rw [show start = stop + 1 by omega]
      · have rest := inductionHypothesis from_ fun offset low high => clear offset low (by omega)
        rw [feeds, rest, clear stop from_ (by omega)]
        simp

/-- The number of line feeds before an offset, and of carriage returns that come without one. -/
def breaks (source : Source) (offset : Nat) : Nat :=
  feeds source offset + Nat.count (source.loneAt · = true) offset

section Breaks

variable {source : Source} {offset stop : Nat} {character : Char} {more : List Char}

/-- The breaks before an offset are those before the last byte, and perhaps this one. -/
theorem breaks_succ (source : Source) (offset : Nat) :
    breaks source (offset + 1) = breaks source offset +
      if source.hasAt offset '\n' || source.loneAt offset then 1 else 0 := by
  rw [breaks, feeds, Nat.count_succ, breaks]
  by_cases feed : source.hasAt offset '\n' = true
  · have other : source.loneAt offset = false := by
      rw [Source.hasAt_iff] at feed
      simp [Source.loneAt, Source.hasAt, feed]
    simp only [feed, other, Bool.or_false, Bool.false_eq_true, if_true, if_false]
    omega
  · simp only [Bool.not_eq_true] at feed
    simp only [feed, Bool.false_or, Bool.false_eq_true, if_false]
    omega

/-- A stretch without line feeds and carriage returns adds no breaks. -/
theorem breaks_eq_of_clear (ordered : offset ≤ stop)
    (clear : ∀ inner, offset ≤ inner → inner < stop →
      source.hasAt inner '\n' = false ∧ source.hasAt inner '\r' = false) :
    breaks source stop = breaks source offset := by
  induction stop, ordered using Nat.le_induction with
  | base => rfl
  | succ stop ordered inductionHypothesis =>
      obtain ⟨feed, carriage⟩ := clear stop ordered (Nat.lt_succ_self stop)
      rw [breaks_succ, inductionHypothesis fun inner low high => clear inner low (by omega)]
      simp [Source.loneAt, feed, carriage]

/-- A character that is neither a line feed nor a carriage return ends no line that counts. -/
theorem breaks_next (found : source.charAt? offset = some character)
    (other : character ≠ '\n' ∧ character ≠ '\r') :
    breaks source (offset + character.utf8Size) = breaks source offset := by
  obtain ⟨before, rest, parted⟩ := Source.at_of_charAt? found
  refine breaks_eq_of_clear (Nat.le_add_right _ _) fun inner low high => ?_
  rcases Nat.eq_or_lt_of_le low with rfl | late
  · simp [Source.hasAt, found, other]
  · simp [Source.hasAt, parted.charAt?_within late high]

/-- A terminator that is no separator counts once, with its last byte. -/
theorem breaks_terminator (found : source.terminatorAt? offset = some (character :: more))
    (counted : Blank.isSeparator character = false) :
    ∃ ending, offset + byteLength (character :: more) = ending + 1 ∧ offset ≤ ending ∧
      source.isBoundary ending = true ∧ breaks source ending = breaks source offset ∧
      breaks source (ending + 1) = breaks source ending + 1 := by
  rcases Source.terminatorAt?_cases found with
    ⟨pair, carriage, feed⟩ | ⟨single, same, here, ends, alone⟩
  · refine ⟨offset + 1, ?_, Nat.le_succ _, Source.isBoundary_of_charAt? feed, ?_, ?_⟩
    · rw [pair]
      rfl
    · rw [breaks_succ]
      simp [Source.loneAt, Source.hasAt, carriage, feed]
    · rw [breaks_succ, if_pos]
      simp [Source.hasAt, feed]
  · obtain ⟨rfl, rfl⟩ := List.cons.inj same
    rw [Blank.isLineBreak_eq, counted, Bool.or_false, Bool.or_eq_true, beq_iff_eq,
      beq_iff_eq] at ends
    refine ⟨offset, ?_, Nat.le_refl _, Source.isBoundary_of_charAt? here, rfl, ?_⟩
    · rcases ends with rfl | rfl <;> rfl
    · rw [breaks_succ, if_pos]
      rcases ends with rfl | rfl
      · simp [Source.hasAt, here]
      · simpa [Source.loneAt, Source.hasAt, here] using alone

end Breaks

/-- A cursor is sound: it is on a boundary, not before its line, no line feed stands between
the start of its line and itself, and its line has at least as many lines before it as there
are line feeds before the terminator at the end of the line before. -/
structure Cursor.Sound (source : Source) (cursor : Cursor) : Prop where
  boundary : source.isBoundary cursor.pos = true
  ordered : cursor.lineStart ≤ cursor.pos
  clear : ∀ offset, cursor.lineStart ≤ offset → offset < cursor.pos →
    source.hasAt offset '\n' = false
  positive : 1 ≤ cursor.line
  enough : 0 < cursor.lineStart → feeds source (cursor.lineStart - 1) + 2 ≤ cursor.line

namespace Cursor.Sound

variable {source : Source} {cursor : Cursor}

theorem initial (source : Source) : Cursor.Sound source ⟨0, 0, 1⟩ where
  boundary := source.isBoundary_zero
  ordered := Nat.le_refl 0
  clear _ _ high := absurd high (Nat.not_lt_zero _)
  positive := Nat.le_refl 1
  enough positive := absurd positive (Nat.lt_irrefl 0)

/-- A line has a larger number than there are line feeds before it. -/
theorem feeds_lt (sound : cursor.Sound source) : feeds source cursor.pos + 1 ≤ cursor.line := by
  rw [feeds_eq_of_clear sound.ordered sound.clear]
  rcases Nat.eq_zero_or_pos cursor.lineStart with begins | later
  · simpa [begins, feeds] using sound.positive
  · have := sound.enough later
    obtain ⟨offset, same⟩ : ∃ offset, cursor.lineStart = offset + 1 :=
      ⟨cursor.lineStart - 1, by omega⟩
    rw [same] at this ⊢
    rw [feeds]
    split <;> simp_all
    omega

/-- A cursor stays sound when it passes a character other than a line feed. -/
theorem forward (sound : cursor.Sound source) {character : Char}
    (found : source.charAt? cursor.pos = some character) (other : character ≠ '\n') :
    (cursor.forward character.utf8Size).Sound source where
  boundary := Source.isBoundary_next found
  ordered := Nat.le_trans sound.ordered (Nat.le_add_right _ _)
  clear offset low high := by
    obtain ⟨before, rest, parted⟩ := Source.at_of_charAt? found
    simp only [Cursor.forward] at low high
    rcases Nat.lt_trichotomy offset cursor.pos with early | rfl | late
    · exact sound.clear offset low early
    · simp [Source.hasAt, found, other]
    · simp [Source.hasAt, parted.charAt?_within late high]
  positive := sound.positive
  enough := sound.enough

/-- A cursor stays sound when it passes a line terminator. -/
theorem newLine (sound : cursor.Sound source) {terminator : List Char}
    (found : source.terminatorAt? cursor.pos = some terminator) :
    (cursor.newLine (byteLength terminator)).Sound source where
  boundary := Source.isBoundary_terminator found
  ordered := Nat.le_refl _
  clear offset low high := by
    simp only [Cursor.newLine] at low high
    omega
  positive := Nat.le_add_left 1 _
  enough _ := by
    suffices same : feeds source (cursor.pos + byteLength terminator - 1) =
        feeds source cursor.pos by
      have := sound.feeds_lt
      simp only [Cursor.newLine, same]
      omega
    refine feeds_eq_of_clear ?_ fun offset low high => ?_
    · have : 0 < byteLength terminator := by
        rcases Source.terminatorAt?_cases found with ⟨rfl, -⟩ | ⟨character, rfl, -⟩
        · decide
        · simpa using character.utf8Size_pos
      omega
    · rcases Source.terminatorAt?_cases found with
        ⟨rfl, carriage, -⟩ | ⟨character, rfl, here, -, -⟩
      · have : offset = cursor.pos := by
          simp only [byteLength_cons, byteLength_nil, Source.utf8Size_return,
            Source.utf8Size_feed] at high
          omega
        rw [this]
        simp [Source.hasAt, carriage]
      · obtain ⟨before, rest, parted⟩ := Source.at_of_charAt? here
        simp only [byteLength_cons, byteLength_nil, Nat.add_zero] at high
        rcases Nat.eq_or_lt_of_le low with rfl | late
        · have feed : character ≠ '\n' := by
            rintro rfl
            simp [Source.utf8Size_feed] at high
          simp [Source.hasAt, here, feed]
        · simp [Source.hasAt, parted.charAt?_within late (by omega)]

end Cursor.Sound

/-- A cursor stays sound along every passage. -/
theorem Passes.sound {source : Source} {text : List Char} {hidden : Nat} {start last : Cursor}
    (passes : Passes source text hidden start last) (begins : start.Sound source) :
    last.Sound source := by
  induction passes with
  | stay cursor => exact begins
  | character found inside rest inductionHypothesis =>
      refine inductionHypothesis (begins.forward found ?_)
      rintro rfl
      simp [Blank.isLineBreak] at inside
  | terminator found rest inductionHypothesis =>
      exact inductionHypothesis (begins.newLine found)
  | hidden found separates rest inductionHypothesis =>
      refine inductionHypothesis (begins.forward found ?_)
      rintro rfl
      simp [Blank.isSeparator] at separates

end Lexer

end EcmaSyntax
