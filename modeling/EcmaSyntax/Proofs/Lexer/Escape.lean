import EcmaSyntax.Lexer.Word
import EcmaSyntax.Proofs.Lexer.Passage

namespace EcmaSyntax

/-- A digit breaks no line, hides none, and takes one byte. -/
theorem Digit.inside {radix : Nat} {character : Char}
    (digit : isDigit radix character = true) :
    Blank.isLineBreak character = false ∧ character ≠ '\\' ∧ character.utf8Size = 1 := by
  have known : (anyValue character).isSome = true := by
    rw [isDigit, value] at digit
    cases absent : anyValue character with
    | none => simp [absent] at digit
    | some number => rfl
  have ascii : character.val ≤ 0x7f := by
    unfold anyValue at known
    simp only [Bool.and_eq_true, decide_eq_true_eq, Char.le_def] at known
    repeat' split at known
    all_goals grind
  refine ⟨?_, ?_, ?_⟩
  · cases ends : Blank.isLineBreak character with
    | false => rfl
    | true =>
        simp only [Blank.isLineBreak, Bool.or_eq_true, beq_iff_eq] at ends
        rcases ends with ((rfl | rfl) | rfl) | rfl <;> revert known <;> decide
  · rintro rfl
    revert known
    decide
  · rw [Char.utf8Size]
    simp [ascii]

/-- A character of a name breaks no line. -/
theorem Identifier.inside {character : Char} (part : isPart character = true) :
    Blank.isLineBreak character = false := by
  cases ends : Blank.isLineBreak character with
  | false => rfl
  | true =>
      simp only [Blank.isLineBreak, Bool.or_eq_true, beq_iff_eq] at ends
      rcases ends with ((rfl | rfl) | rfl) | rfl <;> revert part <;> decide +kernel

/-- The characters that begin within a number of bytes from a boundary are the first ones. -/
theorem Source.charsBetween_prefix {source : Source} {offset : Nat} {before after : List Char}
    (parted : source.At offset before after) (count : Nat) :
    source.charsBetween offset (offset + count) <+: after := by
  have cells : (source.cells.extract offset (offset + count)).toList =
      (cellList after).take count := by
    rw [Array.toList_extract, cells_toList, List.extract_eq_take_drop, parted.text,
      cellList_append, List.drop_left' (by simp [parted.offset]), Nat.add_sub_cancel_left]
  rw [charsBetween, cells]
  have whole := ( List.take_prefix count (cellList after)).filterMap id
  rwa [filterMap_cellList] at whole

namespace Lexer

/-- The number of separators in a text that a backslash stands before. A backslash that
another one stands before does not count. -/
def hiddenBreaks : List Char → Nat
  | [] => 0
  | [_] => 0
  | first :: second :: rest =>
    if first = '\\' then (if Blank.isSeparator second then 1 else 0) + hiddenBreaks rest
    else hiddenBreaks (second :: rest)

@[simp] theorem hiddenBreaks_nil : hiddenBreaks [] = 0 := rfl

/-- A character other than a backslash hides no line terminator. -/
theorem hiddenBreaks_cons {character : Char} (other : character ≠ '\\') (rest : List Char) :
    hiddenBreaks (character :: rest) = hiddenBreaks rest := by
  cases rest with
  | nil => rfl
  | cons second rest => rw [hiddenBreaks, if_neg other]

/-- A text without backslashes hides no line terminator. -/
theorem hiddenBreaks_append {first : List Char} (free : '\\' ∉ first) (second : List Char) :
    hiddenBreaks (first ++ second) = hiddenBreaks second := by
  induction first with
  | nil => rfl
  | cons character rest inductionHypothesis =>
      rw [List.mem_cons, not_or] at free
      rw [List.cons_append, hiddenBreaks_cons (Ne.symm free.1), inductionHypothesis free.2]

/-- The number of terminators that an escape of a character hides. -/
def hides (character : Char) : Nat := if Blank.isSeparator character then 1 else 0

theorem hides_eq_zero {character : Char} (inside : Blank.isLineBreak character = false) :
    hides character = 0 := by
  rw [Blank.isLineBreak_eq] at inside
  simp only [Bool.or_eq_false_iff] at inside
  simp [hides, inside.2]

/-- An escape hides the line terminator right after its backslash, if there is one. -/
theorem hiddenBreaks_escape (character : Char) {more : List Char} (free : '\\' ∉ more)
    (rest : List Char) :
    hiddenBreaks ('\\' :: character :: (more ++ rest)) = hides character + hiddenBreaks rest := by
  rw [hiddenBreaks, if_pos rfl, hiddenBreaks_append free, hides]

/-- A text holds neither line terminators nor backslashes. -/
def Inert (text : List Char) : Prop :=
  ∀ character ∈ text, Blank.isLineBreak character = false ∧ character ≠ '\\'

namespace Inert

theorem free {text : List Char} (inert : Inert text) : '\\' ∉ text :=
  fun member => (inert _ member).2 rfl

theorem inside {text : List Char} (inert : Inert text) :
    ∀ character ∈ text, Blank.isLineBreak character = false :=
  fun character member => (inert character member).1

/-- Digits neither break lines nor escape anything. -/
theorem ofDigits {radix : Nat} {text : List Char}
    (all : ∀ character ∈ text, Digit.isDigit radix character = true) : Inert text := by
  intro character member
  have known := Digit.inside (all character member)
  exact ⟨known.1, known.2.1⟩

end Inert

variable {setting : Setting} {state : State}

/-- As many digits are passed as are asked for. -/
theorem readHex_meets (count : Nat) :
    Meets (readHex count) setting state fun _ after =>
      after.pos = state.pos + count ∧
        ∃ digits, Inert digits ∧ Moved setting.source digits 0 state after := by
  simp only [readHex, Meets.bind_iff, meets_source, meets_get, meets_moveTo]
  obtain ⟨digits, plain, all⟩ := Plain.ofPassOver setting.source (Digit.isDigit 16)
    (fun _ digit => (Digit.inside digit).1) count state.pos
  apply meets_ite
  · intro complete
    simp only [Bool.and_eq_true, beq_iff_eq] at complete
    rw [meets_pure]
    exact ⟨complete.2, digits, .ofDigits all, plain.moved _ rfl⟩
  · intro _
    simp

theorem utf8Size_braceL : ('\x7b').utf8Size = 1 := by decide

/-- The text of a code point is passed. -/
theorem readCodePoint_meets :
    Meets readCodePoint setting state fun _ after =>
      ∃ text, Inert text ∧ Moved setting.source text 0 state after := by
  simp only [readCodePoint, Meets.bind_iff, meets_peekIs, Nat.add_zero]
  apply meets_ite
  · intro opens
    rw [Source.hasAt_iff] at opens
    simp only [Meets.bind_iff, meets_advance, meets_get, meets_checkRest, meets_source]
    refine ⟨by simpa [utf8Size_braceL] using Source.isBoundary_next opens, ?_⟩
    apply meets_ite
    · intro closes
      rw [Source.hasAt_iff] at closes
      have ordered := setting.source.le_passOver (· != '\x7d')
        (setting.source.size - (state.pos + 1)) (state.pos + 1)
      refine (readHex_meets _).bind ?_
      rintro code middle ⟨stops, digits, inert, moved⟩
      replace stops : middle.pos = _ := stops.trans (Nat.add_sub_cancel' ordered)
      rw [Meets.bind_iff, meets_advance]
      apply meets_ite
      · intro _
        simp
      · intro _
        rw [meets_pure]
        refine ⟨['\x7b'] ++ digits ++ ['\x7d'], ?_, ?_⟩
        · intro character member
          simp only [List.mem_append, List.mem_singleton] at member
          rcases member with (rfl | member) | rfl
          · decide
          · exact inert character member
          · decide
        · have opening := Moved.one state opens (by decide)
          have closing := Moved.one middle (stops ▸ closes) (by decide)
          exact (opening.trans moved).trans closing
    · intro _
      simp
  · intro _
    exact (readHex_meets 4).mono fun _ _ read => read.2

/-- Digits spell a number that is less than the power of the radix for one digit more. -/
theorem number_lt {radix : Nat} {digits : List Char} (positive : 0 < radix) :
    Digit.number radix digits < radix ^ digits.length := by
  induction digits using List.reverseRecOn with
  | nil => simp [Digit.number]
  | append_singleton digits digit inductionHypothesis =>
      have spelled : Digit.number radix (digits ++ [digit]) =
          Digit.number radix digits * radix + (Digit.value radix digit).getD 0 := by
        simp [Digit.number]
      have last : (Digit.value radix digit).getD 0 < radix := by
        cases known : Digit.value radix digit with
        | none => simpa using positive
        | some value => exact (by simpa using (Option.filter_eq_some_iff.mp known).2)
      calc
        Digit.number radix (digits ++ [digit])
          < (Digit.number radix digits + 1) * radix := by rw [spelled, Nat.succ_mul]; omega
        _ ≤ radix ^ digits.length * radix := Nat.mul_le_mul_right _ inductionHypothesis
        _ = radix ^ (digits ++ [digit]).length := by simp [pow_succ]

theorem byteLength_digits {radix : Nat} {digits : List Char}
    (all : ∀ character ∈ digits, Digit.isDigit radix character = true) :
    byteLength digits = digits.length := by
  induction digits with
  | nil => rfl
  | cons digit rest inductionHypothesis =>
      rw [byteLength_cons, List.length_cons,
        inductionHypothesis fun other member => all other (List.mem_cons_of_mem _ member),
        (Digit.inside (all digit List.mem_cons_self)).2.2, Nat.add_comm]

/-- The octal digits at a boundary are those of an octal escape; with the first one there
they are a text that begins with it. -/
theorem octalDigits_meets {start : Nat} {digit : Char}
    (found : setting.source.charAt? start = some digit)
    (octal : Digit.isDigit 8 digit = true) :
    Meets (octalDigits start) setting state fun digits after =>
      after = state ∧ ∃ more, digits = digit :: more ∧
        (∀ character ∈ digits, Digit.isDigit 8 character = true) ∧
        Plain setting.source digits start (start + digits.length) := by
  obtain ⟨before, rest, parted⟩ := Source.at_of_charAt? found
  have begins := Source.charsBetween_prefix parted 3
  generalize ahead : setting.source.charsBetween start (start + 3) = taken at begins
  obtain ⟨others, rfl⟩ : ∃ others, taken = digit :: others := by
    obtain ⟨tail, whole⟩ := begins
    have length : (setting.source.charsBetween start (start + 3)).length ≠ 0 := by
      have single := Source.charsBetween_prefix parted 3
      have : setting.source.charsBetween start (start + 3) ≠ [] := by
        rw [Source.charsBetween, Array.toList_extract, Source.cells_toList,
          List.extract_eq_take_drop, parted.text, Source.cellList_append,
          List.drop_left' (by simp [parted.offset]), Nat.add_sub_cancel_left,
          Source.cellList_cons, List.take_succ_cons]
        simp
      simpa using this
    rw [ahead] at length
    cases taken with
    | nil => simp at length
    | cons first others =>
        simp only [List.cons_append, List.cons.injEq] at whole
        exact ⟨others, by rw [whole.1]⟩
  -- Any of the digits from the first one on are a text of the source.
  have spelled : ∀ digits : List Char, digits <+: digit :: rest →
      (∀ character ∈ digits, Digit.isDigit 8 character = true) →
      setting.source.slice? start (start + digits.length) = some digits ∧
        Plain setting.source digits start (start + digits.length) := by
    rintro digits ⟨tail, whole⟩ all
    rw [← whole] at parted
    rw [← byteLength_digits all]
    exact ⟨Source.slice?_eq parted, .ofAt parted fun other member =>
      (Digit.inside (all other member)).1⟩
  generalize same : (digit :: others).takeWhile (Digit.isDigit 8) = digits
  have all : ∀ character ∈ digits, Digit.isDigit 8 character = true := by
    intro character member
    rw [← same] at member
    exact List.all_eq_true.mp List.all_takeWhile character member
  have prefixed : digits <+: digit :: rest := by
    rw [← same]
    exact (List.takeWhile_prefix _).trans begins
  obtain ⟨more, rfl⟩ : ∃ more, digits = digit :: more := by
    rw [List.takeWhile_cons_of_pos octal] at same
    exact ⟨_, same.symm⟩
  simp only [octalDigits, Meets.bind_iff, meets_source, ahead, same]
  rw [meets_slice]
  refine ⟨digit :: more, (spelled _ prefixed all).1, ?_⟩
  apply meets_ite
  · intro large
    have shorter : (digit :: more).dropLast <+: digit :: rest :=
      (List.dropLast_prefix _).trans prefixed
    have fewer : ∀ character ∈ (digit :: more).dropLast, Digit.isDigit 8 character = true :=
      fun character member => all character ((List.dropLast_prefix _).subset member)
    have several : more ≠ [] := by
      rintro rfl
      have small : Digit.number 8 [digit] < 8 := number_lt (by decide)
      omega
    have sliced := spelled _ shorter fewer
    rw [List.length_dropLast] at sliced
    rw [meets_slice]
    refine ⟨_, sliced.1, rfl, more.dropLast, List.dropLast_cons_of_ne_nil several, fewer, ?_⟩
    rw [List.length_dropLast]
    exact sliced.2
  · intro _
    exact ⟨rfl, more, rfl, all, (spelled _ prefixed all).2⟩

/-- The digits of an octal escape are passed. -/
theorem readOctal_meets {inTemplate : Bool} {digit : Char} (later : 2 ≤ state.pos)
    (found : setting.source.charAt? (state.pos - 1) = some digit)
    (octal : Digit.isDigit 8 digit = true) :
    Meets (readOctal inTemplate) setting state fun _ after =>
      ∃ more, Inert more ∧ Moved setting.source more 0 state after := by
  simp only [readOctal, Meets.bind_iff, meets_behind]
  refine ⟨by omega, (octalDigits_meets found octal).mono ?_⟩
  rintro digits after ⟨rfl, more, rfl, all, plain⟩
  have free : Inert more := fun character member =>
    Inert.ofDigits all character (List.mem_cons_of_mem _ member)
  have moved : Moved setting.source more 0 after
      { after with pos := after.pos - 1 + (digit :: more).length } := by
    have here : after.pos = after.pos - 1 + digit.utf8Size := by
      have := (Digit.inside (all digit List.mem_cons_self)).2.2
      omega
    have spelled := plain.spelled
    rw [Source.startsWith, Bool.and_eq_true] at spelled
    refine Plain.moved (show Plain _ _ after.pos _ from ⟨?_, ?_, ?_⟩) _ rfl
    · rw [here]
      exact spelled.2
    · rw [byteLength_digits fun other member => all other (List.mem_cons_of_mem _ member),
        List.length_cons]
      omega
    · exact fun other member => plain.inside other (List.mem_cons_of_mem _ member)
  apply meets_ite
  · intro _
    simp only [Meets.bind_iff, meets_behind, meets_modify, meets_get]
    refine ⟨later, ?_⟩
    apply meets_ite
    · intro _
      simp
    · intro _
      simp only [Meets.bind_iff, meets_pure, meets_moveTo]
      refine ⟨more, free, moved.note ?_ ?_⟩
      all_goals
        split <;> rfl
  · intro _
    simp only [Meets.bind_iff, meets_pure, meets_moveTo]
    exact ⟨more, free, moved⟩

/-- An escape has been passed: a backslash, a character, and what else belongs to it. -/
def Escaped (source : Source) (first last : State) : Prop :=
  ∃ character more, '\\' ∉ more ∧
    Moved source ('\\' :: character :: more) (hides character) first last ∧
    Returns source first last

theorem utf8Size_backslash : ('\\').utf8Size = 1 := by decide

/-- What else belongs to an escape follows its character, which ends no line. -/
theorem Escaped.more {first last : State} {character : Char} {more : List Char}
    (opens : setting.source.charAt? first.pos = some '\\')
    (found : setting.source.charAt? (first.pos + 1) = some character)
    (inside : Blank.isLineBreak character = false) (inert : Inert more)
    (moved : Moved setting.source more 0
      { first with pos := first.pos + 1 + character.utf8Size } last) :
    Escaped setting.source first last := by
  have backslash := Moved.one first opens (by decide)
  rw [utf8Size_backslash] at backslash
  have second := Moved.one { first with pos := first.pos + 1 } found inside
  have whole := (backslash.trans second).trans moved
  refine ⟨character, more, inert.free, ?_, whole.returns ?_⟩
  · rw [hides_eq_zero inside]
    exact whole
  · intro other member
    simp only [List.mem_append, List.mem_singleton] at member
    rcases member with (rfl | rfl) | member
    · decide
    · exact inside
    · exact inert.inside other member

/-- A terminator after a backslash belongs to the escape as a whole. -/
theorem Escaped.terminator {first last : State} (character : Char) (more : List Char)
    (opens : setting.source.charAt? first.pos = some '\\')
    (found : setting.source.terminatorAt? (first.pos + 1) = some (character :: more))
    (free : '\\' ∉ more) (counted : Blank.isSeparator character = false)
    (cursor : last.cursor =
      Cursor.newLine { first.cursor with pos := first.pos + 1 } (byteLength (character :: more)))
    (outline : last.outline = first.outline) : Escaped setting.source first last := by
  have backslash := Passes.one first.cursor opens (by decide)
  rw [utf8Size_backslash] at backslash
  have ends := Passes.terminatorOne { first.cursor with pos := first.pos + 1 } found
  have opening := Returns.next first opens (by decide)
  rw [utf8Size_backslash] at opening
  refine ⟨character, more, free, ⟨?_, outline⟩, opening.trans (.terminator found counted cursor)⟩
  rw [hides, counted, cursor]
  exact backslash.trans ends

/-- Nothing but a backslash at the end of the text is no escape. -/
theorem readEscape_meets {inTemplate : Bool}
    (opens : setting.source.charAt? state.pos = some '\\') :
    Meets (readEscape inTemplate) setting state fun _ after =>
      Escaped setting.source state after ∨ setting.source.charAt? after.pos = none := by
  simp only [readEscape, Meets.bind_iff, meets_advance, meets_peek, Nat.add_zero]
  split
  · next absent => exact .inr absent
  · next character found =>
      rw [Meets.bind_iff, meets_advance]
      have plainly : Blank.isLineBreak character = false →
          Escaped setting.source state
            { state with pos := state.pos + 1 + character.utf8Size } :=
        fun inside => .more opens found inside (by simp [Inert]) (.stay _ _)
      have further : ∀ {last : State}, Blank.isLineBreak character = false →
          (∃ more, Inert more ∧ Moved setting.source more 0
            { state with pos := state.pos + 1 + character.utf8Size } last) →
          Escaped setting.source state last := by
        rintro last inside ⟨more, inert, moved⟩
        exact .more opens found inside inert moved
      split
      · exact .inl (plainly (by decide))
      · exact .inl (plainly (by decide))
      · rw [Meets.bind_iff]
        exact (readHex_meets 2).mono fun _ _ read => .inl (further (by decide) read.2)
      · rw [Meets.bind_iff]
        exact readCodePoint_meets.mono fun _ _ moved => .inl (further (by decide) moved)
      · exact .inl (plainly (by decide))
      · exact .inl (plainly (by decide))
      · exact .inl (plainly (by decide))
      · exact .inl (plainly (by decide))
      · simp only [Meets.bind_iff, meets_peekIs, Nat.add_zero, Source.utf8Size_return]
        have carriage : setting.source.hasAt (state.pos + 1) '\r' = true :=
          Source.hasAt_iff.mpr found
        apply meets_ite
        · intro feed
          simp only [Meets.bind_iff, meets_advance, meets_get, meets_startLine]
          refine .inl (.terminator '\r' ['\n'] opens ?_ (by simp) (by decide) ?_ rfl)
          · simp [Source.terminatorAt?, found, feed]
          · simp [State.cursor, Cursor.newLine, Source.utf8Size_return, Source.utf8Size_feed,
              Nat.add_assoc]
        · intro alone
          simp only [Meets.bind_iff, meets_get, meets_startLine]
          refine .inl (.terminator '\r' [] opens ?_ (by simp) (by decide) ?_ rfl)
          · simp [Source.terminatorAt?, found, alone, Blank.isLineBreak]
          · simp [State.cursor, Cursor.newLine, Source.utf8Size_return]
      · simp only [Meets.bind_iff, meets_get, meets_startLine]
        refine .inl (.terminator '\n' [] opens ?_ (by simp) (by decide) ?_ rfl)
        · simp [Source.terminatorAt?, found, Blank.isLineBreak]
        · simp [State.cursor, Cursor.newLine]
      · next carriage feed =>
          apply meets_ite
          · intro octal
            have inside := Digit.inside octal
            refine (readOctal_meets ?_ ?_ octal).mono fun _ _ moved =>
              .inl (further inside.1 moved)
            · simp only [inside.2.2]
              omega
            · simpa [inside.2.2] using found
          · intro _
            cases separates : Blank.isSeparator character with
            | false =>
                refine .inl (plainly ?_)
                rw [Blank.isLineBreak_eq, separates]
                simpa using And.intro feed carriage
            | true =>
                have backslash := Moved.one state opens (by decide)
                rw [utf8Size_backslash] at backslash
                have second : Moved setting.source [character] 1 { state with pos := state.pos + 1 }
                    { state with pos := state.pos + 1 + character.utf8Size } :=
                  ⟨.hiddenOne found separates, rfl⟩
                have opening := Returns.next state opens (by decide)
                rw [utf8Size_backslash] at opening
                refine .inl ⟨character, [], by simp, ?_, opening.trans
                  (.next { state with pos := state.pos + 1 } found ⟨feed, carriage⟩)⟩
                rw [hides, if_pos separates]
                exact backslash.trans second

/-- An escape in a name is passed with its backslash. -/
theorem readWordEscape_meets {first : Bool}
    (opens : setting.source.charAt? state.pos = some '\\') :
    Meets (readWordEscape first) setting state fun _ after =>
      ∃ text, Moved setting.source ('\\' :: text) 0 state after := by
  simp only [readWordEscape, Meets.bind_iff, meets_modify, meets_get, meets_advance, meets_peekIs,
    Nat.add_zero]
  apply meets_ite
  · intro _
    simp
  · intro marked
    simp only [Bool.not_eq_true', Bool.not_eq_false, Source.hasAt_iff] at marked
    have backslash := Moved.one state opens (by decide)
    rw [utf8Size_backslash] at backslash
    have letter := Moved.one { state with pos := state.pos + 1 } marked (by decide)
    rw [show ('u').utf8Size = 1 by decide] at letter
    simp only [Meets.bind_iff, meets_advance]
    refine (readCodePoint_meets).mono ?_
    rintro code after ⟨text, -, moved⟩
    have whole : Moved setting.source (['\\'] ++ ['u'] ++ text) 0 state after :=
      (backslash.trans letter).trans ⟨moved.passes, moved.outline⟩
    split
    · apply meets_ite
      · intro _
        exact ⟨_, whole⟩
      · intro _
        simp
    · simp

/-- A character goes on with a word, as it is or by an escape. -/
def continuesWord (character : Char) : Bool := Identifier.isPart character || character == '\\'

/-- The text of a word is not empty if it may go on at the cursor. -/
theorem gatherWord_meets (count : Nat) {first : Bool} {chunk : Nat} {gathered : List Char}
    (begins : setting.source.isBoundary chunk = true) (ordered : chunk ≤ state.pos)
    (here : setting.source.isBoundary state.pos = true) :
    Meets (gatherWord count first chunk gathered) setting state fun _ after =>
      ∃ text, Moved setting.source text 0 state after ∧
        (0 < count → (setting.source.charAt? state.pos).any continuesWord = true →
          text ≠ []) := by
  induction count generalizing state first chunk gathered with
  | zero =>
      refine (finishChunk_meets begins ordered here).mono ?_
      rintro _ after rfl
      exact ⟨[], .stay _ _, fun positive => absurd positive (Nat.lt_irrefl 0)⟩
  | succ count inductionHypothesis =>
      rw [gatherWord, Meets.bind_iff, meets_peek, Nat.add_zero]
      split
      · next absent =>
          refine (finishChunk_meets begins ordered here).mono ?_
          rintro _ after rfl
          refine ⟨[], .stay _ _, ?_⟩
          intro _ continues
          simp [absent] at continues
      · next character found =>
          apply meets_ite
          · intro part
            have moved := Moved.one state found (Identifier.inside part)
            rw [Meets.bind_iff, meets_advance]
            refine (inductionHypothesis begins (Nat.le_trans ordered moved.le)
              (moved.boundary here)).mono ?_
            rintro _ after ⟨text, rest, -⟩
            exact ⟨_, moved.trans rest, by simp⟩
          · intro other
            apply meets_ite
            · intro opens
              rw [beq_iff_eq] at opens
              subst opens
              refine (sliceFrom_meets begins ordered here).bind ?_
              rintro plain state rfl
              refine (readWordEscape_meets found).bind ?_
              rintro escaped after ⟨text, moved⟩
              rw [Meets.bind_iff, meets_get]
              refine (inductionHypothesis (moved.boundary here) (Nat.le_refl _)
                (moved.boundary here)).mono ?_
              rintro _ last ⟨others, rest, -⟩
              exact ⟨_, moved.trans rest, by simp⟩
            · intro plain
              refine (finishChunk_meets begins ordered here).mono ?_
              rintro _ after rfl
              refine ⟨[], .stay _ _, ?_⟩
              intro _ continues
              rw [found, Option.any_some, continuesWord, Bool.or_eq_true] at continues
              rcases continues with part | opens
              · exact absurd part other
              · exact absurd opens plain

/-- The text of a word is passed, which is not empty where a word begins. -/
theorem readWordText_meets (here : setting.source.isBoundary state.pos = true) :
    Meets readWordText setting state fun _ after =>
      ∃ text, Moved setting.source text 0 state after ∧
        ((setting.source.charAt? state.pos).any continuesWord = true → text ≠ []) := by
  simp only [readWordText, Meets.bind_iff, meets_modify, meets_remaining, meets_get, meets_pure]
  refine Meets.mono (gatherWord_meets _ here (Nat.le_refl _) here) ?_
  rintro _ after ⟨text, moved, filled⟩
  refine ⟨text, ⟨moved.passes, moved.outline⟩, fun continues => filled ?_ continues⟩
  rw [Option.any_eq_true] at continues
  obtain ⟨character, found, -⟩ := continues
  have := Source.lt_size_of_charAt? found
  omega

end Lexer

end EcmaSyntax
