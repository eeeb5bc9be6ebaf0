/-
This file says that the line map of a text, which is made of its bytes, lists the lines of its
characters, and that the search for an offset finds its line. It relates the line map of a text to
the line maps of its beginnings.
-/

import EcmaSyntax.Text.LineMap
import Mathlib.Order.Bounds.Basic
import Mathlib.Tactic.SplitIfs

namespace EcmaSyntax

/-- A text is not parted within a line terminator of two characters. -/
def Unsplit (before after : List Char) : Prop :=
  ¬(before.getLast? = some '\r' ∧ after.head? = some '\n')

namespace Unsplit

theorem nil_left (after : List Char) : Unsplit [] after := by simp [Unsplit]

theorem nil_right (before : List Char) : Unsplit before [] := by simp [Unsplit]

/-- A text that is parted after its first character is parted as well without this character. -/
theorem of_tail {character : Char} {before after : List Char}
    (whole : Unsplit (character :: before) after) : Unsplit before after := by
  rintro ⟨closing, opening⟩
  refine whole ⟨?_, opening⟩
  cases before with
  | nil => simp at closing
  | cons => simpa using closing

/-- A text can be parted after each character that is no carriage return before a line feed. -/
theorem next {before rest : List Char} {character : Char}
    (alone : ∀ tail, character = '\r' → rest = '\n' :: tail → False) :
    Unsplit (before ++ [character]) rest := by
  rintro ⟨closing, opening⟩
  rw [List.getLast?_concat, Option.some.injEq] at closing
  obtain ⟨tail, same⟩ := List.head?_eq_some_iff.mp opening
  exact alone tail closing same

theorem concat {before after : List Char} {character : Char} (other : character ≠ '\r') :
    Unsplit (before ++ [character]) after := by
  rintro ⟨closing, -⟩
  simp [other] at closing

end Unsplit

/-- What the bytes of a character tell of it: the first byte is that of a line feed or of a carriage
return, or the first three are those of a separator, only if the character is one of these, and none
of the other bytes could begin a terminator. -/
structure Encoded (character : Char) (lead : UInt8) (others : List UInt8) : Prop where
  bytes : String.utf8EncodeChar character = lead :: others
  feed : lead = 0x0a ↔ character = '\n'
  carriage : lead = 0x0d ↔ character = '\r'
  separator : Blank.isSeparator character = true ↔
    lead = 0xe2 ∧ others[0]? = some 0x80 ∧ (others[1]? = some 0xa8 ∨ others[1]? = some 0xa9)
  long : lead = 0xe2 → others.length = 2
  inner : ∀ byte ∈ others, byte ≠ 0x0a ∧ byte ≠ 0x0d ∧ byte ≠ 0xe2

theorem exists_encoded (character : Char) : ∃ lead others, Encoded character lead others := by
  have same (other : Char) : character = other ↔ character.toNat = other.toNat :=
    Char.toNat_inj.symm
  have byte {value : Nat} {known : UInt8} (small : value < 256) :
      UInt8.ofNat value = known ↔ value = known.toNat := by
    rw [← UInt8.toNat_inj, UInt8.toNat_ofNat_of_lt' small]
  have separates : Blank.isSeparator character = true ↔
      character.toNat = 0x2028 ∨ character.toNat = 0x2029 := by
    simp [Blank.isSeparator, same]
  have encoded (lead : UInt8) (others : List UInt8)
      (bytes : String.utf8EncodeChar character = lead :: others)
      (known : (lead = 0x0a ↔ character.toNat = 10) ∧ (lead = 0x0d ↔ character.toNat = 13) ∧
        (character.toNat = 0x2028 ∨ character.toNat = 0x2029 ↔ lead = 0xe2 ∧
          others[0]? = some 0x80 ∧ (others[1]? = some 0xa8 ∨ others[1]? = some 0xa9)) ∧
        (lead = 0xe2 → others.length = 2) ∧
        ∀ byte ∈ others, byte ≠ 0x0a ∧ byte ≠ 0x0d ∧ byte ≠ 0xe2) :
      Encoded character lead others := by
    obtain ⟨feed, carriage, separator, long, inner⟩ := known
    exact ⟨bytes, feed.trans (same '\n').symm, carriage.trans (same '\r').symm,
      separates.trans separator, long, inner⟩
  have code : character.val.toNat = character.toNat := rfl
  unfold String.utf8EncodeChar at encoded
  simp only [code] at encoded
  generalize character.toNat = value at *
  -- One case for each number of bytes; what the bytes are is then a matter of arithmetic.
  split_ifs at encoded
  all_goals
    refine ⟨_, _, encoded _ _ rfl ?_⟩
    simp (disch := omega) only [byte, UInt8.reduceToNat, List.getElem?_cons_zero,
      List.getElem?_cons_succ, List.getElem?_nil, Option.some.injEq, reduceCtorEq,
      List.length_cons, List.length_nil, List.forall_mem_cons, List.not_mem_nil, false_implies,
      implies_true, ne_eq, and_true, true_and]
    and_intros <;> omega

@[simp] theorem utf8Bytes_nil : utf8Bytes [] = [] := rfl

theorem utf8Bytes_cons (character : Char) (rest : List Char) :
    utf8Bytes (character :: rest) = String.utf8EncodeChar character ++ utf8Bytes rest := by
  simp [utf8Bytes]

theorem Encoded.cons {character : Char} {lead : UInt8} {others : List UInt8}
    (encoded : Encoded character lead others) (rest : List Char) :
    utf8Bytes (character :: rest) = lead :: (others ++ utf8Bytes rest) := by
  rw [utf8Bytes_cons, encoded.bytes, List.cons_append]

/-- The bytes of a text begin with a line feed if the text does. -/
theorem utf8Bytes_feed_iff (text : List Char) :
    (utf8Bytes text)[0]? = some 0x0a ↔ text.head? = some '\n' := by
  cases text with
  | nil => simp
  | cons character rest =>
      obtain ⟨lead, others, encoded⟩ := exists_encoded character
      rw [encoded.cons, List.getElem?_cons_zero, Option.some.injEq, List.head?_cons,
        Option.some.injEq]
      exact encoded.feed

/-- A byte for the end of a line is that of a character that ends one. -/
theorem mem_utf8Bytes_iff {byte : UInt8} {ending : Char}
    (tells : ∀ {character lead others}, Encoded character lead others →
      (lead = byte ↔ character = ending) ∧ byte ∉ others) (text : List Char) :
    byte ∈ utf8Bytes text ↔ ending ∈ text := by
  induction text with
  | nil => simp
  | cons character rest inductionHypothesis =>
      obtain ⟨lead, others, encoded⟩ := exists_encoded character
      obtain ⟨first, apart⟩ := tells encoded
      rw [encoded.cons, List.mem_cons, List.mem_append, inductionHypothesis, List.mem_cons,
        eq_comm, first, eq_comm (a := ending)]
      simp [apart]

/-- The two ways to tell that a text spans several lines agree: by bytes or by characters. -/
theorem Blank.hasLineBreak_iff (text : String) :
    hasLineBreak text = true ↔ ∃ character ∈ text.toList, isLineBreak character = true := by
  have feed := mem_utf8Bytes_iff (fun encoded =>
    ⟨encoded.feed, fun inside => (encoded.inner _ inside).1 rfl⟩) text.toList
  have carriage := mem_utf8Bytes_iff (fun encoded =>
    ⟨encoded.carriage, fun inside => (encoded.inner _ inside).2.1 rfl⟩) text.toList
  simp only [hasLineBreak, isLineBreak, isSeparator, Bool.or_eq_true, List.any_eq_true, beq_iff_eq,
    and_or_left, exists_or, exists_eq_right, feed, carriage, or_assoc]

namespace LineMap

/-- The offsets just after the terminators of a text that begins at the given offset;
a carriage return and the line feed after it count as one. -/
def startsAfter : Nat → List Char → List Nat
  | _, [] => []
  | offset, '\r' :: '\n' :: rest => (offset + 2) :: startsAfter (offset + 2) rest
  | offset, character :: rest =>
    let next := offset + character.utf8Size
    if Blank.isLineBreak character then next :: startsAfter next rest
    else startsAfter next rest

@[simp] theorem startsAfter_nil (offset : Nat) : startsAfter offset [] = [] := by
  simp [startsAfter]

/-- A carriage return with its line feed begins one line. -/
theorem startsAfter_return_feed (offset : Nat) (rest : List Char) :
    startsAfter offset ('\r' :: '\n' :: rest) = (offset + 2) :: startsAfter (offset + 2) rest := by
  simp [startsAfter]

/-- Any other character begins a line if it breaks one. -/
theorem startsAfter_cons {character : Char} {rest : List Char} (offset : Nat)
    (alone : ∀ tail, character = '\r' → rest = '\n' :: tail → False) :
    startsAfter offset (character :: rest) =
      if Blank.isLineBreak character then
        (offset + character.utf8Size) :: startsAfter (offset + character.utf8Size) rest
      else startsAfter (offset + character.utf8Size) rest := by
  rw [startsAfter]
  exact alone

section Bytes

variable {mark offset : Nat} {others following : List UInt8} {text : List Char}

/-- Bytes that no terminator begins with are passed over. -/
theorem startsIn_append
    (inner : ∀ byte ∈ others, byte ≠ 0x0a ∧ byte ≠ 0x0d ∧ byte ≠ 0xe2) :
    startsIn mark offset (others ++ following) =
      startsIn mark (offset + others.length) following := by
  induction others generalizing offset with
  | nil => rfl
  | cons byte others inductionHypothesis =>
      obtain ⟨⟨feed, carriage, lead⟩, inner⟩ := List.forall_mem_cons.mp inner
      have passed : startsIn mark (offset + 1) (others ++ following) =
          startsIn mark (offset + 1 + others.length) following := inductionHypothesis inner
      rw [Nat.add_assoc, Nat.add_comm 1] at passed
      rw [List.cons_append, List.length_cons, ← passed, startsIn]
      simp [feed, carriage, lead]

/-- A character that ends no line is passed over. -/
theorem startsIn_inside {character : Char} {lead : UInt8} (encoded : Encoded character lead others)
    (inside : Blank.isLineBreak character = false) (ready : mark ≤ offset) :
    startsIn mark offset (lead :: (others ++ following)) =
      startsIn mark (offset + character.utf8Size) following := by
  obtain ⟨⟨feed, carriage⟩, separator⟩ : (character ≠ '\n' ∧ character ≠ '\r') ∧
      ¬Blank.isSeparator character = true := by
    simpa [Blank.isLineBreak, Blank.isSeparator, and_assoc] using inside
  rw [ne_eq, ← encoded.feed] at feed
  rw [ne_eq, ← encoded.carriage] at carriage
  rw [encoded.separator] at separator
  have whole : ¬(lead = 0xe2 ∧ (others ++ following)[0]? = some 0x80 ∧
      ((others ++ following)[1]? = some 0xa8 ∨ (others ++ following)[1]? = some 0xa9)) := by
    rintro ⟨opens, rest⟩
    have long := encoded.long opens
    rw [List.getElem?_append_left (by omega), List.getElem?_append_left (by omega)] at rest
    exact separator ⟨opens, rest⟩
  have length : character.utf8Size = 1 + others.length := by
    rw [← String.length_utf8EncodeChar, encoded.bytes, List.length_cons, Nat.add_comm]
  rw [startsIn, if_neg (by omega), if_neg (by simp [carriage]), if_neg (by simp [carriage, feed]),
    if_neg (by simpa [and_assoc] using whole), startsIn_append encoded.inner, length, Nat.add_assoc]

/-- The bytes of a text have the terminators of its characters. -/
theorem startsIn_utf8Bytes (ready : mark ≤ offset) :
    startsIn mark offset (utf8Bytes text) = startsAfter offset text := by
  induction offset, text using startsAfter.induct generalizing mark with
  | case1 offset => simp [startsIn, startsAfter]
  | case2 offset rest inductionHypothesis =>
      -- The line feed lies before the mark that the carriage return has set.
      rw [startsAfter_return_feed]
      change startsIn mark offset (0x0d :: 0x0a :: utf8Bytes rest) = _
      rw [startsIn, if_neg (by omega), if_pos (by simp), startsIn, if_pos (by omega),
        inductionHypothesis (Nat.le_refl _)]
  | case3 offset character rest alone next ends =>
      rename_i inductionHypothesis
      rw [startsAfter_cons offset alone, if_pos ends]
      have goesOn := @inductionHypothesis mark (by omega)
      simp only [Blank.isLineBreak, Bool.or_eq_true, beq_iff_eq, or_assoc] at ends
      rcases ends with rfl | rfl | rfl | rfl
      · change startsIn mark offset (0x0a :: utf8Bytes rest) = _
        rw [startsIn, if_neg (by omega), if_neg (by simp), if_pos (by simp)]
        exact congrArg _ goesOn
      · have single : ¬(utf8Bytes rest)[0]? = some 0x0a := by
          rw [utf8Bytes_feed_iff]
          intro begins
          obtain ⟨tail, same⟩ := List.head?_eq_some_iff.mp begins
          exact alone tail rfl same
        change startsIn mark offset (0x0d :: utf8Bytes rest) = _
        rw [startsIn, if_neg (by omega), if_neg (by simpa using single), if_pos (by simp)]
        exact congrArg _ goesOn
      · change startsIn mark offset (0xe2 :: ([0x80, 0xa8] ++ utf8Bytes rest)) = _
        rw [startsIn, if_neg (by omega), if_neg (by simp), if_neg (by simp), if_pos (by simp),
          startsIn_append (by simp)]
        exact congrArg _ goesOn
      · change startsIn mark offset (0xe2 :: ([0x80, 0xa9] ++ utf8Bytes rest)) = _
        rw [startsIn, if_neg (by omega), if_neg (by simp), if_neg (by simp), if_pos (by simp),
          startsIn_append (by simp)]
        exact congrArg _ goesOn
  | case4 offset character rest alone next stays =>
      rename_i inductionHypothesis
      rw [startsAfter_cons offset alone, if_neg stays]
      obtain ⟨lead, others, encoded⟩ := exists_encoded character
      rw [encoded.cons, startsIn_inside encoded (by simpa using stays) ready]
      exact inductionHypothesis (by omega)

/-- The line map of a text lists the lines of its characters. -/
theorem starts_ofText (text : List Char) : (ofText text).starts = 0 :: startsAfter 0 text :=
  congrArg (List.cons 0) (startsIn_utf8Bytes (Nat.le_refl 0))

end Bytes

/-- The lines of a text are those of its parts, unless a terminator is parted. -/
theorem startsAfter_append (offset : Nat) (first second : List Char)
    (unsplit : Unsplit first second) :
    startsAfter offset (first ++ second) =
      startsAfter offset first ++ startsAfter (offset + byteLength first) second := by
  fun_induction startsAfter offset first with
  | case1 offset => simp
  | case2 offset rest inductionHypothesis =>
      have tail := inductionHypothesis unsplit.of_tail.of_tail
      have length : byteLength ('\r' :: '\n' :: rest) = 2 + byteLength rest := by
        simp only [byteLength_cons, show ('\r').utf8Size = 1 by decide,
          show ('\n').utf8Size = 1 by decide]
        omega
      simp only [List.cons_append, startsAfter_return_feed, tail, length, Nat.add_assoc]
  | case3 offset character rest alone next ends inductionHypothesis =>
      have tail := inductionHypothesis unsplit.of_tail
      rw [List.cons_append, startsAfter_cons offset, if_pos ends, tail]
      · simp [next, Nat.add_assoc]
      · intro after isReturn begins
        cases rest with
        | nil => exact unsplit ⟨by simp [isReturn], by simp_all⟩
        | cons head others =>
            simp only [List.cons_append, List.cons.injEq] at begins
            exact alone others isReturn (by rw [begins.1])
  | case4 offset character rest alone next stays inductionHypothesis =>
      have tail := inductionHypothesis unsplit.of_tail
      rw [List.cons_append, startsAfter_cons offset, if_neg stays, tail]
      · simp [next, Nat.add_assoc]
      · rintro after rfl
        exact absurd rfl stays

/-- A line starts after the offset that its terminator stands at, and not after the end. -/
theorem mem_startsAfter {offset start : Nat} {text : List Char}
    (found : start ∈ startsAfter offset text) :
    offset < start ∧ start ≤ offset + byteLength text := by
  fun_induction startsAfter offset text with
  | case1 offset => simp at found
  | case2 offset rest inductionHypothesis =>
      have carriage : ('\r').utf8Size = 1 := by decide
      have feed : ('\n').utf8Size = 1 := by decide
      simp only [byteLength_cons, carriage, feed]
      rcases List.mem_cons.mp found with rfl | member
      · omega
      · have := inductionHypothesis member
        omega
  | case3 offset character rest alone next ends inductionHypothesis =>
      have positive := character.utf8Size_pos
      simp only [byteLength_cons]
      rcases List.mem_cons.mp found with rfl | member
      · omega
      · have := inductionHypothesis member
        omega
  | case4 offset character rest alone next stays inductionHypothesis =>
      have positive := character.utf8Size_pos
      have := inductionHypothesis found
      simp only [byteLength_cons]
      omega

/-- Lines start one after the other. -/
theorem startsAfter_increasing (offset : Nat) (text : List Char) :
    (startsAfter offset text).Pairwise (· < ·) := by
  fun_induction startsAfter offset text with
  | case1 offset => exact .nil
  | case2 offset rest inductionHypothesis =>
      exact .cons (fun start later => (mem_startsAfter later).1) inductionHypothesis
  | case3 offset character rest alone next ends inductionHypothesis =>
      exact .cons (fun start later => (mem_startsAfter later).1) inductionHypothesis
  | case4 offset character rest alone next stays inductionHypothesis => exact inductionHypothesis

/-- The lines of a text begin one after another. -/
theorem starts_increasing (text : List Char) : (ofText text).starts.Pairwise (· < ·) := by
  rw [starts_ofText]
  exact .cons (fun start later => (mem_startsAfter later).1) (startsAfter_increasing 0 text)

/-- The lines of a text are those of its beginning and those that begin in the rest. -/
theorem starts_ofText_append {before after : List Char} (unsplit : Unsplit before after) :
    (ofText (before ++ after)).starts =
      (ofText before).starts ++ startsAfter (byteLength before) after := by
  simp [starts_ofText, startsAfter_append 0 before after unsplit]

/-- So they can be counted. -/
theorem lineCount_ofText_append {before after : List Char} (unsplit : Unsplit before after) :
    (ofText (before ++ after)).lineCount =
      (ofText before).lineCount + (startsAfter (byteLength before) after).length := by
  simp [lineCount, starts_ofText_append unsplit]

/-- A text has one more line than line terminators. -/
theorem lineCount_ofText (text : List Char) :
    (ofText text).lineCount = (startsAfter 0 text).length + 1 := by
  rw [lineCount, starts_ofText, List.length_cons]

/-- The last line begins in the rest of a text if any line does. -/
theorem lastStart_ofText_append {before after : List Char} (unsplit : Unsplit before after) :
    (ofText (before ++ after)).lastStart =
      (startsAfter (byteLength before) after).getLastD (ofText before).lastStart := by
  rw [lastStart, starts_ofText_append unsplit, lastStart]
  generalize startsAfter (byteLength before) after = later
  cases later with
  | nil => simp
  | cons first rest => simp [List.getLast?_append]

end LineMap

section Search

variable {items : List Nat} {low size : Nat} (target : Nat)

/-- Where the window is halved, the items behind it exceed the target, and the first item in it does
not, if it is not the first of all. So it is with the one item that is left. -/
theorem lastWithin_spec (increasing : items.Pairwise (· < ·)) (filled : 0 < size)
    (fits : low + size ≤ items.length) (begins : low = 0 ∨ items.getD low 0 ≤ target)
    (behind : ∀ (index : Nat) (inside : index < items.length), low + size ≤ index →
      target < items[index]) :
    ∃ inside : lastWithin items target low size < items.length,
      (lastWithin items target low size = 0 ∨ items[lastWithin items target low size] ≤ target) ∧
      ∀ (index : Nat) (inside : index < items.length), lastWithin items target low size < index →
        target < items[index] := by
  have ordered := List.pairwise_iff_getElem.mp increasing
  fun_induction lastWithin items target low size with
  | case1 low size several middle inductionHypothesis =>
      have inside : middle < items.length := by omega
      have item : items.getD middle 0 = items[middle] := by simp [inside]
      by_cases exceeds : target < items.getD middle 0
      · rw [dif_pos exceeds] at inductionHypothesis
        rw [if_pos exceeds]
        rw [item] at exceeds
        refine inductionHypothesis (by omega) (by omega) begins fun index within late => ?_
        rcases Nat.eq_or_lt_of_le (show middle ≤ index by omega) with rfl | later
        · exact exceeds
        · exact Nat.lt_trans exceeds (ordered middle index inside within later)
      · rw [dif_neg exceeds] at inductionHypothesis
        rw [if_neg exceeds]
        refine inductionHypothesis (by omega) (by omega) (.inr ?_) fun index within late => ?_
        · exact Nat.le_of_not_lt exceeds
        · exact behind index within (by omega)
  | case2 low size single =>
      have inside : low < items.length := by omega
      refine ⟨inside, begins.imp_right fun reached => ?_, fun index within late => ?_⟩
      · simpa [inside] using reached
      · exact behind index within (by omega)

/-- A search among increasing items ends where the target stands, or where it would have to be
inserted. -/
theorem binarySearch_cases (increasing : items.Pairwise (· < ·)) :
    (∃ index, binarySearch items target = .ok index ∧ items[index]? = some target) ∨
      ∃ index, binarySearch items target = .error index ∧ index ≤ items.length ∧
        ∀ (place : Nat) (inside : place < items.length),
          (place < index → items[place] < target) ∧ (index ≤ place → target < items[place]) := by
  have ordered := List.pairwise_iff_getElem.mp increasing
  rcases Nat.eq_zero_or_pos items.length with empty | filled
  · obtain rfl := List.length_eq_zero_iff.mp empty
    refine .inr ⟨0, ?_, Nat.le_refl _, by simp⟩
    rw [binarySearch, lastWithin, if_neg (by simp)]
    rfl
  obtain ⟨inside, reached, behind⟩ := lastWithin_spec target increasing filled
    (Nat.le_of_eq (Nat.zero_add _)) (.inl rfl) (fun index within late => by omega)
  unfold binarySearch
  generalize lastWithin items target 0 items.length = index at *
  simp only [List.getElem?_eq_getElem inside]
  by_cases same : items[index] = target
  · exact .inl ⟨index, if_pos same, by rw [List.getElem?_eq_getElem inside, same]⟩
  refine .inr ⟨_, if_neg same, ?_, fun place within => ⟨fun early => ?_, fun late => ?_⟩⟩
  all_goals split at *
  · omega
  · omega
  · rcases Nat.eq_or_lt_of_le (show place ≤ index by omega) with rfl | earlier
    · assumption
    · exact Nat.lt_trans (ordered place index within inside earlier) ‹_›
  · omega
  · exact behind place within (by omega)
  · have first : index = 0 := by omega
    rcases Nat.eq_or_lt_of_le late with rfl | later
    · omega
    · exact behind place within later

end Search

namespace LineMap

section Lookup

variable {map : LineMap} {offset : Nat}

/-- The line of an offset is the last one that starts at or before it. That one is found in any
case: no offset would have to be inserted before the first start, which is zero. -/
theorem lineOf_spec (increasing : map.starts.Pairwise (· < ·)) (zero : map.starts.head? = some 0) :
    IsGreatest {line | line < map.lineCount ∧ map.lineStart line ≤ offset} (map.lineOf offset) ∧
      binarySearch map.starts offset ≠ .error 0 := by
  have ordered := List.pairwise_iff_getElem.mp increasing
  obtain ⟨later, starts⟩ := List.head?_eq_some_iff.mp zero
  have filled : 0 < map.starts.length := by simp [starts]
  have first : map.starts[0] = 0 := by simp [starts]
  have start (line : Nat) (inside : line < map.starts.length) :
      map.lineStart line = map.starts[line] := by
    simp [lineStart, inside]
  unfold lineOf
  rcases binarySearch_cases offset increasing with
    ⟨line, found, same⟩ | ⟨line, absent, most, parts⟩
  · obtain ⟨inside, same⟩ := List.getElem?_eq_some_iff.mp same
    rw [found]
    refine ⟨⟨⟨inside, ?_⟩, fun other reached => ?_⟩, by simp⟩
    · rw [start line inside, same]
    · obtain ⟨within, reaches⟩ := reached
      rw [start other within] at reaches
      change other ≤ line
      by_contra beyond
      have := ordered line other inside within (by omega)
      omega
  · rw [absent]
    have positive : 0 < line := by
      by_contra none
      have := (parts 0 filled).2 (by omega)
      omega
    refine ⟨⟨⟨by simp only [lineCount]; omega, ?_⟩, fun other reached => ?_⟩, by simp; omega⟩
    · have inside : line - 1 < map.starts.length := by omega
      simp only
      rw [start _ inside]
      exact Nat.le_of_lt ((parts _ inside).1 (by omega))
    · obtain ⟨within, reaches⟩ := reached
      rw [start other within] at reaches
      change other ≤ line - 1
      by_contra beyond
      have := (parts other within).2 (by omega)
      omega

/-- The first line begins at the start. -/
theorem head?_starts (text : List Char) : (ofText text).starts.head? = some 0 := rfl

/-- The line of an offset is the last one that begins no later. -/
theorem lineOf_isGreatest (text : List Char) (offset : Nat) :
    IsGreatest {line | line < (ofText text).lineCount ∧ (ofText text).lineStart line ≤ offset}
      ((ofText text).lineOf offset) :=
  (lineOf_spec (starts_increasing text) (head?_starts text)).1

/-- Each offset has a line, which starts at or before it. -/
theorem lineOf_lt (text : List Char) (offset : Nat) :
    (ofText text).lineOf offset < (ofText text).starts.length ∧
      (ofText text).lineStart ((ofText text).lineOf offset) ≤ offset :=
  (lineOf_isGreatest text offset).1

/-- If no line starts between the end of a beginning and an offset, the offset lies in the last
line of the beginning. -/
theorem positionOf_beyond {before after : List Char} (unsplit : Unsplit before after)
    (reached : byteLength before ≤ offset)
    (beyond : ∀ start ∈ startsAfter (byteLength before) after, offset < start) :
    (ofText (before ++ after)).positionOf offset =
      ⟨(ofText before).lineCount, offset - (ofText before).lastStart⟩ := by
  have positive : 0 < (ofText before).starts.length := by
    rw [starts_ofText]
    exact Nat.succ_pos _
  have starts := starts_ofText_append unsplit
  have start : (ofText (before ++ after)).lineStart ((ofText before).starts.length - 1) =
      (ofText before).lastStart := by
    rw [lineStart, starts, List.getD_eq_getElem?_getD, List.getElem?_append_left (by omega),
      lastStart, List.getLastD_eq_getLast?, List.getLast?_eq_getElem?]
  have early : (ofText before).lastStart ≤ offset := by
    have within : ∀ start ∈ (ofText before).starts, start ≤ byteLength before := by
      rw [starts_ofText]
      refine List.forall_mem_cons.mpr ⟨Nat.zero_le _, fun start member => ?_⟩
      simpa using (mem_startsAfter member).2
    refine Nat.le_trans (within _ ?_) reached
    rw [lastStart, List.getLastD_eq_getLast?,
      List.getLast?_eq_some_getLast (List.length_pos_iff.mp positive), Option.getD_some]
    exact List.getLast_mem _
  have line : (ofText (before ++ after)).lineOf offset = (ofText before).starts.length - 1 := by
    refine (lineOf_isGreatest _ offset).unique ⟨⟨?_, start ▸ early⟩, fun other found => ?_⟩
    · rw [lineCount, starts, List.length_append]
      omega
    · obtain ⟨inside, begins⟩ := found
      by_contra late
      rw [lineCount, starts, List.length_append] at inside
      rw [lineStart, starts, List.getD_eq_getElem?_getD, List.getElem?_append_right (by omega),
        List.getElem?_eq_getElem (by omega), Option.getD_some] at begins
      have := beyond _ (List.getElem_mem (show other - (ofText before).starts.length <
        (startsAfter (byteLength before) after).length by omega))
      omega
  rw [positionOf, line]
  simp only [start, lineCount, Nat.sub_add_cancel positive]

/-- The position of an offset counts the lines before it and the bytes since the last of
them began. -/
theorem positionOf_append {before after : List Char} (unsplit : Unsplit before after) :
    (ofText (before ++ after)).positionOf (byteLength before) =
      ⟨(ofText before).lineCount, byteLength before - (ofText before).lastStart⟩ :=
  positionOf_beyond unsplit (Nat.le_refl _) fun _ later => (mem_startsAfter later).1

end Lookup

end LineMap

end EcmaSyntax
