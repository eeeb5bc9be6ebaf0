import EcmaSyntax.Text.Source

namespace EcmaSyntax

namespace Source

/-- The cells of a text in a list. -/
def cellList (text : List Char) : List (Option Char) :=
  text.flatMap fun character =>
    some character :: List.replicate (character.utf8Size - 1) none

@[simp] theorem cellList_nil : cellList [] = [] := rfl

/-- A character takes one cell for each of its bytes. -/
@[simp] theorem cellList_cons (character : Char) (rest : List Char) :
    cellList (character :: rest) =
      some character :: (List.replicate (character.utf8Size - 1) none ++ cellList rest) := by
  simp [cellList]

@[simp] theorem cellList_append (first second : List Char) :
    cellList (first ++ second) = cellList first ++ cellList second := by
  simp [cellList]

@[simp] theorem length_cellList (text : List Char) :
    (cellList text).length = byteLength text := by
  induction text with
  | nil => rfl
  | cons character rest inductionHypothesis =>
      have := character.utf8Size_pos
      simp only [cellList_cons, List.length_cons, List.length_append, List.length_replicate,
        byteLength_cons, inductionHypothesis]
      omega

/-- The characters of a text can be told from its cells. -/
@[simp] theorem filterMap_cellList (text : List Char) :
    (cellList text).filterMap id = text := by
  induction text with
  | nil => rfl
  | cons character rest inductionHypothesis =>
      simpa [List.filterMap_append] using inductionHypothesis

theorem cells_toList (source : Source) : source.cells.toList = cellList source.text := by
  rw [source.cells_eq]
  rfl

theorem size_eq (source : Source) : source.size = byteLength source.text := by
  rw [size, ← Array.length_toList, cells_toList, length_cellList]

/-- The character at an offset is found in its cell. -/
theorem charAt?_eq (source : Source) (offset : Nat) :
    source.charAt? offset = (cellList source.text)[offset]?.join := by
  rw [charAt?, ← cells_toList, Array.getElem?_toList]

theorem byteLength_pos {text : List Char} (filled : text ≠ []) : 0 < byteLength text := by
  obtain ⟨character, rest, rfl⟩ := List.exists_cons_of_ne_nil filled
  rw [byteLength_cons]
  exact Nat.add_pos_left character.utf8Size_pos _

/-- An offset parts a text into the characters before and after it. -/
structure At (source : Source) (offset : Nat) (before after : List Char) : Prop where
  text : source.text = before ++ after
  offset : byteLength before = offset

namespace At

variable {source : Source} {offset : Nat} {before after : List Char}

/-- A text stands behind its start. -/
theorem start (source : Source) : source.At 0 [] source.text := ⟨rfl, rfl⟩

/-- A text stands before its end. -/
theorem finish (source : Source) : source.At source.size source.text [] :=
  ⟨by simp, (size_eq source).symm⟩

/-- What comes before an offset and what comes after it make up the text. -/
theorem add_eq_size (parted : source.At offset before after) :
    offset + byteLength after = source.size := by
  rw [size_eq, parted.text, byteLength_append, parted.offset]

theorem le_size (parted : source.At offset before after) : offset ≤ source.size := by
  have := parted.add_eq_size
  omega

/-- The character at an offset is the first one behind it. -/
theorem charAt? (parted : source.At offset before after) :
    source.charAt? offset = after.head? := by
  rw [charAt?_eq, parted.text, cellList_append, List.getElem?_append_right (by
    simp [parted.offset])]
  simp only [length_cellList, parted.offset, Nat.sub_self]
  cases after <;> simp

/-- No character begins within another one. -/
theorem charAt?_within {character : Char} {rest : List Char} {inner : Nat}
    (parted : source.At offset before (character :: rest)) (after : offset < inner)
    (inside : inner < offset + character.utf8Size) : source.charAt? inner = none := by
  rw [charAt?_eq, parted.text, cellList_append, List.getElem?_append_right (by
    simp only [length_cellList, parted.offset]
    omega)]
  obtain ⟨distance, same⟩ : ∃ distance, inner - offset = distance + 1 :=
    ⟨inner - offset - 1, by omega⟩
  simp only [length_cellList, parted.offset, same, cellList_cons, List.getElem?_cons_succ]
  rw [List.getElem?_append_left (by simp only [List.length_replicate]; omega),
    List.getElem?_replicate_of_lt (by omega)]
  rfl

/-- The offset behind a character parts the text after it. -/
theorem next {character : Char} {rest : List Char}
    (parted : source.At offset before (character :: rest)) :
    source.At (offset + character.utf8Size) (before ++ [character]) rest :=
  ⟨by simp [parted.text], by simp [parted.offset]⟩

theorem append {first second : List Char} (parted : source.At offset before (first ++ second)) :
    source.At (offset + byteLength first) (before ++ first) second :=
  ⟨by simp [parted.text], by simp [parted.offset]⟩

/-- The offset decides which characters are before it. -/
theorem unique {otherBefore otherAfter : List Char} (parted : source.At offset before after)
    (other : source.At offset otherBefore otherAfter) :
    before = otherBefore ∧ after = otherAfter := by
  have texts := parted.text.symm.trans other.text
  have lengths := parted.offset.trans other.offset.symm
  clear parted other
  induction before generalizing otherBefore with
  | nil =>
      cases otherBefore with
      | nil => exact ⟨rfl, by simpa using texts⟩
      | cons character rest =>
          have := character.utf8Size_pos
          simp at lengths
          omega
  | cons character rest inductionHypothesis =>
      cases otherBefore with
      | nil =>
          have := character.utf8Size_pos
          simp at lengths
          omega
      | cons otherCharacter otherRest =>
          simp only [List.cons_append, List.cons.injEq] at texts
          obtain ⟨rfl, tails⟩ := texts
          simp only [byteLength_cons, Nat.add_left_cancel_iff] at lengths
          obtain ⟨rfl, same⟩ := inductionHypothesis tails lengths
          exact ⟨rfl, same⟩

/-- Two offsets in order have the text between them. -/
theorem between {other : Nat} {otherBefore otherAfter : List Char}
    (parted : source.At offset before after) (later : source.At other otherBefore otherAfter)
    (ordered : offset ≤ other) :
    ∃ text, after = text ++ otherAfter ∧ other = offset + byteLength text := by
  have texts := parted.text.symm.trans later.text
  rcases List.append_eq_append_iff.mp texts with ⟨text, rfl, rfl⟩ | ⟨text, rfl, rfl⟩
  · refine ⟨text, rfl, ?_⟩
    rw [← later.offset, byteLength_append, parted.offset]
  · have first := parted.offset
    have second := later.offset
    rw [byteLength_append] at first
    cases text with
    | nil => exact ⟨[], rfl, by simp at first ⊢; omega⟩
    | cons character rest =>
        have := character.utf8Size_pos
        rw [byteLength_cons] at first
        omega

end At

variable {source : Source} {offset : Nat}

/-- A text is parted before each of its characters. -/
theorem at_of_charAt? {character : Char} (found : source.charAt? offset = some character) :
    ∃ before rest, source.At offset before (character :: rest) := by
  rw [charAt?_eq, Option.join_eq_some_iff] at found
  suffices step : ∀ (text before : List Char) (offset : Nat),
      (cellList text)[offset]? = some (some character) →
        ∃ inner rest, text = inner ++ character :: rest ∧ byteLength inner = offset by
    obtain ⟨before, rest, text, same⟩ := step source.text [] offset found
    exact ⟨before, rest, text, same⟩
  intro text before
  induction text with
  | nil => simp
  | cons first rest inductionHypothesis =>
      intro offset found
      rw [cellList_cons] at found
      cases offset with
      | zero =>
          simp only [List.getElem?_cons_zero, Option.some.injEq] at found
          exact ⟨[], rest, by simp [found], rfl⟩
      | succ offset =>
          rw [List.getElem?_cons_succ] at found
          have positive := first.utf8Size_pos
          rcases Nat.lt_or_ge offset (first.utf8Size - 1) with inside | beyond
          · rw [List.getElem?_append_left (by simpa using inside),
              List.getElem?_replicate_of_lt inside] at found
            simp at found
          · rw [List.getElem?_append_right (by simpa using beyond),
              List.length_replicate] at found
            obtain ⟨inner, tail, same, length⟩ := inductionHypothesis _ found
            exact ⟨first :: inner, tail, by simp [same], by simp [length]; omega⟩

/-- A boundary is an offset that parts the text. -/
theorem isBoundary_iff :
    source.isBoundary offset = true ↔ ∃ before after, source.At offset before after := by
  simp only [isBoundary, Bool.or_eq_true, beq_iff_eq, Option.isSome_iff_exists]
  constructor
  · rintro (rfl | ⟨character, found⟩)
    · exact ⟨_, _, At.finish source⟩
    · obtain ⟨before, rest, parted⟩ := at_of_charAt? found
      exact ⟨before, _, parted⟩
  · rintro ⟨before, after, parted⟩
    cases after with
    | nil => exact .inl (by simpa using parted.add_eq_size)
    | cons character rest => exact .inr ⟨character, by simpa using parted.charAt?⟩

theorem isBoundary_zero (source : Source) : source.isBoundary 0 = true :=
  isBoundary_iff.mpr ⟨_, _, At.start source⟩

theorem isBoundary_size (source : Source) : source.isBoundary source.size = true :=
  isBoundary_iff.mpr ⟨_, _, At.finish source⟩

theorem le_size_of_isBoundary (boundary : source.isBoundary offset = true) :
    offset ≤ source.size := by
  obtain ⟨before, after, parted⟩ := isBoundary_iff.mp boundary
  exact parted.le_size

theorem isBoundary_of_charAt? {character : Char}
    (found : source.charAt? offset = some character) : source.isBoundary offset = true := by
  obtain ⟨before, rest, parted⟩ := at_of_charAt? found
  exact isBoundary_iff.mpr ⟨_, _, parted⟩

/-- Behind each character there is a boundary. -/
theorem isBoundary_next {character : Char} (found : source.charAt? offset = some character) :
    source.isBoundary (offset + character.utf8Size) = true := by
  obtain ⟨before, rest, parted⟩ := at_of_charAt? found
  exact isBoundary_iff.mpr ⟨_, _, parted.next⟩

/-- A character ends within the text. -/
theorem add_utf8Size_le_size {character : Char}
    (found : source.charAt? offset = some character) :
    offset + character.utf8Size ≤ source.size :=
  le_size_of_isBoundary (isBoundary_next found)

theorem lt_size_of_charAt? {character : Char}
    (found : source.charAt? offset = some character) : offset < source.size := by
  have := add_utf8Size_le_size found
  have := character.utf8Size_pos
  omega

/-- A boundary without a character behind it is the end of the text. -/
theorem eq_size_of_charAt?_eq_none (boundary : source.isBoundary offset = true)
    (absent : source.charAt? offset = none) : offset = source.size := by
  simpa [isBoundary, absent] using boundary

/-- A character stands at an offset if it is found there. -/
theorem hasAt_iff {character : Char} :
    source.hasAt offset character = true ↔ source.charAt? offset = some character := by
  simp [hasAt]

/-- A search ends early if there is a character that it looks for. -/
theorem seek_lt_iff (test : Char → Bool) (offset count : Nat) :
    source.seek test count offset < offset + count ↔
      ∃ inner, offset ≤ inner ∧ inner < offset + count ∧
        (source.charAt? inner).any test = true := by
  induction count generalizing offset with
  | zero => simp [seek]; omega
  | succ count inductionHypothesis =>
      unfold seek
      split
      · next here => exact ⟨fun _ => ⟨offset, Nat.le_refl _, by omega, here⟩, fun _ => by omega⟩
      · next other =>
          rw [show offset + (count + 1) = offset + 1 + count by omega, inductionHypothesis]
          constructor
          · rintro ⟨inner, after, before, found⟩
            exact ⟨inner, by omega, before, found⟩
          · rintro ⟨inner, after, before, found⟩
            rcases Nat.eq_or_lt_of_le after with rfl | later
            · exact absurd found other
            · exact ⟨inner, later, before, found⟩

/-- A character stands between two offsets if it begins between them. -/
theorem mem_charsBetween {start stop : Nat} {character : Char} :
    character ∈ source.charsBetween start stop ↔
      ∃ inner, start ≤ inner ∧ inner < stop ∧ source.charAt? inner = some character := by
  simp only [charsBetween, List.mem_filterMap, id, exists_eq_right, charAt?, Array.mem_toList_iff,
    Array.mem_iff_getElem?, Array.getElem?_extract, Option.join_eq_some_iff]
  constructor
  · rintro ⟨index, found⟩
    split at found
    · next inside => exact ⟨start + index, by omega, by omega, found⟩
    · cases found
  · rintro ⟨inner, after, before, found⟩
    have inside := (Array.getElem?_eq_some_iff.mp found).1
    refine ⟨inner - start, ?_⟩
    rw [if_pos (by omega), show start + (inner - start) = inner by omega]
    exact found

/-- A test is passed between two offsets if a character between them passes it. -/
theorem anyBetween_eq (source : Source) (test : Char → Bool) (start stop : Nat) :
    source.anyBetween test start stop = (source.charsBetween start stop).any test := by
  rw [Bool.eq_iff_iff, anyBetween, decide_eq_true_iff, List.any_eq_true]
  simp only [mem_charsBetween]
  rcases Nat.le_total start stop with ordered | swapped
  · have same := source.seek_lt_iff test start (stop - start)
    rw [show start + (stop - start) = stop by omega] at same
    simp only [same, Option.any_eq_true]
    constructor
    · rintro ⟨inner, after, before, character, found, passes⟩
      exact ⟨character, ⟨inner, after, before, found⟩, passes⟩
    · rintro ⟨character, ⟨inner, after, before, found⟩, passes⟩
      exact ⟨inner, after, before, character, found, passes⟩
  · rw [Nat.sub_eq_zero_of_le swapped]
    constructor
    · exact fun ahead => absurd ahead (Nat.not_lt_of_le swapped)
    · rintro ⟨_, ⟨inner, after, before, -⟩, -⟩
      omega

/-- The characters between two offsets are those of the text that parts them. -/
theorem charsBetween_eq {first second : List Char} {before : List Char}
    (parted : source.At offset before (first ++ second)) :
    source.charsBetween offset (offset + byteLength first) = first := by
  rw [charsBetween, Array.toList_extract, cells_toList, List.extract_eq_take_drop, parted.text,
    cellList_append, cellList_append, List.drop_left' (by simp [parted.offset]),
    Nat.add_sub_cancel_left, List.take_left' (by simp), filterMap_cellList]

/-- The text between two boundaries can be cut out. -/
theorem slice?_eq {first second : List Char} {before : List Char}
    (parted : source.At offset before (first ++ second)) :
    source.slice? offset (offset + byteLength first) = some first := by
  have begins := isBoundary_iff.mpr ⟨_, _, parted⟩
  have ends := isBoundary_iff.mpr ⟨_, _, parted.append⟩
  simp [slice?, begins, ends, charsBetween_eq parted]

theorem slice?_self (boundary : source.isBoundary offset = true) :
    source.slice? offset offset = some [] := by
  simp [slice?, boundary, charsBetween]

/-- Two boundaries in order have a text between them. -/
theorem slice?_isSome {start stop : Nat} (begins : source.isBoundary start = true)
    (ends : source.isBoundary stop = true) (ordered : start ≤ stop) :
    ∃ text, source.slice? start stop = some text := by
  simp [slice?, begins, ends, ordered]

/-- What is cut out is the text between two boundaries. -/
theorem slice?_eq_some {start stop : Nat} {text : List Char} :
    source.slice? start stop = some text ↔
      ∃ before after, source.At start before (text ++ after) ∧ stop = start + byteLength text := by
  constructor
  · intro sliced
    have bounds : (start ≤ stop ∧ source.isBoundary start = true) ∧
        source.isBoundary stop = true := by
      unfold slice? at sliced
      split at sliced
      · next holds => simpa using holds
      · simp at sliced
    obtain ⟨before, after, parted⟩ := isBoundary_iff.mp bounds.1.2
    obtain ⟨others, rest, later⟩ := isBoundary_iff.mp bounds.2
    obtain ⟨between, rfl, rfl⟩ := parted.between later bounds.1.1
    rw [slice?_eq parted, Option.some.injEq] at sliced
    subst sliced
    exact ⟨before, rest, parted, rfl⟩
  · rintro ⟨before, after, parted, rfl⟩
    exact slice?_eq parted

/-- Two texts that follow each other are one text. -/
theorem slice?_append {start middle stop : Nat} {first second : List Char}
    (begins : source.slice? start middle = some first)
    (ends : source.slice? middle stop = some second) :
    source.slice? start stop = some (first ++ second) := by
  obtain ⟨before, after, parted, rfl⟩ := slice?_eq_some.mp begins
  obtain ⟨others, rest, later, rfl⟩ := slice?_eq_some.mp ends
  obtain ⟨-, rfl⟩ := parted.append.unique later
  refine slice?_eq_some.mpr ⟨before, rest, ?_, ?_⟩
  · rw [List.append_assoc]
    exact parted
  · rw [byteLength_append, Nat.add_assoc]

end Source

end EcmaSyntax
