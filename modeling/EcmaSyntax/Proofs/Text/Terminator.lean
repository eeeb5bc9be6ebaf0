import EcmaSyntax.Proofs.Text.LineMap

namespace EcmaSyntax

/-- A piece of a text in its place. -/
structure Terminator where
  before : List Char
  mark : List Char
  after : List Char
deriving DecidableEq, Repr

namespace Terminator

/-- A line terminator stands in a text: a carriage return and a line feed together, one of them
without the other, or a separator. -/
structure Stands (terminator : Terminator) (text : List Char) : Prop where
  parts : terminator.before ++ (terminator.mark ++ terminator.after) = text
  mark : terminator.mark = ['\r', '\n'] ∨
    (terminator.mark = ['\r'] ∧ terminator.after.head? ≠ some '\n') ∨
    (terminator.mark = ['\n'] ∧ terminator.before.getLast? ≠ some '\r') ∨
    terminator.mark = ['\u2028'] ∨ terminator.mark = ['\u2029']

/-- The offset just after a terminator. -/
def stop (terminator : Terminator) : Nat := byteLength (terminator.before ++ terminator.mark)

/-- The terminators in the rest of a text, with what comes before the rest. -/
def within : List Char → List Char → List Terminator
  | _, [] => []
  | before, '\r' :: '\n' :: rest =>
    ⟨before, ['\r', '\n'], rest⟩ :: within (before ++ ['\r', '\n']) rest
  | before, character :: rest =>
    if Blank.isLineBreak character then
      ⟨before, [character], rest⟩ :: within (before ++ [character]) rest
    else within (before ++ [character]) rest

variable {before rest : List Char} {terminator : Terminator}

/-- The lines of the rest of a text start where its terminators stop. -/
theorem map_stop_within (before rest : List Char) :
    (within before rest).map stop = LineMap.startsAfter (byteLength before) rest := by
  fun_induction within before rest with
  | case1 before => simp
  | case2 before rest inductionHypothesis =>
      rw [List.map_cons, inductionHypothesis, LineMap.startsAfter_return_feed, byteLength_append]
      simp [stop, show ('\r').utf8Size = 1 by decide, show ('\n').utf8Size = 1 by decide]
  | case3 before character rest alone ends inductionHypothesis =>
      rw [List.map_cons, inductionHypothesis, LineMap.startsAfter_cons _ alone, if_pos ends]
      simp [stop]
  | case4 before character rest alone stays inductionHypothesis =>
      rw [inductionHypothesis, LineMap.startsAfter_cons _ alone, if_neg stays]
      simp

/-- What is listed is a terminator of the text. -/
theorem stands_of_mem_within (listed : terminator ∈ within before rest)
    (unsplit : Unsplit before rest) : terminator.Stands (before ++ rest) := by
  fun_induction within before rest with
  | case1 before => simp at listed
  | case2 before rest inductionHypothesis =>
      rcases List.mem_cons.mp listed with rfl | listed
      · exact ⟨by simp, .inl rfl⟩
      · have whole : Unsplit (before ++ ['\r', '\n']) rest := by
          rw [show ['\r', '\n'] = ['\r'] ++ ['\n'] by rfl, ← List.append_assoc]
          exact .concat (by decide)
        simpa using inductionHypothesis listed whole
  | case3 before character rest alone ends inductionHypothesis =>
      rcases List.mem_cons.mp listed with rfl | listed
      · refine ⟨by simp, ?_⟩
        simp only [Blank.isLineBreak, Bool.or_eq_true, beq_iff_eq, or_assoc] at ends
        rcases ends with rfl | rfl | rfl | rfl
        · refine .inr (.inr (.inl ⟨rfl, fun closing => unsplit ⟨closing, rfl⟩⟩))
        · refine .inr (.inl ⟨rfl, fun opening => ?_⟩)
          obtain ⟨tail, same⟩ := List.head?_eq_some_iff.mp opening
          exact alone tail rfl same
        · simp
        · simp
      · simpa using inductionHypothesis listed (.next alone)
  | case4 before character rest alone stays inductionHypothesis =>
      simpa using inductionHypothesis listed (.next alone)

/-- A terminator consists of two characters, or of one that ends a line and of which the other
one is not beside it. -/
theorem Stands.cases {text : List Char} (stands : terminator.Stands text) :
    terminator.mark = ['\r', '\n'] ∨ ∃ character, terminator.mark = [character] ∧
      Blank.isLineBreak character = true ∧
      (character = '\r' → terminator.after.head? ≠ some '\n') ∧
      (character = '\n' → terminator.before.getLast? ≠ some '\r') := by
  rcases stands.mark with same | ⟨same, other⟩ | ⟨same, other⟩ | same | same
  · exact .inl same
  · exact .inr ⟨_, same, by decide, fun _ => other, by simp⟩
  · exact .inr ⟨_, same, by decide, by simp, fun _ => other⟩
  · exact .inr ⟨_, same, by decide, by simp, by simp⟩
  · exact .inr ⟨_, same, by decide, by simp, by simp⟩

/-- A terminator of the text is listed, unless it stands in what comes before the rest. -/
theorem mem_within_of_stands {start inner mark after : List Char}
    (stands : (⟨start, mark, after⟩ : Terminator).Stands (before ++ rest))
    (begins : start = before ++ inner) : ⟨start, mark, after⟩ ∈ within before rest := by
  subst begins
  have parts : inner ++ (mark ++ after) = rest := by simpa using stands.parts
  have form := stands.cases
  clear stands
  simp only at form
  fun_induction within before rest generalizing inner with
  | case1 before =>
      rcases form with rfl | ⟨character, rfl, -⟩
      all_goals simp at parts
  | case2 before rest inductionHypothesis =>
      match inner with
      | [] =>
          rcases form with rfl | ⟨character, rfl, -, apart, -⟩
          · obtain rfl : after = rest := by simpa using parts
            simp
          · obtain ⟨rfl, rfl⟩ : character = '\r' ∧ after = '\n' :: rest := by simpa using parts
            simp at apart
      | [first] =>
          rcases form with rfl | ⟨character, rfl, -, -, apart⟩
          · simp at parts
          · obtain ⟨rfl, rfl, -⟩ : first = '\r' ∧ character = '\n' ∧ after = rest := by
              simpa using parts
            simp at apart
      | first :: second :: inner =>
          obtain ⟨rfl, rfl, others⟩ : first = '\r' ∧ second = '\n' ∧
              inner ++ (mark ++ after) = rest := by simpa using parts
          refine List.mem_cons_of_mem _ ?_
          have shifted : before ++ '\r' :: '\n' :: inner = before ++ ['\r', '\n'] ++ inner := by simp
          rw [shifted] at form ⊢
          exact inductionHypothesis others form
  | case3 before character rest alone ends inductionHypothesis =>
      cases inner with
      | nil =>
          rcases form with rfl | ⟨other, rfl, -⟩
          · obtain ⟨rfl, rfl⟩ := List.cons.inj parts
            exact (alone after rfl rfl).elim
          · obtain ⟨rfl, rfl⟩ := List.cons.inj parts
            simp
      | cons first inner =>
          obtain ⟨rfl, others⟩ := List.cons.inj parts
          refine List.mem_cons_of_mem _ ?_
          have shifted : before ++ first :: inner = before ++ [first] ++ inner := by simp
          rw [shifted] at form ⊢
          exact inductionHypothesis others form
  | case4 before character rest alone stays inductionHypothesis =>
      cases inner with
      | nil =>
          rcases form with rfl | ⟨other, rfl, ends, -⟩
          · obtain ⟨rfl, rfl⟩ := List.cons.inj parts
            exact (alone after rfl rfl).elim
          · obtain ⟨rfl, rfl⟩ := List.cons.inj parts
            exact absurd ends stays
      | cons first inner =>
          obtain ⟨rfl, others⟩ := List.cons.inj parts
          have shifted : before ++ first :: inner = before ++ [first] ++ inner := by simp
          rw [shifted] at form ⊢
          exact inductionHypothesis others form

/-- The terminators of a text are listed from left to right, each of them once. -/
theorem mem_within_iff {text : List Char} :
    terminator ∈ within [] text ↔ terminator.Stands text := by
  constructor
  · intro listed
    exact stands_of_mem_within listed (.nil_left text)
  · intro stands
    have whole : terminator.Stands ([] ++ text) := stands
    exact mem_within_of_stands whole (List.nil_append _).symm

/-- No two terminators of a text stand in one place. -/
theorem within_nodup (text : List Char) : (within [] text).Nodup := by
  have increasing := LineMap.startsAfter_increasing 0 text
  rw [← byteLength_nil, ← map_stop_within, List.pairwise_map] at increasing
  refine increasing.imp fun {first second} before same => ?_
  rw [same] at before
  exact Nat.lt_irrefl _ before

end Terminator

namespace LineMap

/-- A map lists the lines of a text: the first starts at zero, and each other one just after one of
the terminators of the text, one after the other. It finds the last line that starts at or before
an offset, without looking before the first, and counts the bytes since its start. -/
structure Maps (map : LineMap) (text : List Char) : Prop where
  increasing : map.starts.Pairwise (· < ·)
  terminators : ∃ terminators : List Terminator, terminators.Nodup ∧
    (∀ terminator, terminator ∈ terminators ↔ terminator.Stands text) ∧
    map.starts = 0 :: terminators.map Terminator.stop
  line : ∀ offset, IsGreatest {line | line < map.lineCount ∧ map.lineStart line ≤ offset}
    (map.lineOf offset)
  follows : ∀ offset, binarySearch map.starts offset ≠ .error 0
  position : ∀ offset, (map.positionOf offset).line = map.lineOf offset + 1 ∧
    map.lineStart (map.lineOf offset) + (map.positionOf offset).column = offset

/-- No line begins in a text without line breaks. -/
theorem startsAfter_eq_nil_iff (offset : Nat) (text : List Char) :
    startsAfter offset text = [] ↔ ∀ character ∈ text, Blank.isLineBreak character = false := by
  fun_induction startsAfter offset text with
  | case1 offset => simp
  | case2 offset rest inductionHypothesis => simp [show Blank.isLineBreak '\r' = true by decide]
  | case3 offset character rest alone next ends inductionHypothesis => simp [ends]
  | case4 offset character rest alone next stays inductionHypothesis =>
      rw [inductionHypothesis, List.forall_mem_cons]
      simp [stays]

/-- The line map of a text is right, and tells several lines where a line break is found. -/
theorem ofText_maps (text : String) : (ofText text.toList).Maps text.toList ∧
    (Blank.hasLineBreak text = true ↔ 1 < (ofText text.toList).lineCount) := by
  have increasing := starts_increasing text.toList
  have zero := head?_starts text.toList
  refine ⟨⟨increasing, ⟨Terminator.within [] text.toList, Terminator.within_nodup _,
    fun terminator => Terminator.mem_within_iff, ?_⟩, fun offset => ?_, fun offset => ?_,
    fun offset => ⟨rfl, ?_⟩⟩, ?_⟩
  · rw [starts_ofText, Terminator.map_stop_within, byteLength_nil]
  · exact (lineOf_spec increasing zero).1
  · exact (lineOf_spec increasing zero).2
  · exact Nat.add_sub_cancel' (lineOf_lt text.toList offset).2
  · have several : 1 < (ofText text.toList).lineCount ↔ startsAfter 0 text.toList ≠ [] := by
      rw [lineCount_ofText, ← List.length_pos_iff]
      omega
    rw [several, ne_eq, startsAfter_eq_nil_iff, Blank.hasLineBreak_iff]
    simp

end LineMap

/-- An offset lies between a carriage return and the line feed that ends a line with it. -/
def Divides (offset : Nat) (text : List Char) : Prop :=
  ∃ before after, text = before ++ '\r' :: '\n' :: after ∧ offset = byteLength before + 1

/-- What is taken of a text are all the characters that end at or before an offset. -/
theorem takeBytes_spec (text : List Char) (offset : Nat) :
    ∃ after, text = takeBytes text offset ++ after ∧ byteLength (takeBytes text offset) ≤ offset ∧
      ∀ character rest, after = character :: rest →
        offset < byteLength (takeBytes text offset) + character.utf8Size := by
  induction text generalizing offset with
  | nil => exact ⟨[], by simp [takeBytes]⟩
  | cons first others inductionHypothesis =>
      rw [takeBytes]
      by_cases fits : first.utf8Size ≤ offset
      · rw [if_pos fits]
        obtain ⟨after, parts, within, beyond⟩ := inductionHypothesis (offset - first.utf8Size)
        refine ⟨after, by rw [List.cons_append, ← parts], ?_, fun character rest same => ?_⟩
        · rw [byteLength_cons]
          omega
        · have := beyond character rest same
          rw [byteLength_cons]
          omega
      · rw [if_neg fits]
        refine ⟨first :: others, rfl, Nat.zero_le _, fun character rest same => ?_⟩
        obtain ⟨rfl, -⟩ := List.cons.inj same
        rw [byteLength_nil]
        omega

namespace LineMap

/-- A line starts at the earliest after the character that comes first. -/
theorem add_utf8Size_le_of_mem {offset start : Nat} {character : Char} {rest : List Char}
    (found : start ∈ startsAfter offset (character :: rest)) :
    offset + character.utf8Size ≤ start := by
  by_cases pair : ∃ tail, character = '\r' ∧ rest = '\n' :: tail
  · obtain ⟨tail, rfl, rfl⟩ := pair
    rw [startsAfter_return_feed] at found
    have carriage : ('\r').utf8Size = 1 := by decide
    rcases List.mem_cons.mp found with rfl | later
    · omega
    · have := (mem_startsAfter later).1
      omega
  · rw [startsAfter_cons offset fun tail carriage feed => pair ⟨tail, carriage, feed⟩] at found
    split at found
    · rcases List.mem_cons.mp found with rfl | later
      · exact Nat.le_refl _
      · exact Nat.le_of_lt (mem_startsAfter later).1
    · exact Nat.le_of_lt (mem_startsAfter found).1

/-- An offset after the end of a text lies in its last line. -/
theorem positionOf_end {text : List Char} {offset : Nat} (reached : byteLength text ≤ offset) :
    (ofText text).positionOf offset =
      ⟨(ofText text).lineCount, offset - (ofText text).lastStart⟩ := by
  have alone := positionOf_beyond (Unsplit.nil_right text) reached (by simp)
  rwa [List.append_nil] at alone

end LineMap

section Taken

variable {before after : List Char} {offset : Nat}

/-- Only between a carriage return and its line feed a text is split. -/
theorem not_unsplit_iff : ¬Unsplit before after ↔
    ∃ inner rest, before = inner ++ ['\r'] ∧ after = '\n' :: rest := by
  rw [Unsplit, Classical.not_not, List.getLast?_eq_some_iff, List.head?_eq_some_iff]
  simp

/-- An offset within a terminator of two characters is one at which the characters that end before
it are parted from the others within that terminator. -/
theorem divides_append_iff (reached : byteLength before ≤ offset)
    (beyond : ∀ character rest, after = character :: rest →
      offset < byteLength before + character.utf8Size) :
    Divides offset (before ++ after) ↔ ¬Unsplit before after := by
  have carriage : ('\r').utf8Size = 1 := by decide
  have feed : ('\n').utf8Size = 1 := by decide
  rw [not_unsplit_iff]
  constructor
  · rintro ⟨inner, rest, same, rfl⟩
    rcases List.append_eq_append_iff.mp same with ⟨more, rfl, rfl⟩ | ⟨more, rfl, pair⟩
    · cases more with
      | nil =>
          have := beyond '\r' _ rfl
          simp only [byteLength_append, byteLength_nil] at *
          omega
      | cons character more =>
          have := beyond character _ rfl
          simp only [byteLength_append, byteLength_cons] at *
          omega
    · match more with
      | [] =>
          have := beyond '\r' _ pair.symm
          simp only [byteLength_append, byteLength_nil] at *
          omega
      | [character] =>
          obtain ⟨rfl, rfl⟩ : '\r' = character ∧ '\n' :: rest = after := by simpa using pair
          exact ⟨inner, rest, rfl, rfl⟩
      | first :: second :: more =>
          obtain ⟨rfl, rfl, -⟩ : '\r' = first ∧ '\n' = second ∧ rest = more ++ after := by
            simpa using pair
          simp only [byteLength_append, byteLength_cons] at *
          omega
  · rintro ⟨inner, rest, rfl, rfl⟩
    have := beyond '\n' rest rfl
    simp only [byteLength_append, byteLength_cons, byteLength_nil] at *
    exact ⟨inner, rest, by simp, by omega⟩

end Taken

/-- The part of a text before an offset is enough to locate it, unless the offset lies within a
line terminator of two characters. There the part has one line more. -/
theorem locate_eq_positionOf_iff (text : List Char) (offset : Nat) :
    locate text offset = (LineMap.ofText text).positionOf offset ↔ ¬Divides offset text := by
  obtain ⟨after, parts, reached, beyond⟩ := takeBytes_spec text offset
  rw [locate, LineMap.positionOf_end reached]
  generalize takeBytes text offset = before at *
  subst parts
  rw [divides_append_iff reached beyond, Classical.not_not]
  by_cases unsplit : Unsplit before after
  · refine iff_of_true (LineMap.positionOf_beyond unsplit reached fun start found => ?_).symm unsplit
    cases after with
    | nil => simp at found
    | cons character rest =>
        exact Nat.lt_of_lt_of_le (beyond character rest rfl) (LineMap.add_utf8Size_le_of_mem found)
  · refine iff_of_false (fun same => ?_) unsplit
    obtain ⟨inner, rest, rfl, rfl⟩ := not_unsplit_iff.mp unsplit
    have within := beyond '\n' rest rfl
    have carriage : ('\r').utf8Size = 1 := by decide
    have feed : ('\n').utf8Size = 1 := by decide
    simp only [byteLength_append, byteLength_cons, byteLength_nil] at reached within
    have parted (rest : List Char) : Unsplit inner ('\r' :: rest) := by simp [Unsplit]
    -- In the whole text the line of the offset is the one that the terminator ends.
    have whole : (LineMap.ofText (inner ++ ['\r'] ++ '\n' :: rest)).positionOf offset =
        ⟨(LineMap.ofText inner).lineCount, offset - (LineMap.ofText inner).lastStart⟩ := by
      rw [List.append_assoc]
      refine LineMap.positionOf_beyond (parted _) (by omega) fun start found => ?_
      rw [List.singleton_append, LineMap.startsAfter_return_feed] at found
      rcases List.mem_cons.mp found with rfl | later
      · omega
      · have := (LineMap.mem_startsAfter later).1
        omega
    have single : LineMap.startsAfter (byteLength inner) ['\r'] = [byteLength inner + 1] := by
      rw [LineMap.startsAfter_cons _ (by simp), if_pos (by decide), LineMap.startsAfter_nil, carriage]
    rw [whole, Position.mk.injEq, LineMap.lineCount_ofText_append (parted []), single] at same
    exact absurd same.1 (Nat.succ_ne_self _)

end EcmaSyntax
