import EcmaSyntax.Proofs.Text.LineMap
import EcmaSyntax.Text.Blank
import Mathlib.Data.List.Infix

namespace EcmaSyntax

namespace LineEnding

/-- A line break of two characters stands in a text. -/
def Paired (text : List Char) : Prop := ['\r', '\n'] <:+: text

instance (text : List Char) : Decidable (Paired text) := inferInstanceAs (Decidable (_ <:+: _))

/-- The carriage returns of a text that stand right before a line break of two characters. -/
def doubled (text : List Char) : Nat := text.tails.countP (['\r', '\r', '\n'].isPrefixOf ·)

variable {character : Char} {text rest : List Char}

/-- A text begins with a line feed if its first character is one. -/
theorem feed_prefix_iff : ['\n'] <+: text ↔ text.head? = some '\n' := by
  cases text <;> simp [eq_comm]

@[simp] theorem paired_nil : ¬Paired [] := by simp [Paired]

/-- A pair stands at the front of a text, or in the rest of it. -/
theorem paired_cons : Paired (character :: rest) ↔
    (character = '\r' ∧ rest.head? = some '\n') ∨ Paired rest := by
  rw [Paired, List.infix_cons_iff, List.cons_prefix_cons, feed_prefix_iff, eq_comm]
  rfl

/-- No line break of two characters begins where no carriage return is. -/
theorem paired_append_iff {first second : List Char} (free : '\r' ∉ first) :
    Paired (first ++ second) ↔ Paired second := by
  induction first with
  | nil => rfl
  | cons character rest inductionHypothesis =>
      rw [List.mem_cons, not_or] at free
      rw [List.cons_append, paired_cons, inductionHypothesis free.2]
      exact or_iff_right fun begins => free.1 begins.1.symm

theorem Paired.append_right (paired : Paired text) (more : List Char) : Paired (text ++ more) :=
  List.IsInfix.trans paired (List.prefix_append _ _).isInfix

theorem Paired.append_left (paired : Paired text) (before : List Char) : Paired (before ++ text) :=
  List.IsInfix.trans paired (List.suffix_append _ _).isInfix

theorem feed_of_inside (inside : Blank.isLineBreak character = false) :
    feed character = character := by
  rw [feed, if_neg]
  rw [beq_iff_eq]
  rintro rfl
  cases inside

@[simp] theorem doubled_nil : doubled [] = 0 := rfl

/-- A carriage return counts if a pair stands after it. -/
theorem doubled_cons : doubled (character :: rest) =
    doubled rest + if character = '\r' ∧ ['\r', '\n'] <+: rest then 1 else 0 := by
  simp only [doubled, List.tails_cons, List.countP_cons, List.isPrefixOf_iff_prefix,
    List.cons_prefix_cons, @eq_comm _ '\r']

/-- A text does not grow when its line endings get one character each. -/
theorem byteLength_unify_le : byteLength (unify text) ≤ byteLength text := by
  fun_induction unify text with
  | case1 => exact Nat.le_refl _
  | case2 rest inductionHypothesis =>
      simp only [byteLength_cons]
      omega
  | case3 character rest other inductionHypothesis =>
      simp only [byteLength_cons]
      omega

/-- A character that no line break of two characters begins with. -/
theorem head?_ne_feed (alone : ∀ tail, character = '\r' → rest = '\n' :: tail → False)
    (isReturn : character = '\r') : rest.head? ≠ some '\n' := by
  intro begins
  obtain ⟨tail, same⟩ := List.head?_eq_some_iff.mp begins
  exact alone tail isReturn same

/-- What is unified begins with a line feed if the text began with one, or with a line break of
two characters. -/
theorem head?_unify_iff :
    (unify text).head? = some '\n' ↔ text.head? = some '\n' ∨ ['\r', '\n'] <+: text := by
  fun_cases unify text with
  | case1 => simp
  | case2 rest => simp
  | case3 character rest alone =>
      have single : ¬['\r', '\n'] <+: character :: rest := by
        rintro ⟨tail, same⟩
        obtain ⟨isReturn, begins⟩ := List.cons.inj same
        exact alone tail isReturn.symm begins.symm
      simp [single]

/-- A line break of two characters is left, or made, where a carriage return was before one. -/
theorem paired_unify_iff : Paired (unify text) ↔ doubled text ≠ 0 := by
  fun_induction unify text with
  | case1 => simp
  | case2 rest inductionHypothesis =>
      simpa [paired_cons, doubled_cons] using inductionHypothesis
  | case3 character rest alone inductionHypothesis =>
      have single := head?_ne_feed alone
      rw [paired_cons, doubled_cons, inductionHypothesis, head?_unify_iff]
      split <;> simp_all

/-- A text stays as it is if no line break of two characters stands in it. -/
theorem unify_eq_self_iff : unify text = text ↔ ¬Paired text := by
  fun_induction unify text with
  | case1 => simp
  | case2 rest inductionHypothesis => simp [paired_cons]
  | case3 character rest alone inductionHypothesis =>
      have single := head?_ne_feed alone
      simp_all [paired_cons]

/-- A carriage return that comes to stand before a line feed ends no line of its own any more. -/
theorem length_startsAfter_unify (offset other : Nat) :
    (LineMap.startsAfter offset text).length =
      (LineMap.startsAfter other (unify text)).length + doubled text := by
  fun_induction unify text generalizing offset other with
  | case1 => simp
  | case2 rest inductionHypothesis =>
      have kept : doubled ('\r' :: '\n' :: rest) = doubled rest := by simp [doubled_cons]
      rw [LineMap.startsAfter_return_feed, LineMap.startsAfter_cons _ (by simp), if_pos (by decide),
        kept, List.length_cons, List.length_cons, inductionHypothesis _ _, Nat.add_right_comm]
  | case3 character rest alone inductionHypothesis =>
      rw [LineMap.startsAfter_cons _ alone, doubled_cons]
      by_cases closes : character = '\r' ∧ ['\r', '\n'] <+: rest
      · obtain ⟨rfl, tail, rfl⟩ := closes
        have known := inductionHypothesis (offset + 1) (other + 1)
        have joined : unify (['\r', '\n'] ++ tail) = '\n' :: unify tail := by simp [unify]
        rw [joined, LineMap.startsAfter_cons _ (by simp), if_pos (by decide)] at known
        rw [joined, LineMap.startsAfter_return_feed, if_pos (by decide), if_pos (by simp)]
        exact congrArg Nat.succ known
      · have apart : ∀ tail, character = '\r' → unify rest = '\n' :: tail → False := by
          intro tail isReturn begins
          rcases head?_unify_iff.mp (congrArg List.head? begins) with feeds | pair
          · exact head?_ne_feed alone isReturn feeds
          · exact closes ⟨isReturn, pair⟩
        rw [LineMap.startsAfter_cons _ apart, if_neg closes]
        have known := inductionHypothesis (offset + character.utf8Size)
          (other + character.utf8Size)
        split
        · rw [List.length_cons, List.length_cons, known]
          omega
        · exact known

/-- Line endings are unified in one pass. A line break of two characters stands in the text after
it if one stood right after a carriage return before it, and only then does a second pass change
the text again. For each of these the text has lost one of its lines. -/
theorem normalize_leaves_iff (text : String) :
    (Paired (normalize text).toList ↔ doubled text.toList ≠ 0) ∧
      (normalize (normalize text) = normalize text ↔ doubled text.toList = 0) ∧
      (LineMap.ofText text.toList).lineCount =
        (LineMap.ofText (normalize text).toList).lineCount + doubled text.toList := by
  have once : (normalize text).toList = unify text.toList := String.toList_ofList
  have again : normalize (normalize text) = normalize text ↔
      unify (unify text.toList) = unify text.toList := by
    rw [← String.toList_inj, ← once]
    exact Eq.congr_left String.toList_ofList
  refine ⟨?_, ?_, ?_⟩
  · rw [once]
    exact paired_unify_iff
  · rw [again, unify_eq_self_iff, paired_unify_iff, not_not]
  · have lines := @length_startsAfter_unify text.toList 0 0
    rw [once, LineMap.lineCount_ofText, LineMap.lineCount_ofText, lines, Nat.add_right_comm]

/-- A line break of two characters is left of a carriage return before one, a second pass takes it
as well, and one of the three lines is gone. -/
theorem normalize_leaves_return : Paired (normalize "\r\r\n").toList ∧
    normalize (normalize "\r\r\n") ≠ normalize "\r\r\n" ∧
    (LineMap.ofText "\r\r\n".toList).lineCount = 3 ∧
    (LineMap.ofText (normalize "\r\r\n").toList).lineCount = 2 := by
  decide +kernel

end LineEnding

end EcmaSyntax
