/-
This file speaks of the offsets at which a text can be parted without splitting a character or a
line terminator. The line map of the text and that of what stands before them agree there.
-/

import EcmaSyntax.Diagnostic
import EcmaSyntax.Proofs.Lexer.Passage

namespace EcmaSyntax

namespace Source

variable {source : Source} {offset : Nat} {character : Char}

/-- An offset is a seam of a text if it parts no character and no line terminator. -/
def Seam (source : Source) (offset : Nat) : Prop :=
  ∃ before after, source.At offset before after ∧ Unsplit before after

namespace Seam

/-- The start of a text is a seam. -/
theorem zero (source : Source) : source.Seam 0 := ⟨_, _, .start source, .nil_left _⟩

/-- A seam splits no character. -/
theorem isBoundary (seam : source.Seam offset) : source.isBoundary offset = true :=
  have ⟨_, _, parted, _⟩ := seam
  isBoundary_iff.mpr ⟨_, _, parted⟩

/-- A seam lies within the text. -/
theorem le_size (seam : source.Seam offset) : offset ≤ source.size :=
  le_size_of_isBoundary seam.isBoundary

/-- A text can be parted before any character but a line feed. -/
theorem before (found : source.charAt? offset = some character) (other : character ≠ '\n') :
    source.Seam offset := by
  obtain ⟨before, rest, parted⟩ := at_of_charAt? found
  refine ⟨before, _, parted, ?_⟩
  rintro ⟨-, opening⟩
  exact other (Option.some.inj opening)

/-- A text can be parted after any character but a carriage return. -/
theorem after (found : source.charAt? offset = some character) (other : character ≠ '\r') :
    source.Seam (offset + character.utf8Size) := by
  obtain ⟨before, rest, parted⟩ := at_of_charAt? found
  exact ⟨_, _, parted.next, .concat other⟩

/-- A text can be parted after a line terminator. -/
theorem terminated {terminator : List Char} (found : source.terminatorAt? offset = some terminator) :
    source.Seam (offset + byteLength terminator) := by
  rcases terminatorAt?_cases found with ⟨rfl, carriage, feed⟩ | ⟨character, rfl, here, -, alone⟩
  · have second := after feed (by decide)
    rwa [utf8Size_feed, Nat.add_assoc] at second
  · obtain ⟨before, rest, parted⟩ := at_of_charAt? here
    have passed : source.At (offset + byteLength [character]) (before ++ [character]) rest :=
      parted.append
    refine ⟨_, _, passed, ?_⟩
    rintro ⟨closing, opening⟩
    rw [List.getLast?_concat, Option.some.injEq] at closing
    refine alone ⟨closing, ?_⟩
    have next := parted.next.charAt?
    rwa [closing, utf8Size_return, opening] at next

/-- Where a text can be parted, the part before an offset is enough to locate it. -/
theorem locate_eq (seam : source.Seam offset) :
    EcmaSyntax.locate source.text offset = (LineMap.ofText source.text).positionOf offset := by
  obtain ⟨before, after, parted, unsplit⟩ := seam
  have taken : ∀ text, takeBytes (text ++ after) (byteLength text) = text := by
    intro text
    induction text with
    | nil => cases after with
      | nil => rfl
      | cons first rest => simp [takeBytes, Nat.not_le.mpr first.utf8Size_pos]
    | cons first rest inductionHypothesis =>
        rw [List.cons_append, takeBytes, byteLength_cons, if_pos (Nat.le_add_right _ _),
          Nat.add_sub_cancel_left, inductionHypothesis]
  have alone := LineMap.positionOf_append (Unsplit.nil_right before)
  rw [List.append_nil] at alone
  rw [EcmaSyntax.locate, ← parted.offset, parted.text, taken, alone,
    LineMap.positionOf_append unsplit]

end Seam

end Source

/-- A problem lies where a text can be parted, and its place is the one that a part of the text
tells. Other failures say nothing of this. -/
def Failure.Placed (source : Source) : Failure → Prop
  | .syntaxError error => source.Seam error.pos ∧ error.loc = locate source.text error.pos
  | _ => True

/-- A failure that has nothing to do with the nesting of constructs. -/
def Failure.IsFlat (failure : Failure) : Prop := ∀ pos loc, failure ≠ .nestingTooDeep pos loc

namespace Lexer

/-- A passage leads from seam to seam. -/
theorem Passes.seam {source : Source} {text : List Char} {hidden : Nat} {start last : Cursor}
    (passes : Passes source text hidden start last) (begins : source.Seam start.pos) :
    source.Seam last.pos := by
  induction passes with
  | stay cursor => exact begins
  | character found inside rest inductionHypothesis =>
      refine inductionHypothesis (.after found ?_)
      rintro rfl
      exact absurd inside (by decide)
  | terminator found rest inductionHypothesis => exact inductionHypothesis (.terminated found)
  | hidden found separates rest inductionHypothesis =>
      refine inductionHypothesis (.after found ?_)
      rintro rfl
      exact absurd separates (by decide)

/-- A move leads from seam to seam. -/
theorem Moved.seam {source : Source} {text : List Char} {hidden : Nat} {before after : State}
    (moved : Moved source text hidden before after) (begins : source.Seam before.pos) :
    source.Seam after.pos := moved.passes.seam begins

end Lexer

end EcmaSyntax
