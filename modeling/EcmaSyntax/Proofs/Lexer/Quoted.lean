import EcmaSyntax.Lexer.Markup
import EcmaSyntax.Proofs.Lexer.Escape
import EcmaSyntax.Proofs.Text.LineEnding
import Mathlib.Data.List.TakeDrop

namespace EcmaSyntax

namespace Lexer

variable {setting : Setting} {state : State} {chunk : Nat} {gathered : List Char}

/-- A text with an escape before it. -/
theorem Escaped.append {first middle last : State} {text : List Char} {source : Source}
    (escaped : Escaped source first middle)
    (moved : Moved source text (hiddenBreaks text) middle last) :
    ∃ whole, Moved source whole (hiddenBreaks whole) first last ∧ '\\' ∈ whole := by
  obtain ⟨character, more, free, opens, -⟩ := escaped
  refine ⟨'\\' :: character :: (more ++ text), ?_, List.mem_cons_self⟩
  rw [hiddenBreaks_escape character free]
  exact opens.trans moved

/-- An escaped text ends between characters. -/
theorem Escaped.boundary {first last : State} {source : Source}
    (escaped : Escaped source first last) (begins : source.isBoundary first.pos = true) :
    source.isBoundary last.pos = true := by
  obtain ⟨_, _, _, moved, _⟩ := escaped
  exact moved.boundary begins

/-- An escaped text leads back to its first line. -/
theorem Escaped.returns {first last : State} {source : Source}
    (escaped : Escaped source first last) : Returns source first last := by
  obtain ⟨_, _, _, _, returns⟩ := escaped
  exact returns

/-- A text without backslashes before another one hides nothing more. -/
theorem Moved.prepend {first middle last : State} {free text : List Char} {source : Source}
    (begins : Moved source free 0 first middle) (none : '\\' ∉ free)
    (moved : Moved source text (hiddenBreaks text) middle last) :
    Moved source (free ++ text) (hiddenBreaks (free ++ text)) first last := by
  rw [hiddenBreaks_append none, ← Nat.zero_add (hiddenBreaks text)]
  exact begins.trans moved

/-- A last character that separates no lines hides none. -/
theorem hiddenBreaks_concat {character : Char} (other : Blank.isSeparator character = false)
    (text : List Char) : hiddenBreaks (text ++ [character]) = hiddenBreaks text := by
  fun_induction hiddenBreaks text with
  | case1 => rfl
  | case2 single =>
      rw [List.singleton_append, hiddenBreaks, other]
      split <;> rfl
  | case3 second rest inductionHypothesis =>
      rw [List.cons_append, List.cons_append, hiddenBreaks, if_pos rfl, inductionHypothesis]
  | case4 first second rest other inductionHypothesis =>
      rw [List.cons_append, hiddenBreaks_cons other, inductionHypothesis]

theorem not_mem_terminator {source : Source} {offset : Nat} {terminator : List Char}
    (found : source.terminatorAt? offset = some terminator) : '\\' ∉ terminator := by
  rcases Source.terminatorAt?_cases found with ⟨rfl, -⟩ | ⟨character, rfl, -, ends, -⟩
  · decide
  · rw [List.mem_singleton]
    rintro rfl
    revert ends
    decide

theorem terminator_ne_nil {source : Source} {offset : Nat} {terminator : List Char}
    (found : source.terminatorAt? offset = some terminator) : terminator ≠ [] := by
  rcases Source.terminatorAt?_cases found with ⟨rfl, -⟩ | ⟨character, rfl, -⟩ <;> simp

/-- The parts of a string are passed up to its quote. -/
theorem gatherString_meets (quote : Char) (count : Nat)
    (begins : setting.source.isBoundary chunk = true) (ordered : chunk ≤ state.pos)
    (here : setting.source.isBoundary state.pos = true) :
    Meets (gatherString quote count chunk gathered) setting state fun _ after =>
      (∃ text, Moved setting.source text (hiddenBreaks text) state after) ∧
        Returns setting.source state after ∧ setting.source.charAt? after.pos = some quote := by
  induction count generalizing state chunk gathered with
  | zero => simp [gatherString]
  | succ count inductionHypothesis =>
      rw [gatherString, Meets.bind_iff, meets_peek, Nat.add_zero]
      split
      · simp
      · next character found =>
          apply meets_ite
          · intro closes
            rw [beq_iff_eq] at closes
            refine (finishChunk_meets begins ordered here).mono ?_
            rintro _ after rfl
            exact ⟨⟨[], .stay _ _⟩, .stay _ _, closes ▸ found⟩
          intro _
          apply meets_ite
          · intro opens
            rw [beq_iff_eq] at opens
            subst opens
            refine (sliceFrom_meets begins ordered here).bind ?_
            rintro plain state rfl
            refine (readEscape_meets found).bind ?_
            rintro decoded after (escaped | absent)
            · have next := escaped.boundary here
              rw [Meets.bind_iff, meets_get]
              refine (inductionHypothesis next (Nat.le_refl _) next).mono ?_
              rintro _ last ⟨⟨text, moved⟩, returns, closes⟩
              obtain ⟨whole, moved, -⟩ := escaped.append moved
              exact ⟨⟨whole, moved⟩, escaped.returns.trans returns, closes⟩
            · -- Past the end of the text the string is not closed.
              rw [Meets.bind_iff, meets_get]
              cases count with
              | zero => simp [gatherString]
              | succ count => simp [gatherString, absent]
          intro other
          apply meets_ite
          · intro _
            simp
          · intro inside
            rw [Bool.not_eq_true] at inside
            have moved := Moved.one state found inside
            have begun := Returns.next state found (ne_of_inside inside)
            rw [Meets.bind_iff, meets_advance]
            refine (inductionHypothesis begins (Nat.le_trans ordered moved.le)
              (moved.boundary here)).mono ?_
            rintro _ last ⟨⟨text, rest⟩, returns, closes⟩
            exact ⟨⟨_, moved.prepend (by
              rw [List.mem_singleton]
              rintro rfl
              exact other rfl) rest⟩, begun.trans returns, closes⟩

/-- A line feed stands for a carriage return on its own, and each other terminator of one character
for itself. -/
theorem map_feed_terminator {source : Source} {offset : Nat} {terminator decoded : List Char}
    (found : source.terminatorAt? offset = some terminator)
    (decodes : decoded = terminator ∨ terminator = ['\r', '\n'])
    (single : ¬LineEnding.Paired terminator) :
    (if decoded == ['\r'] then ['\n'] else decoded) = terminator.map LineEnding.feed := by
  rcases Source.terminatorAt?_cases found with ⟨rfl, -⟩ | ⟨character, rfl, -⟩
  · exact absurd (by decide) single
  · obtain rfl := decodes.resolve_right (by simp)
    simp only [List.map_cons, List.map_nil, LineEnding.feed, beq_iff_eq, List.cons.injEq, and_true]
    split <;> rfl

/-- A chunk of a template is passed up to its mark. Without escapes and line breaks of two
characters it is gathered as it is written, with line feeds for carriage returns. -/
theorem gatherChunk_meets (count : Nat) {passed : List Char}
    (sliced : setting.source.slice? chunk state.pos = some passed) :
    Meets (gatherChunk count chunk gathered) setting state fun result after =>
      ∃ text, Moved setting.source text (hiddenBreaks text) state after ∧
        (setting.source.charAt? state.pos ≠ some '\x60' →
          (setting.source.hasAt state.pos '$' && setting.source.hasAt (state.pos + 1) '\x7b')
            = false → text ≠ []) ∧
        ('\\' ∉ text → ¬LineEnding.Paired text →
          result.reverse = gathered.reverse ++ passed ++ text.map LineEnding.feed) := by
  induction count generalizing state chunk gathered passed with
  | zero => simp [gatherChunk]
  | succ count inductionHypothesis =>
      rw [gatherChunk, Meets.bind_iff, meets_peek, Nat.add_zero]
      split
      · simp
      · next character found =>
          have here := Source.isBoundary_of_charAt? found
          simp only [atSubstitution, Meets.bind_iff, meets_peekIs, meets_pure]
          apply meets_ite
          · intro ends
            rw [Meets.bind_iff, meets_sliceFrom]
            refine ⟨passed, sliced, [], .stay _ _, ?_, by simp⟩
            intro unquoted unmarked
            rw [Nat.add_zero, unmarked, Bool.or_false, beq_iff_eq] at ends
            exact absurd (ends ▸ found) unquoted
          intro _
          apply meets_ite
          · intro opens
            rw [beq_iff_eq] at opens
            subst opens
            rw [Meets.bind_iff, meets_sliceFrom]
            refine ⟨passed, sliced, ?_⟩
            refine (readEscape_meets found).bind ?_
            rintro decoded after (escaped | absent)
            · have next := Source.slice?_self (escaped.boundary here)
              rw [Meets.bind_iff, meets_get]
              refine (inductionHypothesis next).mono ?_
              rintro _ last ⟨text, moved, -⟩
              obtain ⟨whole, moved, mark⟩ := escaped.append moved
              exact ⟨whole, moved, fun _ _ => List.ne_nil_of_mem mark,
                fun free => absurd mark free⟩
            · rw [Meets.bind_iff, meets_get]
              cases count with
              | zero => simp [gatherChunk]
              | succ count => simp [gatherChunk, absent]
          intro other
          apply meets_ite
          · intro ends
            obtain ⟨terminator, same⟩ := terminatorAt?_of_isLineBreak found ends
            rw [Meets.bind_iff, meets_sliceFrom]
            refine ⟨passed, sliced, ?_⟩
            refine (passLineBreak_meets same).bind ?_
            rintro decoded after ⟨decodes, rfl⟩
            have moved := Moved.terminator same
            have next := Source.slice?_self (moved.boundary here)
            rw [Meets.bind_iff, meets_get]
            refine (inductionHypothesis next).mono ?_
            rintro _ last ⟨text, rest, -, gathers⟩
            refine ⟨terminator ++ text, moved.prepend (not_mem_terminator same) rest,
              fun _ _ => by simp [terminator_ne_nil same], fun free single => ?_⟩
            rw [gathers (fun mark => free (List.mem_append_right _ mark))
              fun paired => single (paired.append_left _), List.map_append,
              ← map_feed_terminator same decodes fun paired => single (paired.append_right _)]
            simp
          · intro inside
            rw [Bool.not_eq_true] at inside
            have moved := Moved.one state found inside
            rw [Meets.bind_iff, meets_advance]
            refine (inductionHypothesis
              (Source.slice?_append sliced (moved.slice? here))).mono ?_
            rintro _ last ⟨text, rest, -, gathers⟩
            refine ⟨[character] ++ text, moved.prepend (by
              rw [List.mem_singleton]
              rintro rfl
              exact other rfl) rest, fun _ _ => by simp, fun free single => ?_⟩
            rw [gathers (fun mark => free (List.mem_append_right _ mark))
              fun paired => single (paired.append_left _)]
            simp [LineEnding.feed_of_inside inside]

/-- What a reference spells ends no line. -/
theorem decodeEntity_inside {name : List Char} {decoded : Char}
    (known : decodeEntity name = some decoded) :
    ∀ character ∈ name, Blank.isLineBreak character = false := by
  have digits : ∀ {radix : Nat} {text : List Char},
      decodeEntity.numbered radix text = some decoded →
      ∀ character ∈ text, Blank.isLineBreak character = false := by
    intro radix text known character member
    unfold decodeEntity.numbered at known
    split at known
    · simp at known
    · next valid =>
        simp only [Bool.or_eq_true, not_or, Bool.not_eq_true', Bool.not_eq_true, Bool.not_eq_false,
          List.all_eq_true] at valid
        exact (Digit.inside (valid.2 character member)).1
  unfold decodeEntity at known
  split at known
  · next text =>
      intro character member
      simp only [List.mem_cons] at member
      rcases member with rfl | rfl | member
      · decide
      · decide
      · exact digits known character member
  · next text _ =>
      intro character member
      simp only [List.mem_cons] at member
      rcases member with rfl | member
      · decide
      · exact digits known character member
  · intro character member
    obtain ⟨code, found, -⟩ := Option.bind_eq_some_iff.mp known
    rw [Entity.codePoint?, Option.map_eq_some_iff] at found
    obtain ⟨entry, listed, -⟩ := found
    have same := List.find?_some listed
    rw [beq_iff_eq] at same
    have all : ∀ entry ∈ Entity.named,
        entry.1.toList.all (fun character => !Blank.isLineBreak character) = true := by
      decide +kernel
    have inside := all entry (List.mem_of_find?_eq_some listed)
    rw [same, String.toList_ofList, List.all_eq_true] at inside
    simpa using inside character member

/-- A reference to a character is passed, or only its ampersand. -/
theorem readEntity_meets (opens : setting.source.charAt? state.pos = some '&') :
    Meets readEntity setting state fun _ after =>
      ∃ text, Moved setting.source ('&' :: text) 0 state after := by
  simp only [readEntity, Meets.bind_iff, meets_advance, meets_get, meets_source]
  have mark := Moved.one state opens (by decide)
  rw [show ('&').utf8Size = 1 by decide] at mark
  obtain ⟨before, rest, parted⟩ := Source.isBoundary_iff.mp (Source.isBoundary_next opens)
  rw [show ('&').utf8Size = 1 by decide] at parted
  have taken := ( List.take_prefix entityLimit _).trans
    (Source.charsBetween_prefix parted (4 * entityLimit))
  generalize (setting.source.charsBetween (state.pos + 1)
    (state.pos + 1 + 4 * entityLimit)).take entityLimit = ahead at taken ⊢
  have whole : (ahead.span (· != ';')).1 ++ (ahead.span (· != ';')).2 = ahead := by
    rw [List.span_eq_takeWhile_dropWhile]
    exact List.takeWhile_append_dropWhile
  have mark? : ∀ character others, (ahead.span (· != ';')).2 = character :: others →
      character = ';' := by
    intro character others same
    rw [List.span_eq_takeWhile_dropWhile] at same
    change ahead.dropWhile (· != ';') = character :: others at same
    have stopped := List.head?_dropWhile_not (· != ';') ahead
    rw [same] at stopped
    simpa using stopped
  generalize ahead.span (· != ';') = parts at whole mark? ⊢
  obtain ⟨name, closing⟩ := parts
  split
  · next character known =>
      cases closing with
      | nil => simp at known
      | cons first others =>
          obtain rfl := mark? first others rfl
          obtain ⟨last, same⟩ := taken
          rw [← same, ← whole] at parted
          have plain : Plain setting.source (name ++ [';']) (state.pos + 1)
              (state.pos + 1 + byteLength (name ++ [';'])) := by
            refine .ofAt (show setting.source.At _ before (_ ++ (others ++ last)) by
              simpa using parted) ?_
            intro other member
            rw [List.mem_append, List.mem_singleton] at member
            rcases member with member | rfl
            · exact decodeEntity_inside known other member
            · decide
          have moved := plain.moved { state with pos := state.pos + 1 } rfl
          rw [byteLength_append, byteLength_cons, show (';').utf8Size = 1 by decide] at moved
          exact ⟨_, mark.trans moved⟩
  · exact ⟨_, mark⟩

/-- A text between tags ends at the mark of a tag or of a substitution. -/
theorem gatherMarkup_meets (count : Nat)
    (begins : setting.source.isBoundary chunk = true) (ordered : chunk ≤ state.pos)
    (here : setting.source.isBoundary state.pos = true) :
    Meets (gatherMarkup count chunk gathered) setting state fun _ after =>
      ∃ text, Moved setting.source text 0 state after ∧
        ((setting.source.charAt? state.pos).any (fun character =>
          character != '<' && character != '\x7b') = true → text ≠ []) := by
  induction count generalizing state chunk gathered with
  | zero => simp [gatherMarkup]
  | succ count inductionHypothesis =>
      rw [gatherMarkup, Meets.bind_iff, meets_peek, Nat.add_zero]
      split
      · simp
      · next character found =>
          apply meets_ite
          · intro closes
            refine (finishChunk_meets begins ordered here).mono ?_
            rintro _ after rfl
            refine ⟨[], .stay _ _, ?_⟩
            intro goesOn
            rw [found, Option.any_some, Bool.and_eq_true, bne_iff_ne, bne_iff_ne] at goesOn
            simp only [Bool.or_eq_true, beq_iff_eq] at closes
            rcases closes with opens | opens
            · exact absurd opens goesOn.1
            · exact absurd opens goesOn.2
          intro _
          apply meets_ite
          · intro opens
            rw [beq_iff_eq] at opens
            subst opens
            refine (sliceFrom_meets begins ordered here).bind ?_
            rintro plain state rfl
            refine (readEntity_meets found).bind ?_
            rintro decoded after ⟨text, moved⟩
            have next := moved.boundary here
            rw [Meets.bind_iff, meets_get]
            refine (inductionHypothesis next (Nat.le_refl _) next).mono ?_
            rintro _ last ⟨others, rest, -⟩
            exact ⟨_, moved.trans rest, by simp⟩
          intro _
          apply meets_ite
          · intro ends
            obtain ⟨terminator, same⟩ := terminatorAt?_of_isLineBreak found ends
            refine (sliceFrom_meets begins ordered here).bind ?_
            rintro plain state rfl
            refine (passLineBreak_meets same).bind ?_
            rintro decoded after ⟨-, rfl⟩
            have moved := Moved.terminator same
            have next := moved.boundary here
            rw [Meets.bind_iff, meets_get]
            refine (inductionHypothesis next (Nat.le_refl _) next).mono ?_
            rintro _ last ⟨others, rest, -⟩
            refine ⟨_, moved.trans rest, ?_⟩
            rintro - empty
            rw [List.append_eq_nil_iff] at empty
            exact terminator_ne_nil same empty.1
          · intro inside
            rw [Bool.not_eq_true] at inside
            have moved := Moved.one state found inside
            rw [Meets.bind_iff, meets_advance]
            refine (inductionHypothesis begins (Nat.le_trans ordered moved.le)
              (moved.boundary here)).mono ?_
            rintro _ last ⟨others, rest, -⟩
            exact ⟨_, moved.trans rest, by simp⟩

/-- The text of an attribute is passed up to its quote. -/
theorem gatherAttribute_meets (quote : Char) (count : Nat)
    (begins : setting.source.isBoundary chunk = true) (ordered : chunk ≤ state.pos)
    (here : setting.source.isBoundary state.pos = true) :
    Meets (gatherAttribute quote count chunk gathered) setting state fun _ after =>
      (∃ text, Moved setting.source text 0 state after) ∧
        setting.source.charAt? after.pos = some quote := by
  induction count generalizing state chunk gathered with
  | zero => simp [gatherAttribute]
  | succ count inductionHypothesis =>
      rw [gatherAttribute, Meets.bind_iff, meets_peek, Nat.add_zero]
      split
      · simp
      · next character found =>
          apply meets_ite
          · intro closes
            rw [beq_iff_eq] at closes
            refine (finishChunk_meets begins ordered here).mono ?_
            rintro _ after rfl
            exact ⟨⟨[], .stay _ _⟩, closes ▸ found⟩
          intro _
          apply meets_ite
          · intro opens
            rw [beq_iff_eq] at opens
            subst opens
            refine (sliceFrom_meets begins ordered here).bind ?_
            rintro plain state rfl
            refine (readEntity_meets found).bind ?_
            rintro decoded after ⟨text, moved⟩
            have next := moved.boundary here
            rw [Meets.bind_iff, meets_get]
            refine (inductionHypothesis next (Nat.le_refl _) next).mono ?_
            rintro _ last ⟨⟨others, rest⟩, closes⟩
            exact ⟨⟨_, moved.trans rest⟩, closes⟩
          intro _
          apply meets_ite
          · intro ends
            obtain ⟨terminator, same⟩ := terminatorAt?_of_isLineBreak found ends
            refine (sliceFrom_meets begins ordered here).bind ?_
            rintro plain state rfl
            refine (passLineBreak_meets same).bind ?_
            rintro decoded after ⟨-, rfl⟩
            have moved := Moved.terminator same
            have next := moved.boundary here
            rw [Meets.bind_iff, meets_get]
            refine (inductionHypothesis next (Nat.le_refl _) next).mono ?_
            rintro _ last ⟨⟨others, rest⟩, closes⟩
            exact ⟨⟨_, moved.trans rest⟩, closes⟩
          · intro inside
            rw [Bool.not_eq_true] at inside
            have moved := Moved.one state found inside
            rw [Meets.bind_iff, meets_advance]
            refine (inductionHypothesis begins (Nat.le_trans ordered moved.le)
              (moved.boundary here)).mono ?_
            rintro _ last ⟨⟨others, rest⟩, closes⟩
            exact ⟨⟨_, moved.trans rest⟩, closes⟩

/-- A regular expression stays within its line. -/
theorem findRegExpEnd_plain (source : Source) (count offset : Nat) (escaped inClass : Bool) :
    ∃ text, Plain source text offset (findRegExpEnd source count escaped inClass offset) := by
  induction count generalizing offset escaped inClass with
  | zero => exact ⟨[], .nil _ _⟩
  | succ count inductionHypothesis =>
      unfold findRegExpEnd
      split
      · exact ⟨[], .nil _ _⟩
      · next character here =>
          have further (escaped inClass : Bool) (inside : ¬Blank.isLineBreak character = true) :
              ∃ text, Plain source text offset
                (findRegExpEnd source count escaped inClass (offset + character.utf8Size)) := by
            obtain ⟨text, plain⟩ :=
              inductionHypothesis (offset + character.utf8Size) escaped inClass
            exact ⟨_, .cons here (Bool.not_eq_true _ ▸ inside) plain⟩
          dsimp only
          split
          · exact ⟨[], .nil _ _⟩
          · next inside =>
              split
              · exact further _ _ inside
              · split
                · exact ⟨[], .nil _ _⟩
                · exact further _ _ inside

end Lexer

end EcmaSyntax
