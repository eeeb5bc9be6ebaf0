import EcmaSyntax.Grammar.Rules
import EcmaSyntax.Proofs.Grammar.Step

namespace EcmaSyntax

namespace Grammar

open Lexer (View Frame)

/-- A rule finds any token in a frame. -/
def Setting.over (setting : Setting) (frame : Frame) : View := Lexer.Over setting.jsx frame

/-- A rule finds a token that follows a token of its frame. -/
def Setting.nests (setting : Setting) (frame : Frame) : View := Lexer.Nests setting.jsx frame

/-- A rule finds a token in a frame that it may pass without a further look. -/
def Setting.passable (setting : Setting) (frame : Frame) : View := fun kind contexts =>
  kind.isPassable = true ∧ setting.over frame kind contexts

variable {setting : Setting} {frame : Frame} {view before after : View} {kind : Kind}

theorem Setting.passable_of_here (passable : kind.isPassable = true) :
    ∀ current contexts, Here kind (setting.over frame) current contexts →
      setting.passable frame current contexts := by
  rintro _ contexts ⟨rfl, passing⟩
  exact ⟨passable, passing⟩

theorem here_over : ∀ current contexts, Here kind view current contexts → view current contexts :=
  fun _ _ here => here.2

theorem passable_over : ∀ current contexts, setting.passable frame current contexts →
    setting.over frame current contexts := fun _ _ passable => passable.2

section Next

/-- The next token can be read unless the text has ended. -/
theorem Leads.next (goesOn : ∀ kind contexts, before kind contexts → kind ≠ .eof)
    (steps : ∀ first last, before first.kind first.contexts →
      Lexer.Advances setting.toSetting first last → after last.kind last.contexts) :
    Leads setting before next fun _ => after := by
  intro state held
  rw [Grammar.next, meets_lex]
  refine (Lexer.next_meets held.sound).and_ok.mono ?_
  rintro _ lexer ⟨⟨advances, -⟩, step⟩
  exact ⟨held.reached.next (goesOn _ _ held.here) step, steps _ _ held.here advances,
    held.filled⟩

/-- A token may be passed unless it changes the open constructs, ends the text or is part of a
template. -/
theorem Kind.isPassable_iff {kind : Kind} : kind.isPassable = true ↔
    kind.isStill = true ∧ kind ≠ .eof ∧ kind ≠ .template := by
  simp [Kind.isPassable, and_assoc]

/-- After a token that may be passed, a rule finds any token in its frame. -/
theorem over_of_passable {first last : Lexer.State}
    (passable : setting.passable frame first.kind first.contexts)
    (advances : Lexer.Advances setting.toSetting first last) :
    setting.over frame last.kind last.contexts := by
  obtain ⟨still, goesOn, noChunk⟩ := Kind.isPassable_iff.mp passable.1
  have nests := passable.2.nests goesOn noChunk
  refine .inr (.inr (advances.nests (nests.enters.covers still) noChunk ?_ ?_))
  · intro tag
    rw [tag] at still
    exact absurd still (by decide)
  · intro slash
    rw [slash] at still
    exact absurd still (by decide)

/-- A token that may be passed leaves the frame as it is. -/
theorem next_leads : Leads setting (setting.passable frame) next fun _ => setting.over frame :=
  .next (fun _ _ met => (Kind.isPassable_iff.mp met.1).2.1) fun _ _ => over_of_passable

/-- A slash outside of tags divides. -/
theorem next_slash (calm : frame.Calm) :
    Leads setting (Here .slash (setting.over frame)) next fun _ => setting.over frame := by
  refine .next (fun kind _ met => by rw [met.1]; decide) ?_
  rintro first last ⟨same, passing⟩ advances
  have nests := passing.nests (by rw [same]; decide) (by rw [same]; decide)
  rw [same] at nests
  refine .inr (.inr (advances.nests nests.covers_slash ?_ ?_ fun _ => calm))
  · rw [same]
    decide
  · rw [same]
    decide

theorem nests_over : ∀ current contexts, setting.nests frame current contexts →
    setting.over frame current contexts := fun _ _ nests => .inr (.inr nests)

/-- A token is passed after which the constructs of a frame are open. -/
theorem next_covers (covers : ∀ kind contexts, before kind contexts →
      kind ≠ .eof ∧ kind ≠ .template ∧ kind ≠ .jsxTagStart ∧ kind ≠ .slash ∧
        frame.Covers contexts) :
    Leads setting before next fun _ => setting.nests frame := by
  refine .next (fun kind contexts met => (covers kind contexts met).1) ?_
  intro first last met advances
  obtain ⟨-, chunk, tag, slash, open_⟩ := covers _ _ met
  exact advances.nests open_ chunk tag fun same => absurd same slash

/-- A token is passed that no template and no tag needs. -/
theorem next_nests {other : Frame} (plain : kind ≠ .slash)
    (passable : kind ≠ .eof ∧ kind ≠ .template ∧ kind ≠ .jsxTagStart)
    (covers : ∀ contexts, Lexer.Enters setting.jsx frame kind contexts → other.Covers contexts) :
    Leads setting (Here kind (setting.over frame)) next fun _ => setting.nests other := by
  refine next_covers ?_
  rintro _ contexts ⟨rfl, passing⟩
  obtain ⟨goesOn, chunk, tag⟩ := passable
  exact ⟨goesOn, chunk, tag, plain, covers _ (passing.nests goesOn chunk).enters⟩

/-- A bracket opens. -/
theorem next_open (opens : kind = .parenL ∨ kind = .braceL) :
    Leads setting (Here kind (setting.over frame)) next fun _ => setting.over frame.inner := by
  refine (next_nests ?_ ?_ fun _ enters => enters.covers_open opens).strengthen
    fun _ => nests_over
  · rcases opens with rfl | rfl <;> decide
  · rcases opens with rfl | rfl <;> decide

/-- A bracket closes. -/
theorem next_close (closes : kind = .parenR ∨ kind = .braceR) :
    Leads setting (Here kind (setting.over frame.inner)) next fun _ => setting.nests frame := by
  refine next_nests ?_ ?_ fun _ enters => enters.covers_close closes
  · rcases closes with rfl | rfl <;> decide
  · rcases closes with rfl | rfl <;> decide

/-- A closing bracket leads back to the frame around it. -/
theorem next_closed (closes : kind = .parenR ∨ kind = .braceR) :
    Leads setting (Here kind (setting.over frame.inner)) next fun _ => setting.over frame :=
  (next_close closes).strengthen fun _ => nests_over

/-- A template begins. -/
theorem next_quote :
    Leads setting (Here .backQuote (setting.over frame)) next fun _ => setting.nests frame :=
  next_nests (by decide) (by decide) fun _ enters => enters.covers rfl

/-- A token of a kind that may be passed leaves the frame as it is. -/
theorem next_here (passable : kind.isPassable = true) :
    Leads setting (Here kind (setting.over frame)) next fun _ => setting.over frame :=
  next_leads.weaken (Setting.passable_of_here passable)

/-- A step that begins with a token may begin where this token is known. -/
theorem Leads.enter {α : Type} {action : Parse α} {after : α → View}
    (leads : Leads setting (setting.passable frame) action after)
    (passable : kind.isPassable = true) :
    Leads setting (Here kind (setting.over frame)) action after :=
  leads.weaken (Setting.passable_of_here passable)

/-- A step that does not need to know the current token. -/
theorem Leads.here {α : Type} {action : Parse α} {after : α → View}
    (leads : Leads setting view action after) : Leads setting (Here kind view) action after :=
  leads.weaken here_over

end Next

section Eat

variable {β : Type} {last : β → View}

theorem meets_eat {state : State} {post : Bool → State → Prop}
    (passes : state.lexer.kind = kind → Meets next setting state fun _ after => post true after)
    (stays : state.lexer.kind ≠ kind → post false state) :
    Meets (eat kind) setting state post := by
  rw [eat, meets_lex, Lexer.eat]
  simp only [Meets.bind_iff]
  change Meets (if (state.lexer.kind == kind) = true then _ else _) _ _ _
  apply meets_ite
  · intro same
    have met := passes (beq_iff_eq.mp same)
    rw [Grammar.next, meets_lex] at met
    rw [Meets.bind_iff]
    exact met
  · intro other
    exact stays fun same => other (beq_iff_eq.mpr same)

/-- What follows depends on whether a token of a kind is passed. -/
theorem Leads.ifEat {first second : Parse β}
    (passes : Leads setting (Here kind before) Grammar.next fun _ => after)
    (holds : Leads setting after first last) (fails : Leads setting before second last) :
    Leads setting before
      (eat kind >>= fun passed => if passed = true then first else second) last := by
  intro state held
  rw [Meets.bind_iff]
  apply meets_eat
  · intro same
    refine (passes _ ⟨held.reached, ⟨same, held.here⟩, held.filled⟩).mono ?_
    intro _ state held
    rw [if_pos rfl]
    exact holds _ held
  · intro other
    rw [if_neg (by decide)]
    exact fails _ held

/-- A token that is eaten leaves the frame as it is. -/
theorem eat_leads (passable : kind.isPassable = true) :
    Leads setting (setting.over frame) (eat kind) fun _ => setting.over frame := by
  intro state held
  apply meets_eat
  · intro same
    exact next_here passable _ ⟨held.reached, ⟨same, held.here⟩, held.filled⟩
  · intro _
    exact held

theorem Leads.expect (passes : Leads setting (Here kind before) Grammar.next fun _ => after) :
    Leads setting before (expect kind) fun _ => after := by
  intro state held
  rw [Grammar.expect, Meets.bind_iff]
  apply meets_eat
  · intro same
    exact passes _ ⟨held.reached, ⟨same, held.here⟩, held.filled⟩
  · intro _
    exact meets_unexpected.mpr trivial

/-- A token that has to be there leaves the frame as it is. -/
theorem expect_leads (passable : kind.isPassable = true) :
    Leads setting (setting.over frame) (expect kind) fun _ => setting.over frame :=
  .expect (next_here passable)

/-- An opening bracket leads into the frame within it. -/
theorem expect_open (opens : kind = .parenL ∨ kind = .braceL) :
    Leads setting (setting.over frame) (expect kind) fun _ => setting.over frame.inner :=
  .expect (next_open opens)

/-- A closing bracket that has to be there leads back to the frame around it. -/
theorem expect_close (closes : kind = .parenR ∨ kind = .braceR) :
    Leads setting (setting.over frame.inner) (expect kind) fun _ => setting.over frame :=
  .expect (next_closed closes)

/-- A comma stands between two items; the list may be closed after it. -/
theorem Leads.separated {condition : Prop} [Decidable condition] {stop rest : Parse β}
    (closes : Leads setting (Here kind (setting.over frame)) Grammar.next fun _ => after)
    (stops : Leads setting after stop last)
    (goesOn : Leads setting (setting.over frame) rest last) :
    Leads setting (setting.over frame)
      (if condition then
        Grammar.expect .comma >>= fun _ =>
          eat kind >>= fun passed => if passed = true then stop else rest
      else rest) last :=
  .ite (fun _ => (expect_leads rfl).bind fun _ => .ifEat closes stops goesOn) fun _ => goesOn

end Eat

section Words

/-- The current token is a name where it is known to be a word. -/
theorem Leads.ifAtWord {β : Type} {word : String} {first second : Parse β} {last : β → View}
    (holds : Leads setting (Here .name before) first last)
    (fails : Leads setting before second last) :
    Leads setting before
      (atWord word >>= fun found => if found = true then first else second) last := by
  intro state held
  rw [Meets.bind_iff, meets_atWord]
  apply meets_ite
  · intro same
    rw [Bool.and_eq_true, beq_iff_eq] at same
    exact holds _ ⟨held.reached, ⟨same.1, held.here⟩, held.filled⟩
  · intro _
    exact fails _ held

/-- The current token is a comparison where it is known to be an angle bracket. -/
theorem Leads.ifAtAngle {β : Type} {bracket : String} {first second : Parse β} {last : β → View}
    (holds : Leads setting (Here .relational before) first last)
    (fails : Leads setting before second last) :
    Leads setting before
      (atAngle bracket >>= fun found => if found = true then first else second) last := by
  intro state held
  rw [Meets.bind_iff, meets_atAngle]
  apply meets_ite
  · intro same
    rw [Bool.and_eq_true, beq_iff_eq] at same
    exact holds _ ⟨held.reached, ⟨same.1, held.here⟩, held.filled⟩
  · intro _
    exact fails _ held

theorem eatWord_leads {word : String} :
    Leads setting (setting.over frame) (eatWord word) fun _ => setting.over frame :=
  .ifAtWord ((next_here rfl).bind fun _ => .pure) .pure

theorem expectWord_leads {word : String} :
    Leads setting (setting.over frame) (expectWord word) fun _ => setting.over frame :=
  eatWord_leads.bind fun _ => .ite (fun _ => .unexpected) fun _ => .pure

theorem expectAngle_leads {bracket : String} :
    Leads setting (setting.over frame) (expectAngle bracket) fun _ => setting.over frame :=
  .ifAtAngle (next_here rfl) .unexpected

end Words

section Lines

theorem onNewLine_leads : Leads setting view onNewLine fun _ => view := by
  intro state held
  have sound := held.sound
  simp only [onNewLine, Meets.bind_iff, meets_get, meets_lex, Lexer.meets_breaksBetween]
  exact ⟨⟨sound.ordered, sound.previous, sound.boundary⟩, held⟩

theorem mayEndStatement_leads : Leads setting view mayEndStatement fun _ => view :=
  .look fun _ => .ite (fun _ => .pure) fun _ => onNewLine_leads

/-- A statement ends within its frame. -/
theorem endsStatement_leads :
    Leads setting (setting.over frame) endsStatement fun _ => setting.over frame :=
  .ifEat (next_here rfl) .pure mayEndStatement_leads

theorem endStatement_leads :
    Leads setting (setting.over frame) endStatement fun _ => setting.over frame :=
  endsStatement_leads.bind fun _ => .ite (fun _ => .unexpected) fun _ => .pure

/-- The text of the current token is there. -/
theorem rawText_leads : Leads setting view rawText fun _ => view := by
  intro state held
  have sound := held.sound
  simp only [rawText, Meets.bind_iff, meets_get, meets_lex, Lexer.meets_slice]
  obtain ⟨text, sliced⟩ := Source.slice?_isSome sound.boundary sound.closing sound.within
  exact ⟨text, sliced, held⟩

/-- A look at the next token changes nothing. -/
theorem lookahead_leads : Leads setting view (lex Lexer.lookahead) fun _ => view := by
  intro state held
  rw [meets_lex]
  refine (Lexer.lookahead_meets held.reached).mono ?_
  rintro _ _ rfl
  exact held

theorem isKeyword_leads {word : String} :
    Leads setting view (lex (Lexer.isKeyword word)) fun _ => view := by
  intro state held
  rw [meets_lex, Lexer.isKeyword, Meets.bind_iff, meets_read, Meets.bind_iff, meets_get]
  exact meets_ite (fun _ => held) fun _ => held

end Lines

end Grammar

end EcmaSyntax
