import EcmaSyntax.Grammar.Expression.Sequence
import EcmaSyntax.Proofs.Grammar.Function

namespace EcmaSyntax

namespace Grammar

open Lexer (View Frame)

variable {setting : Setting} {frame : Frame} {view : View} {rules : Rules}

section Lists

variable (sound : rules.Sound setting) (calm : frame.Calm)

include sound calm

/-- Expressions with commas keep to their frame while they may still become patterns. -/
theorem coverExpression_leads {noIn : Bool} :
    Leads setting (setting.over frame) (coverExpression rules noIn)
      fun _ => setting.over frame := by
  refine .look fun mark => (cover_leads sound calm).bind fun first => .ifAt (.here ?_) .pure
  refine .via (setting.over frame) (.loops fun ⟨items, pending⟩ => ?_) fun ⟨items, pending⟩ => ?_
  · exact .ifEat (next_here rfl) ((cover_leads sound calm).bind fun _ => .more) .done
  · exact checkReferenced_leads.bind fun _ => finish_leads.bind fun _ => .pure

/-- An expression keeps to its frame; a string can be quoted. -/
theorem expression_spelled {noIn : Bool} :
    Leads setting (setting.over frame) (expression rules noIn)
      (setting.spelled (setting.over frame)) := by
  refine .look fun mark => (assignment_spelled sound calm).bind fun first => ?_
  refine .ifAt (.here (.assume fun _ => ?_)) (.give fun _ _ met => met)
  refine .via (setting.over frame) (.loops fun items => ?_) fun items => ?_
  · exact .ifEat (next_here rfl) ((assignment_leads sound calm).bind fun _ => .more) .done
  · exact checkReferenced_leads.bind fun _ => (finish_quiet rfl).spelled

theorem expression_leads {noIn : Bool} :
    Leads setting (setting.over frame) (expression rules noIn) fun _ => setting.over frame :=
  (expression_spelled sound calm).plain

omit calm in
/-- A condition in parentheses keeps to the frame around it. -/
theorem parenExpression_leads :
    Leads setting (setting.over frame) (parenExpression rules) fun _ => setting.over frame :=
  (expect_open (.inl rfl)).bind fun _ => (expression_leads sound frame.calm_inner).bind fun _ =>
    (expect_close (.inl rfl)).bind fun _ => .pure

/-- A spread keeps to its frame. -/
theorem spread_leads :
    Leads setting (setting.passable frame) (spread rules) fun _ => setting.over frame :=
  .look fun _ => next_leads.bind fun _ => (cover_leads sound calm).bind fun _ =>
    finish_leads.bind fun _ => .pure

/-- An item of a list keeps to its frame. -/
theorem plainListItem_leads {allowHole : Bool} :
    Leads setting (setting.over frame) (plainListItem rules allowHole)
      fun _ => setting.over frame := by
  refine .look fun _ => .ite (fun _ => .pure) fun _ => .ifAt ?_ ?_
  · exact ((spread_leads sound calm).enter rfl).bind fun _ => .pure
  · exact (cover_leads sound calm).bind fun _ => .pure

/-- An item of a list keeps to its frame, and so does a hole. -/
theorem listItem_leads {allowHole : Bool} :
    Leads setting (setting.over frame) (listItem rules allowHole)
      fun _ => setting.over frame := by
  refine .look fun mark => (plainListItem_leads sound calm).bind fun item => ?_
  refine .look fun _ => .look fun _ => .ite (fun _ => ?_) fun _ => .pure
  split
  · exact .unexpected
  · exact ( typeAnnotation_leads sound calm).bind fun _ => finish_leads.bind fun _ => .pure

/-- The last token of a list may lead out of its frame. -/
theorem listItems_leads {close : Kind} {allowHoles : Bool}
    (closes : Leads setting (Here close (setting.over frame)) next fun _ => view) :
    Leads setting (setting.over frame) (listItems rules close allowHoles) fun _ => view := by
  refine .via view (.loops fun ⟨first, items, pending⟩ => ?_) fun ⟨items, pending⟩ => .pure
  refine .ifEat closes .done (.separated closes .done ?_)
  exact (listItem_leads sound calm).bind fun _ => .more

/-- An array keeps to its frame. -/
theorem arrayLiteral_quiet :
    Leads setting (setting.passable frame) (arrayLiteral rules)
      fun cover => With (cover.value.form.isQuiet = true) (setting.over frame) :=
  .look fun _ => next_leads.bind fun _ =>
    (listItems_leads sound calm (next_here rfl)).bind fun _ => checkReferenced_leads.bind fun _ =>
      (finish_quiet rfl).bind fun _ => .give fun _ _ met => met

omit calm in
/-- The parenthesis before the operands has been passed. -/
theorem plainArguments_leads :
    Leads setting (setting.over frame.inner) (plainArguments rules)
      fun _ => setting.over frame :=
  (listItems_leads sound frame.calm_inner (next_closed (.inl rfl))).bind fun _ =>
    settle_plain.bind fun _ => checkReferenced_leads.bind fun _ => .pure

end Lists

section Template

/-- A chunk of a template has been passed, or the end of the text has been met in its place. -/
def Chunked (setting : Setting) (frame : Frame) (last : Bool) (state : State) : Prop :=
  (last = false ∧ state.lexer.kind = .eof ∧ state.attachments.Filled) ∨
    Held setting (fun kind contexts =>
      (last = true → kind = .backQuote) ∧ Lexer.Quoted frame kind contexts) state

/-- At the end of the text nothing is passed. -/
theorem next_atEnd {state : State} (held : Held setting view state)
    (ending : state.lexer.kind = .eof) :
    Meets next setting state fun _ after =>
      after.lexer.kind = .eof ∧ after.attachments.Filled := by
  have sound := held.sound
  have within : state.lexer.start ≤ state.lexer.pos := sound.stops ▸ sound.within
  have boundary := Source.le_size_of_isBoundary sound.cursor.boundary
  rw [next, meets_lex]
  refine (Lexer.next_meets sound).mono ?_
  rintro _ lexer ⟨advances, -⟩
  refine ⟨Lexer.Fetches.stays advances ?_, held.filled⟩
  rw [Lexer.State.record_pos]
  refine Nat.le_antisymm boundary ?_
  rw [← sound.atEnd ending]
  exact within

/-- A chunk of a template ends at a hole or at the end of the template. -/
theorem templateChunk_meets {state : State} (held : Held setting (setting.nests frame) state) :
    Meets templateChunk setting state fun result after =>
      Chunked setting frame result.2 after := by
  rw [templateChunk, Meets.bind_iff, meets_mark]
  refine (rawText_leads _ held).bind ?_
  intro raw state held
  rw [Meets.bind_iff, meets_valueText]
  by_cases ending : state.lexer.kind = .eof
  · refine (next_atEnd held ending).bind ?_
    rintro _ state ⟨ending, filled⟩
    rw [Meets.bind_iff, meets_atKind]
    refine (finish_moved filled).bind ?_
    intro _ after moved
    obtain ⟨leading, trailing, same⟩ := moved.lexer
    refine .inl ⟨?_, ?_, moved.filled⟩
    · rw [ending]
      rfl
    · rw [same]
      exact ending
  · have chunk : Leads setting
        (fun kind contexts => kind ≠ .eof ∧ setting.nests frame kind contexts) next
        fun _ => Lexer.Quoted frame :=
      .next (fun _ _ met => met.1) fun _ _ met advances => advances.chunk met.2
    refine (chunk _ (held.mono fun nests => ⟨ending, nests⟩)).bind ?_
    intro _ state held
    rw [Meets.bind_iff, meets_atKind]
    have noted : Held setting (fun kind contexts =>
        ((state.lexer.kind == .backQuote) = true → kind = .backQuote) ∧
          Lexer.Quoted frame kind contexts) state :=
      held.mono fun quoted => ⟨beq_iff_eq.mp, quoted⟩
    refine (finish_leads _ noted).bind ?_
    intro _ state held
    exact .inr held

/-- The substitutions of a template stand between their braces. -/
theorem template_quiet (sound : rules.Sound setting) :
    Leads setting (Here .backQuote (setting.over frame)) (template rules)
      (Quiet (setting.over frame)) := by
  refine .look fun mark => next_quote.bind fun _ => ?_
  have ends : Leads setting
      (fun kind contexts => kind = .backQuote ∧ Lexer.Quoted frame kind contexts) next
      fun _ => setting.over frame :=
    .next (fun _ _ met => by rw [met.1]; decide) fun _ _ met advances =>
      advances.quoteEnd met.1 met.2
  have opens : Leads setting (Here .dollarBraceL (Lexer.Quoted frame)) next
      fun _ => setting.over frame.inner := by
    refine .next (fun _ _ met => by rw [met.1]; decide) ?_
    rintro first last ⟨same, quoted⟩ advances
    refine .inr (.inr (advances.nests (quoted.opening same) ?_ ?_ fun _ => frame.calm_inner))
    · rw [same]
      decide
    · rw [same]
      decide
  intro state held
  refine (templateChunk_meets held).bind ?_
  intro first state chunked
  refine (Leads.loopUntil (fun gathered => Chunked setting frame gathered.2.2)
    (fun _ => Held setting fun kind contexts =>
      kind = .backQuote ∧ Lexer.Quoted frame kind contexts) ?_ chunked).bind ?_
  · rintro ⟨quasis, expressions, last⟩ state chunked
    apply meets_ite
    · rintro rfl
      rcases chunked with ⟨unfinished, -⟩ | held
      · exact absurd unfinished (by simp)
      · exact held.mono fun met => ⟨met.1 rfl, met.2⟩
    · intro _
      rw [Meets.bind_iff, expect, Meets.bind_iff]
      apply meets_eat
      · intro same
        rcases chunked with ⟨-, ending, -⟩ | held
        · rw [ending] at same
          exact absurd same (by decide)
        · refine (opens _ (held.mono fun met => ⟨same, met.2⟩)).mono ?_
          intro _ state held
          refine (expression_leads sound frame.calm_inner _ held).bind ?_
          intro inner state held
          refine ((Leads.expect (next_close (.inr rfl))) _ held).bind ?_
          intro _ state held
          refine (templateChunk_meets held).bind ?_
          rintro ⟨chunk, last⟩ state chunked
          exact chunked
      · intro _
        exact meets_unexpected.mpr trivial
  · rintro ⟨quasis, expressions⟩ state held
    exact (ends.bind fun _ => finish_quiet rfl) _ held

end Template

end Grammar

end EcmaSyntax
