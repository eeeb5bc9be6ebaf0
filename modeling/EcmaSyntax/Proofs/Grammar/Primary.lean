import EcmaSyntax.Grammar.Expression.Primary
import EcmaSyntax.Proofs.Grammar.Class
import EcmaSyntax.Proofs.Grammar.Element

namespace EcmaSyntax

namespace Grammar

open Lexer (View Frame)

variable {setting : Setting} {frame : Frame} {view : View} {rules : Rules}

theorem tokenExpression_quiet {mark : Mark} {form : Form} (quiet : form.isQuiet = true) :
    Leads setting (setting.passable frame) (tokenExpression mark form)
      (Quiet (setting.over frame)) :=
  next_leads.bind fun _ => finish_quiet quiet

theorem superExpression_quiet {mark : Mark} :
    Leads setting (setting.passable frame) (superExpression mark)
      (Quiet (setting.over frame)) := by
  refine .look fun _ => .look fun _ => .guard (fun _ => .raise) ?_
  refine next_leads.bind fun _ => .onKind fun current => .here ?_
  split
  · exact .guard (fun _ => .raise) (finish_quiet rfl)
  · exact finish_quiet rfl
  · exact finish_quiet rfl
  · exact .fail

theorem metaPropertyTail_quiet {mark : Mark} {word : Node} {wanted : String} :
    Leads setting (setting.over frame) (metaPropertyTail mark word wanted)
      (Quiet (setting.over frame)) :=
  identifier_leads.bind fun _ => .guard (fun _ => .raise) (finish_quiet rfl)

theorem regexpLiteral_quiet :
    Leads setting (Here .regexp (setting.over frame)) regexpLiteral
      (Quiet (setting.over frame)) := by
  refine .look fun state => ?_
  split
  · exact (literal_quiet rfl).enter rfl
  · exact (literal_quiet rfl).enter rfl

section Name

variable (sound : rules.Sound setting) (calm : frame.Calm)

include sound calm

/-- What follows the word for waiting keeps to its frame. -/
theorem awaitTail_quiet {mark : Mark} :
    Leads setting (setting.over frame) (awaitTail rules mark) (Quiet (setting.over frame)) :=
  .look fun _ => .guard (fun _ => .unexpected) (endsStatement_leads.bind fun _ =>
    .guard (fun _ => .unexpected) ((eat_leads rfl).bind fun _ =>
      (operand_spelled sound calm).plain.bind fun _ => finish_quiet rfl))

/-- A name, or an arrow function with one parameter, keeps to its frame. -/
theorem nameOrArrow_quiet {mark : Mark} {id : Node} {maybeArrow : Bool}
    (quiet : id.form.isQuiet = true) :
    Leads setting (setting.over frame) (nameOrArrow rules mark id maybeArrow)
      (Quiet (setting.over frame)) := by
  refine mayEndStatement_leads.bind fun _ => ?_
  refine .choose (.ite (fun _ => eat_leads rfl) fun _ => .pure) fun isArrow => ?_
  exact .ite (fun _ => arrowTail_quiet sound calm) fun _ =>
    .give fun _ _ passing => ⟨quiet, passing⟩

/-- The word for asynchronous code keeps to its frame, whatever it turns out to be. -/
theorem asyncOrName_quiet {mark : Mark} {id : Node} {maybeArrow : Bool}
    (quiet : id.form.isQuiet = true) :
    Leads setting (setting.over frame) (asyncOrName rules mark id maybeArrow)
      (Quiet (setting.over frame)) := by
  refine .test fun isFunction => mayEndStatement_leads.bind fun _ => ?_
  refine .ite (fun known => .found (Bool.and_eq_true_iff.mp known).1 ?_) fun _ => .anyway ?_
  · exact (next_here rfl).bind fun _ => functionTail_quiet sound calm
  · refine .look fun _ => .ite (fun _ => ?_) fun _ => nameOrArrow_quiet sound calm quiet
    exact identifier_leads.bind fun _ => (expect_leads rfl).bind fun _ =>
      arrowTail_quiet sound calm

/-- An expression that begins with a name keeps to its frame. -/
theorem nameExpression_quiet {mark : Mark} {maybeArrow : Bool} :
    Leads setting (setting.over frame) (nameExpression rules mark maybeArrow)
      (Quiet (setting.over frame)) := by
  refine .look fun _ => .look fun _ => .look fun _ => .guard (fun _ => .unexpected) ?_
  refine .look fun _ => allowsYieldName_leads.bind fun _ => identifier_quiet.bind fun id => ?_
  refine .assume fun quiet => ?_
  split
  · exact .look fun _ => .ite (fun _ => awaitTail_quiet sound calm) fun _ =>
      nameOrArrow_quiet sound calm quiet
  · exact asyncOrName_quiet sound calm quiet
  · exact nameOrArrow_quiet sound calm quiet

/-- A function keeps to its frame where it is an expression. -/
theorem functionExpression_quiet :
    Leads setting (setting.over frame) (functionExpression rules)
      (Quiet (setting.over frame)) := by
  refine .look fun mark => identifier_leads.bind fun word => .look fun _ => ?_
  refine .choose (.ite (fun _ => eat_leads rfl) fun _ => .pure) fun isMeta => ?_
  exact .ite (fun _ => metaPropertyTail_quiet) fun _ => functionTail_quiet sound calm

/-- The construction of an object keeps to its frame. -/
theorem newExpression_quiet :
    Leads setting (setting.over frame) (newExpression rules) (Quiet (setting.over frame)) := by
  refine .look fun mark => identifier_leads.bind fun word => ?_
  refine .ifEat (next_here rfl) metaPropertyTail_quiet ?_
  refine (memberChain_leads sound calm).bind fun callee => ?_
  refine .ifEat (next_open (.inl rfl)) ?_ (.bind .pure fun _ => finish_quiet rfl)
  exact (plainArguments_leads sound).bind fun _ => finish_quiet rfl

/-- A class keeps to its frame where it is an expression. -/
theorem classExpression_quiet :
    Leads setting
      (fun kind contexts => (kind = .at ∨ kind = .kwClass) ∧ setting.over frame kind contexts)
      (classExpression rules) (Quiet (setting.over frame)) := by
  have rest : Leads setting (setting.passable frame)
      (do
        let mark ← mark
        let decorators ← takeDecorators
        classTail rules mark decorators false false) (Quiet (setting.over frame)) :=
    .look fun _ => takeDecorators_leads.bind fun _ => classTail_quiet sound calm
  intro state held
  obtain ⟨begins, passing⟩ := held.here
  rw [classExpression, Meets.bind_iff, meets_atKind]
  apply meets_ite
  · intro _
    exact ((leadingDecorators_leads sound calm).bind fun _ => rest) _ (held.mono And.right)
  · intro other
    rw [beq_iff_eq] at other
    exact rest _ (held.mono fun _ => ⟨begins.resolve_left other ▸ rfl, passing⟩)

/-- A block that is an expression keeps to its frame. -/
theorem doExpression_quiet {mark : Mark} :
    Leads setting (setting.passable frame) (doExpression rules mark)
      (Quiet (setting.over frame)) :=
  next_leads.bind fun _ => .look fun _ => (enclosed_leads sound calm).bind fun _ =>
    finish_quiet rfl

/-- A call that is bound to an object keeps to its frame. -/
theorem bindExpression_quiet {mark : Mark} :
    Leads setting (setting.passable frame) (bindExpression rules mark)
      (Quiet (setting.over frame)) := by
  refine next_leads.bind fun _ => (memberChain_leads sound calm).bind fun callee => ?_
  split
  · exact finish_quiet rfl
  · exact .raise

/-- An expression that begins neither with a string nor with a tag keeps to its frame. -/
theorem plainPrimary_spelled :
    Leads setting (setting.over frame) (plainPrimary rules)
      (setting.spelled (setting.over frame)) := by
  refine .look fun mark => .look fun state => .onKind fun current => ?_
  split
  · exact (superExpression_quiet.enter rfl).spelled
  · exact ((tokenExpression_quiet rfl).enter rfl).spelled
  · exact (nameExpression_quiet sound calm).spelled.here
  · exact (nameExpression_quiet sound calm).spelled.here
  · exact ((doExpression_quiet sound calm).enter rfl).spelled
  · exact regexpLiteral_quiet.spelled
  · exact numberLiteral_quiet.spelled
  · exact stringLiteral_spelled
  · exact ((tokenExpression_quiet rfl).enter rfl).spelled
  · exact ((tokenExpression_quiet rfl).enter rfl).spelled
  · exact ((tokenExpression_quiet rfl).enter rfl).spelled
  · exact parentheses_spelled sound calm
  · exact (functionExpression_quiet sound calm).spelled.here
  · exact ((classExpression_quiet sound calm).weaken fun _ _ here => ⟨.inl here.1, here.2⟩).spelled
  · exact ((classExpression_quiet sound calm).weaken fun _ _ here => ⟨.inr here.1, here.2⟩).spelled
  · exact (newExpression_quiet sound calm).spelled.here
  · exact (template_quiet sound).spelled
  · exact ((bindExpression_quiet sound calm).enter rfl).spelled
  · exact .unexpected

end Name

/-- A string can be quoted. -/
theorem stringPrimary_spelled :
    Leads setting (Here .string (setting.over frame)) (primary rules)
      fun cover => setting.spelled (setting.over frame) cover.value :=
  .known (Leads.bind (.look fun _ => .look fun _ => .known stringLiteral_spelled)
    fun _ => .give fun _ _ met => met)

/-- An element is read where its tag has been entered. -/
theorem elementPrimary_spelled (sound : rules.Sound setting) :
    Leads setting (Here .jsxTagStart (setting.over frame)) (primary rules)
      fun cover => setting.spelled (setting.over frame) cover.value :=
  .known (.look fun _ => next_tagged.bind fun _ => (element_spelled sound).bind
    fun _ => .give fun _ _ met => met)

/-- A string or an element may stand in a tag. -/
theorem primaryRule_spelled (sound : rules.Sound setting) :
    Leads setting (Goal.atom.before setting frame) (primary rules)
      fun cover => setting.spelled (setting.over frame) cover.value := by
  have anywhere (calm : frame.Calm) : Leads setting (setting.over frame) (primary rules)
      fun cover => setting.spelled (setting.over frame) cover.value := by
    refine .onKind fun current => ?_
    split
    · exact ((arrayLiteral_quiet sound calm).enter rfl).strengthen fun _ _ _ met =>
        ⟨spelled_of_quiet met.1, met.2⟩
    · exact (object_quiet sound).strengthen fun _ _ _ met => ⟨spelled_of_quiet met.1, met.2⟩
    · exact textChild_quiet.bind fun _ => .give fun _ _ met => ⟨spelled_of_quiet met.1, met.2⟩
    · exact .look fun _ => next_tagged.bind fun _ => (element_spelled sound).bind
        fun _ => .give fun _ _ met => met
    · exact .here ((plainPrimary_spelled sound calm).bind fun _ => .give fun _ _ met => met)
  intro state held
  obtain ⟨calm | string | starts, passing⟩ := held.here
  · exact anywhere calm _ (held.mono And.right)
  · exact stringPrimary_spelled _ (held.mono fun _ => ⟨string, passing⟩)
  · exact elementPrimary_spelled sound _ (held.mono fun _ => ⟨starts, passing⟩)

end Grammar

end EcmaSyntax
