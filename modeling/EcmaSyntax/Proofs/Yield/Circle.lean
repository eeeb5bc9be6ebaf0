import EcmaSyntax.Proofs.Yield.Bounds
import EcmaSyntax.Proofs.Yield.Control

namespace EcmaSyntax

namespace Grammar

variable {law : Law} {rules : Rules} {mark : Mark}

section Start

/-- What follows depends on whether the current token is of a kind. -/
theorem Begins.onAtKind {here : Lexer.State → Prop} {expected : Kind} {next : Bool → Parse Node}
    (found : Begins law (fun lexer => lexer.kind = expected) (next true))
    (other : Begins law here (next false)) : Begins law here (atKind expected >>= next) where
  steps := .step fun value => by
    cases value with
    | true => exact found.steps
    | false => exact other.steps
  good setting state chain outer under known fresh := by
    rw [Gives.bind_iff, gives_atKind]
    cases same : state.lexer.kind == expected with
    | true => exact found.good setting state chain outer under (beq_iff_eq.mp same) fresh
    | false => exact other.good setting state chain outer under known fresh

theorem checkModuleItem_still {topLevel : Bool} (setting : Setting) (state : State) :
    Gives (checkModuleItem mark topLevel) setting state fun _ after => after = state := by
  have module : Gives (do if !(← read).isModule then raise mark.pos .moduleItemInScript) setting
      state fun _ after => after = state :=
    gives_look fun _ => gives_ite (fun _ => fun _ _ absent => by cases absent)
      fun _ => gives_pure.mpr rfl
  refine gives_look fun _ => gives_ite (fun _ => gives_ite (fun _ => ?_) fun _ => module)
    fun _ => gives_pure.mpr rfl
  exact Gives.bind_iff.mpr fun _ _ absent => by cases absent

/-- Where no declaration is found the parse has turned back. -/
theorem asyncDeclaration?_still (setting : Setting) (state : State) :
    Gives (asyncDeclaration? rules mark) setting state fun found after =>
      found = none → after = state := by
  refine gives_look fun _ => gives_ite (fun _ => ?_) fun _ => gives_pure.mpr fun _ => rfl
  have turned : Gives (orTurnBack (do
      next
      return (← atKind .kwFunction) && !(← mayEndStatement)) (do
      next
      return some (← functionTail rules mark true true false))) setting state
      fun found after => found = none → after = state := by
    intro found after ends
    rw [orTurnBack_eq] at ends
    split at ends
    · next middle _ =>
        have some : Ends (do
            next
            return some (← functionTail rules mark true true false)) fun found => found ≠ none :=
          .last fun _ => .last fun _ => .give nofun
        exact fun none => absurd none (some setting middle found after ends)
    · cases ends
      exact fun _ => rfl
    · cases ends
  simpa only [orTurnBack, bind_assoc, pure_bind] using turned

variable (lawful : rules.Lawful law)

include lawful

/-- Decorators before a statement pass the token that they begin with. -/
theorem leadingDecorators_passes : Passes .at (leadingDecorators rules true) := by
  have known : Kind.at ≠ .eof ∧ Kind.at ≠ .template := by decide
  have each : Yields law True (decorator rules) (Node.Lawful law) := decorator_yields lawful
  have passes : Passes .at (decorator rules) := by
    refine fun setting state tracked here => Gives.bind_iff.mpr (gives_mark.mpr ?_)
    refine (next_passes known).bind (fun _ => ?_) setting state tracked here
    exact ((assignment_yields lawful : Yields law True _ _)).steps.bind fun _ => .plain
  refine Passes.bind (fun setting state tracked here => ?_) fun _ => ?_
  · refine gives_loop (fun _ now => now = state ∨ Passed now.lexer state.lexer.start)
      (fun _ after => Passed after.lexer state.lexer.start) (fun _ now met => ?_) (.inl rfl)
    rw [Gives.bind_iff, gives_atKind]
    refine gives_ite (fun _ => ?_) fun other => gives_pure.mpr ?_
    · rw [Gives.bind_iff]
      intro taken middle read
      rw [Gives.bind_iff, gives_modify, gives_pure]
      rcases met with rfl | passed
      · exact .inr (passes setting now tracked here taken middle read)
      · have grown := each.steps.extends_ setting now
        rw [read] at grown
        exact .inr (passed.later grown)
    · rcases met with rfl | passed
      · exact absurd (beq_iff_eq.mpr here) other
      · exact passed
  · exact .step fun _ => .ite .plain (.step fun _ => .ite (.step fun _ => .plain) .plain)

end Start

section Statement

variable (lawful : rules.Lawful law)

include lawful

/-- An export begins behind its labels, where it may stand at all. -/
theorem exportStatement_begins {topLevel : Bool} :
    Begins law (fun lexer => lexer.kind = .kwExport) (do
      checkModuleItem mark topLevel
      exportStatement rules mark) :=
  .still checkModuleItem_still fun _ => .enterPlain rfl (next_passes (by decide)) fun _ _ =>
    exportRest_yields lawful

/-- A statement without decorators begins behind its labels. -/
theorem undecoratedStatement_begins (echoing : rules.Echoing) (expressing : rules.Expressing)
    {declaration topLevel : Bool} :
    Begins law (fun _ => True) (undecoratedStatement rules declaration topLevel) := by
  refine .onMark fun mark => .onKind fun current => ?_
  split
  · exact jumpStatement_begins.mono fun _ known => ⟨known.1.2, known.2⟩
  · exact jumpStatement_begins.mono fun _ known => ⟨known.1.2, known.2⟩
  · exact .ofYields debuggerStatement_yields
  · exact (doWhileStatement_begins lawful).mono fun _ => And.right
  · exact (forStatement_begins lawful expressing).mono fun _ => And.right
  · exact .ite
      (fun _ => .ofYields (.step fun _ => (functionTail_plain lawful).lawful))
      fun _ => .ofYields .unexpected
  · exact .ite (fun _ => .ofYields
      (takeDecorators_yields.bind fun _ => (classTail_yields lawful And.right).lawful))
      fun _ => .ofYields .unexpected
  · exact (ifStatement_begins lawful).mono fun _ => And.right
  · exact .ofFrom ((returnStatement_yields lawful).mono fun _ _ known => ⟨known.2, known.1.2⟩)
  · exact (switchStatement_begins lawful).mono fun _ => And.right
  · exact .ofFrom ((throwStatement_yields lawful).mono fun _ _ known => ⟨known.2, known.1.2⟩)
  · exact (tryStatement_begins lawful).mono fun _ => And.right
  · exact .ofYields (variableStatement_yields lawful)
  · exact .ite (fun _ => .ofYields (variableStatement_yields lawful)) fun _ => .ofYields .unexpected
  · exact .ite (fun _ => .ofYields (variableStatement_yields lawful)) fun _ => .ofYields .unexpected
  · exact (whileStatement_begins lawful).mono fun _ => And.right
  · exact (withStatement_begins lawful).mono fun _ => And.right
  · exact (blockStatement_begins lawful).mono fun _ => And.right
  · exact .ofYields (tokenStatement_yields rfl trivial)
  · exact (exportStatement_begins lawful).mono fun _ => And.right
  · exact .ofYields (.step fun _ => importStatement_yields)
  · exact .orElse ((asyncDeclaration?_yields lawful).mono fun _ _ known => known.1.2)
      asyncDeclaration?_still
      ((plainStatement_begins lawful echoing).mono fun _ known => known.1.2)

/-- Every statement begins behind its labels. -/
theorem statementRule_begins (echoing : rules.Echoing) (expressing : rules.Expressing)
    {declaration topLevel : Bool} :
    Begins law (fun _ => True) (statement rules declaration topLevel) := by
  refine .nested (.look fun _ => .look fun _ => .look fun _ => .ite (fun _ => .ofYields ?_)
    fun _ => .onAtKind ?_ ?_)
  · exact .step fun _ => .step fun _ => interfaceTail_yields lawful
  · exact .later rfl (leadingDecorators_passes lawful) (leadingDecorators_yields lawful)
      fun _ => undecoratedStatement_begins lawful echoing expressing
  · exact undecoratedStatement_begins lawful echoing expressing

end Statement

/-- The operations of the operators that are grouped, and what stands behind unary operators, are
as a law asks. -/
structure Operating (law : Law) (rules : Rules) : Prop where
  operators : ∀ left mark level noIn, Yields law (left.Apt law)
    (operators rules left mark level noIn) (Node.Above law level)
  prefixed : Yields law True (prefixed rules) (Node.Apt law)

/-- A rule yields what it should in code of one mode if the rules that it refers to do. -/
theorem rule_yields (lawful : rules.Lawful law) (expressing : rules.Expressing)
    (operating : Operating law rules) (goal : Goal) (other : goal.isStatement = false) :
    Yields law (goal.Given law) (rule rules goal) (goal.Good law) := by
  cases goal with
  | statement declaration topLevel => cases other
  | assignment noIn inParens => exact assignmentRule_yields lawful expressing
  | operators left mark level noIn => exact operating.operators left mark level noIn
  | unary => exact unary_yields lawful expressing operating.prefixed
  | atom => exact primary_yields lawful expressing
  | binding => exact bindingRule_yields lawful expressing
  | element mark => exact element_yields lawful
  | type => exact typeExpression_yields lawful
  | prefixType => exact prefixTypeRule_yields lawful
  | primaryType => exact primaryTypeRule_yields lawful
  | declared mark => exact declared_yields lawful

/-- Each rule yields what is lawful if those do that it refers to. -/
theorem rule_lawful (lawful : rules.Lawful law) (echoing : rules.Echoing)
    (expressing : rules.Expressing) (operating : ∀ mode, Operating (law.under mode) rules) :
    (rule rules).Lawful law where
  bounded := by
    have steps : ∀ goal : Goal, goal.isStatement = false → Steps (rule rules goal) :=
      fun goal other => (rule_yields lawful expressing (operating law.mode) goal other).steps
    refine rule_bounded lawful expressing fun goal => ?_
    cases goal with
    | statement declaration topLevel => exact (statementRule_begins lawful echoing expressing).steps
    | _ => exact steps _ rfl
  naming := primary_naming
  yieldsUnder mode goal other :=
    rule_yields (lawful.under mode) expressing (operating mode) goal other
  beginsUnder mode _ _ := statementRule_begins (lawful.under mode) echoing expressing

/-- Where no rules may refer to each other any more, nothing is yielded. -/
theorem rulesWithin_zero_lawful : (rulesWithin 0).Lawful law where
  bounded _ _ := .tooDeep
  naming _ _ _ := fun _ _ absent => by cases absent
  yieldsUnder _ _ _ := .tooDeep
  beginsUnder _ _ _ :=
    ⟨(inferInstance : Plain tooDeep).toSteps, fun _ _ _ _ _ _ _ _ _ absent => by cases absent⟩

end Grammar

end EcmaSyntax
