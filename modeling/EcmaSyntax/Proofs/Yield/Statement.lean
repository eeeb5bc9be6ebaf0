import EcmaSyntax.Grammar.Statement.Basic
import EcmaSyntax.Proofs.Yield.Line
import EcmaSyntax.Proofs.Yield.Module

namespace EcmaSyntax

namespace Grammar

variable {law : Law} {given : Prop} {rules : Rules} {mark : Mark} {node : Node}

instance : Plain labelTarget := inferInstanceAs (Plain (kind >>= _))

instance : Plain goesThrough := inferInstanceAs (Plain (atKind _ >>= _))

/-- A statement of one token is lawful. -/
theorem tokenStatement_yields {form : Form} (plain : form.isPlain = true)
    (all : form.Has (Node.Lawful law) (Node.Enclosed law)) :
    Yields law given (tokenStatement mark form) (Node.Lawful law) :=
  .step fun _ => finish_lawful plain fun _ => all

theorem debuggerStatement_yields :
    Yields law given (debuggerStatement mark) (Node.Lawful law) :=
  .step fun _ => .ofFrom (.ended (.finishPlain rfl rfl rfl rfl rfl fun _ => trivial))

instance {topLevel : Bool} : Plain (checkModuleItem mark topLevel) :=
  inferInstanceAs (Plain (read >>= _))

theorem orTurnBack_yields {look : Parse Bool} {action : Parse (Option Node)} [looks : Plain look]
    {here there : Lexer.Setting → Lexer.State → Prop}
    (finds : ∀ setting (state : State), state.lexer.Tracked setting.toSetting →
      here setting.toSetting state.lexer → Gives look setting state fun found after =>
        found = true → there setting.toSetting after.lexer)
    (yields : YieldsFrom law none there given action (PartLawful law)) :
    YieldsFrom law none here given (orTurnBack look action) (PartLawful law) where
  steps := by
    refine ⟨⟨fun setting state => ?_, fun setting state => ?_, fun setting state => ?_⟩,
      fun setting state => ?_⟩
    · have grown := looks.extends_ setting state
      rw [orTurnBack_eq]
      cases ends : look setting state with
      | ok found middle =>
          rw [ends] at grown
          cases found with
          | true => exact grown.trans (yields.steps.extends_ setting middle)
          | false => exact .refl _
      | error failure middle => rwa [ends] at grown
    · intro value after ends
      rw [orTurnBack_eq] at ends
      split at ends
      · next middle found =>
          exact (looks.traces setting state _ _ found).trans
            (yields.steps.traces setting middle _ _ ends)
      · cases ends
        exact .refl _
      · cases ends
    · exact (looks.called setting state).orTurnBack (yields.steps.called setting)
    · intro value after ends
      rw [orTurnBack_eq] at ends
      split at ends
      · next middle found =>
          exact (yields.steps.flags setting middle _ _ ends).trans
            (looks.flags setting state _ _ found)
      · cases ends
        rfl
      · cases ends
  good setting state under met := by
    intro value after ends within _ waiting known
    rw [orTurnBack_eq] at ends
    split at ends
    · next middle found =>
        have labels := looks.labels setting state _ _ found
        rw [Waiting, ← looks.decorators setting state _ _ found] at waiting
        rw [← labels]
        exact yields.good setting middle (looks.under under _ _ found)
          (finds setting state under.tracked met true middle found rfl) value after ends within
          .anywhere waiting known
    · cases ends
      exact ⟨.none, waiting, rfl⟩
    · cases ends

variable (lawful : rules.Lawful law)

include lawful

/-- What a declaration binds is a pattern of names that may be bound. -/
theorem variableHead_yields : Yields law given (variableHead rules) fun node =>
    LawfulPattern law node ∧ Bound law.mode node := by
  refine (binding_yields lawful).bind fun id => checkBound_yields.bind fun _ =>
    ( typeAnnotation?_yields lawful).bind fun annot => ?_
  split
  · refine ((annotate_yields (fun known => known.1.1.2.lawful)
      (fun known => known.1.1.2.pattern.isUnlaid) fun known => known.2 _ rfl).and
        annotate_retypes).refine ?_
    rintro node ⟨⟨⟨_, read⟩, bound⟩, _⟩ ⟨lawful, retyped⟩
    exact ⟨⟨lawful, read.pattern.retyped retyped⟩, bound.retyped retyped⟩
  · exact .pure fun known => ⟨known.1.1.2, known.1.2⟩

/-- A variable is lawful, with its value. -/
theorem declarator_yields {inLoop : Bool} {kind : VariableKind} :
    Yields law given (declarator rules inLoop kind) (Node.Lawful law) := by
  refine .step fun mark => (variableHead_yields lawful).bind fun id => ?_
  refine .step fun _ => .step fun _ => ?_
  have rest : ∀ init : Option Node,
      Yields law ((given ∧ LawfulPattern law id ∧ Bound law.mode id) ∧ PartLawful law init)
        (finish mark (.variableDeclarator id init)) (Node.Lawful law) := by
    refine fun _ => .lawful (finish_permitted rfl ?_ fun known => ⟨known.1.2.1.lawful, known.2⟩)
    rintro ⟨⟨_, read, bound⟩, _⟩
    exact Form.permitted_of_binds rfl bound.bindable ⟨read.pattern, bound.names⟩
  refine .ite (fun _ => .bind ((assignment_yields lawful).map fun _ => .some) rest) fun _ => ?_
  refine .ite (fun _ => .fail) fun _ => .ite (fun _ => .step fun _ => .raised) fun _ => ?_
  exact .value ((rest none).ofGiven fun known => ⟨known, .none⟩)

/-- A declaration of variables is lawful. -/
theorem variableStatement_yields {kind : VariableKind} :
    Yields law given (variableStatement rules mark kind) (Node.Lawful law) :=
  .step fun _ => (commaSeparated_yields (declarator_yields lawful)).bind fun _ =>
    .ofFrom (.ended (.finishPlain rfl rfl rfl rfl rfl And.right))

/-- An expression that may be left out before a mark is lawful. -/
theorem expressionBefore_yields {close : Kind} :
    Yields law given (expressionBefore rules close) (PartLawful law) :=
  .step fun _ => .ite (fun _ => .pure fun _ => .none) fun _ =>
    (expression_yields lawful).bind fun _ => .pure fun known => .some known.2

/-- The value that is returned begins on the line of the word before it. -/
theorem returnStatement_yields :
    YieldsFrom law none (fun _ lexer => lexer.kind = .kwReturn ∧ lexer.start = mark.pos) given
      (returnStatement rules mark) (Node.Lawful law) := by
  refine .look fun state => .look fun setting => .ite (fun _ => .ofYields .raised) fun _ =>
    .passWord (.maybeEnd (.finishPlain rfl rfl rfl rfl rfl fun _ => Maybe.none) (.led ?_))
  refine (expression_yields lawful).bind fun argument => .ofFrom (.ended
    (.finishLawful rfl rfl rfl rfl ?_ fun known => Maybe.some known.2))
  rintro known _ ⟨rfl⟩
  exact known.1.2

/-- What is thrown begins on the line of the word before it. -/
theorem throwStatement_yields :
    YieldsFrom law none (fun _ lexer => lexer.kind = .kwThrow ∧ lexer.start = mark.pos) given
      (throwStatement rules mark) (Node.Lawful law) := by
  refine .passWord (.sameLine (.ofYields (.step fun _ => .raised)) (.led ?_))
  refine (expression_yields lawful).bind fun argument => .ofFrom (.ended
    (.finishLawful rfl rfl rfl rfl ?_ And.right))
  rintro known _ ⟨rfl⟩
  exact known.1.2

omit lawful in
/-- A word is passed, and the word for a function may stand on its line. -/
theorem declares_gives (setting : Setting) (state : State)
    (tracked : state.lexer.Tracked setting.toSetting) (here : state.lexer.start = mark.pos) :
    Gives (do
      next
      return (← atKind .kwFunction) && !(← mayEndStatement)) setting state fun found after =>
        found = true → after.lexer.Declares mark.pos setting.toSetting := by
  rw [Gives.bind_iff, next, gives_lex]
  intro _ lexer ends
  have here : state.lexer.At (fun token => token.start = mark.pos) setting.toSetting := here
  have passed := Lexer.next_after tracked here _ _ ends
  rw [Gives.bind_iff, gives_atKind, Gives.bind_iff]
  refine (mayEndStatement_gives (Lexer.next_tokens tracked ends).2).mono ?_
  rintro stops _ ⟨rfl, known⟩
  refine gives_pure.mpr fun found => ?_
  obtain ⟨kind, goesOn⟩ := Bool.and_eq_true_iff.mp found
  cases stops with
  | true => cases goesOn
  | false => exact ⟨passed, beq_iff_eq.mp kind, known⟩

/-- An asynchronous function is declared where its two words stand on one line. -/
theorem asyncDeclaration?_yields :
    YieldsFrom law none (fun _ lexer => lexer.start = mark.pos) given (asyncDeclaration? rules mark)
      (PartLawful law) := by
  refine .look fun _ => .ite (fun _ => ?_) fun _ => .ofYields (.pure fun _ => .none)
  have declared : YieldsFrom law none (Lexer.State.Declares mark.pos) given (do
      next
      return some (← functionTail rules mark true true false)) (PartLawful law) :=
    .joined (.step fun _ => (functionTail_yields lawful fun known _ => known.2).bind fun _ =>
      .pure fun known => .some known.2.lawful)
  have turned : YieldsFrom law none (fun _ lexer => lexer.start = mark.pos) given (orTurnBack (do
      next
      return (← atKind .kwFunction) && !(← mayEndStatement)) _) (PartLawful law) :=
    orTurnBack_yields declares_gives declared
  simpa only [orTurnBack, bind_assoc, pure_bind] using turned

/-- A declaration that begins with a mere word is lawful. -/
theorem wordDeclaration?_yields :
    Yields law given (wordDeclaration? rules mark node) (PartLawful law) := by
  refine .step fun _ => .ite (fun _ => .step fun kind => ?_) fun _ => .pure fun _ => .none
  split
  · refine .ite (fun _ => ?_) fun _ => .pure fun _ => .none
    exact .via (Node.Lawful law) (.ofGiven (lawful.yields (.declared mark) rfl) fun _ => trivial)
      fun _ => .pure fun known => .some known.2
  · exact .ite
      (fun _ => (interfaceTail_yields lawful).bind fun _ => .pure fun known => .some known.2)
      fun _ => .pure fun _ => .none
  · exact .ite
      (fun _ => (typeAliasTail_yields lawful).bind fun _ => .pure fun known => .some known.2)
      fun _ => .pure fun _ => .none
  · exact .pure fun _ => .none

/-- An expression that is a statement is lawful. -/
theorem expressionStatement_yields (expression : given → node.Lawful law) :
    Yields law given (expressionStatement rules mark node) (Node.Lawful law) := by
  refine (wordDeclaration?_yields lawful).bind fun declaration => ?_
  split
  · exact .pure fun known => known.2 _ rfl
  · exact .ofFrom (.ended (.finishPlain rfl rfl rfl rfl rfl
      fun known => expression known.1))

end Grammar

end EcmaSyntax
