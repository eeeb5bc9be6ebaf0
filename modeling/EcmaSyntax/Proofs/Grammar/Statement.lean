import EcmaSyntax.Grammar.Statement.Basic
import EcmaSyntax.Proofs.Grammar.Control
import EcmaSyntax.Proofs.Grammar.Module

namespace EcmaSyntax

namespace Grammar

open Lexer (View Frame)

variable {setting : Setting} {frame : Frame} {view : View} {rules : Rules} {mark : Mark}

/-- A statement of one token keeps to its frame. -/
theorem tokenStatement_quiet {form : Form} (quiet : form.isQuiet = true) :
    Leads setting (setting.passable frame) (tokenStatement mark form)
      (Quiet (setting.over frame)) :=
  next_leads.bind fun _ => finish_quiet quiet

theorem debuggerStatement_quiet :
    Leads setting (setting.passable frame) (debuggerStatement mark)
      (Quiet (setting.over frame)) :=
  next_leads.bind fun _ => endStatement_leads.bind fun _ => finish_quiet rfl

/-- Whether imports and exports may stand here is checked without reading tokens. -/
theorem checkModuleItem_leads {topLevel : Bool} :
    Leads setting view (checkModuleItem mark topLevel) fun _ => view :=
  .look fun _ => .ite (fun _ => .guard (fun _ => .raise) (.look fun _ =>
    .ite (fun _ => .raise) fun _ => .pure)) fun _ => .pure

variable (sound : rules.Sound setting) (calm : frame.Calm)

include sound calm

/-- Where no function is declared, the tokens that have been passed are put back. -/
theorem asyncDeclaration?_quiet :
    Leads setting (setting.over frame) (asyncDeclaration? rules mark)
      fun declared => With (∀ node ∈ declared, node.form.isQuiet = true)
        (setting.over frame) := by
  have nothing : Leads setting (setting.over frame) (pure none : Parse (Option Node))
      fun declared => With (∀ node ∈ declared, node.form.isQuiet = true)
        (setting.over frame) := .give fun _ _ passing => ⟨by simp, passing⟩
  refine .ifAtWord ?_ nothing
  intro before held
  have earlier : Held setting (setting.over frame) before := held.mono And.right
  have rest : Leads setting (setting.over frame)
      (do
        if (← atKind .kwFunction) && !(← mayEndStatement) then
          next
          return some (← functionTail rules mark true true false)
        else
          set before
          return none)
      fun declared => With (∀ node ∈ declared, node.form.isQuiet = true)
        (setting.over frame) := by
    refine .test fun isFunction => mayEndStatement_leads.bind fun _ => ?_
    refine .ite (fun known => .found (Bool.and_eq_true_iff.mp known).1 ?_) fun _ => ?_
    · refine (next_here rfl).bind fun _ => (functionTail_quiet sound calm).bind fun _ => ?_
      exact .give fun _ _ met => ⟨fun _ same => Option.some.inj same ▸ met.1, met.2⟩
    · exact .bind (.restore earlier) fun _ => nothing
  rw [Meets.bind_iff, meets_get]
  exact ((next_here rfl).bind fun _ => rest) _ held

/-- A declaration that begins with a mere word keeps to its frame. -/
theorem wordDeclaration?_directs {word : Node} :
    Leads setting (setting.over frame) (wordDeclaration? rules mark word)
      fun declared => With (∀ node ∈ declared, Directs setting.source node)
        (setting.over frame) := by
  have nothing : Leads setting (setting.over frame) (pure none : Parse (Option Node))
      fun declared => With (∀ node ∈ declared, Directs setting.source node)
        (setting.over frame) := .give fun _ _ passing => ⟨by simp, passing⟩
  have some : ∀ node, Leads setting (setting.directs (setting.over frame) node)
      (pure (some node) : Parse (Option Node))
      fun declared => With (∀ node ∈ declared, Directs setting.source node)
        (setting.over frame) := fun _ =>
    .give fun _ _ met => ⟨fun _ same => Option.some.inj same ▸ met.1, met.2⟩
  refine .look fun _ => .ite (fun _ => .look fun kind => ?_) fun _ => nothing
  split
  · exact .ite (fun _ => (declared_directs sound calm).bind some) fun _ => nothing
  · exact .ite (fun _ => (interfaceTail_quiet sound calm).directs.bind some) fun _ => nothing
  · exact .ite (fun _ => (typeAliasTail_quiet sound calm).directs.bind some) fun _ => nothing
  · exact nothing

/-- An expression that is a statement keeps to its frame. -/
theorem expressionStatement_directs {inner : Node} :
    Leads setting (setting.spelled (setting.over frame) inner)
      (expressionStatement rules mark inner) (setting.directs (setting.over frame)) := by
  refine .assume fun spelled => (wordDeclaration?_directs sound calm).bind fun declared => ?_
  refine .assume fun directs => ?_
  split
  · next declaration =>
      exact .give fun _ _ passing => ⟨directs declaration rfl, passing⟩
  · refine endStatement_leads.bind fun _ => finish_form.strengthen fun _ _ _ met => ?_
    exact ⟨spelled.directs met.1, met.2⟩

/-- A statement that begins with an expression or a word keeps to its frame. -/
theorem plainStatement_directs :
    Leads setting (setting.over frame) (plainStatement rules mark)
      (setting.directs (setting.over frame)) := by
  refine .look fun startsWithName => .look fun name => ?_
  refine (expression_spelled sound calm).bind fun inner => .assume fun spelled => ?_
  refine .choose (.ite (fun _ => eat_leads rfl) fun _ => .pure) fun isLabel => ?_
  refine .ite (fun _ => (labeledStatement_quiet sound calm).directs) fun _ => ?_
  exact (expressionStatement_directs sound calm).weaken fun _ _ passing => ⟨spelled, passing⟩

/-- A statement keeps to its frame after its decorators. -/
theorem undecoratedStatement_directs {declaration topLevel : Bool} :
    Leads setting (setting.over frame) (undecoratedStatement rules declaration topLevel)
      (setting.directs (setting.over frame)) := by
  refine .look fun mark => .onKind fun current => ?_
  split
  · exact (jumpStatement_quiet.enter rfl).directs
  · exact (jumpStatement_quiet.enter rfl).directs
  · exact (debuggerStatement_quiet.enter rfl).directs
  · exact ((doWhileStatement_quiet sound calm).enter rfl).directs
  · exact ((forStatement_quiet sound calm).enter rfl).directs
  · refine .ite (fun _ => ?_) fun _ => .unexpected
    exact (next_here rfl).bind fun _ => (functionTail_quiet sound calm).directs
  · refine .ite (fun _ => takeDecorators_leads.bind fun _ => ?_) fun _ => .unexpected
    exact ((classTail_quiet sound calm).enter rfl).directs
  · exact ((ifStatement_quiet sound calm).enter rfl).directs
  · exact ((returnStatement_quiet sound calm).enter rfl).directs
  · exact ((switchStatement_quiet sound).enter rfl).directs
  · exact ((throwStatement_quiet sound calm).enter rfl).directs
  · exact ((tryStatement_quiet sound calm).enter rfl).directs
  · exact ((variableStatement_quiet sound calm).enter rfl).directs
  · refine .ite (fun _ => ?_) fun _ => .unexpected
    exact ((variableStatement_quiet sound calm).enter rfl).directs
  · refine .ite (fun _ => ?_) fun _ => .unexpected
    exact ((variableStatement_quiet sound calm).enter rfl).directs
  · exact ((whileStatement_quiet sound calm).enter rfl).directs
  · exact ((withStatement_quiet sound calm).enter rfl).directs
  · exact (block_quiet sound calm).here.directs
  · exact ((tokenStatement_quiet rfl).enter rfl).directs
  · refine checkModuleItem_leads.bind fun _ => ?_
    exact ((exportStatement_quiet sound calm).enter rfl).directs
  · exact checkModuleItem_leads.bind fun _ => (importStatement_quiet.enter rfl).directs
  · refine .here ((asyncDeclaration?_quiet sound calm).bind fun declared => .assume fun quiet => ?_)
    split
    · next declaration =>
        exact .give fun _ _ passing => ⟨directs_of_quiet (quiet declaration rfl), passing⟩
    · exact plainStatement_directs sound calm

/-- Every statement keeps to its frame, and a directive spans its text. -/
theorem statementRule_directs {declaration topLevel : Bool} :
    Leads setting (setting.over frame) (statement rules declaration topLevel)
      (setting.directs (setting.over frame)) := by
  refine .nested (.look fun types => .look fun strict => .testWord fun found => ?_)
  refine .ite (fun known => .found (Bool.and_eq_true_iff.mp known).2 ?_) fun _ => .anyway ?_
  · exact .look fun _ => (next_here rfl).bind fun _ => (interfaceTail_quiet sound calm).directs
  · refine .ifAt (.here ?_) (undecoratedStatement_directs sound calm)
    exact (leadingDecorators_leads sound calm).bind fun _ =>
      (undecoratedStatement_directs sound calm).weaken passable_over

end Grammar

end EcmaSyntax
