import EcmaSyntax.Grammar.Statement.Control
import EcmaSyntax.Proofs.Grammar.Sequence

namespace EcmaSyntax

namespace Grammar

open Lexer (View Frame)

variable {setting : Setting} {frame : Frame} {view before : View} {rules : Rules} {α : Type}

section Label

variable {action : Parse α} {after : α → View}

/-- A label matters to no frame. -/
theorem labeled_leads {label : Label} (leads : Leads setting before action after) :
    Leads setting before (labeled label action) after :=
  .change (fun _ => rfl) (fun _ => rfl) <| leads.bind fun _ =>
    .change (fun _ => rfl) (fun _ => rfl) <| .give fun _ _ met => met

theorem withinLoop_leads (leads : Leads setting before action after) :
    Leads setting before (withinLoop action) after := labeled_leads leads

/-- A jump keeps to its frame. -/
theorem jumpStatement_quiet {mark : Mark} {isBreak : Bool} :
    Leads setting (setting.passable frame) (jumpStatement mark isBreak)
      (Quiet (setting.over frame)) := by
  have rest : ∀ label : Option Node, Leads setting (setting.over frame)
      (do
        if !(← get).labels.any fun known => known.allows isBreak (label.bind Node.name?) then
          raise mark.pos (.jumpWithoutTarget (if isBreak then "break" else "continue"))
        finish mark (if isBreak then .breakStatement label else .continueStatement label))
      (Quiet (setting.over frame)) := by
    intro label
    refine .look fun _ => .guard (fun _ => .raise) (finish_quiet ?_)
    split <;> rfl
  refine next_leads.bind fun _ => endsStatement_leads.bind fun _ => .look fun _ => ?_
  refine .ite (fun _ => .bind .pure rest) fun _ => .ite (fun _ => ?_) fun _ => .fail
  exact identifier_leads.bind fun _ => endStatement_leads.bind fun _ => .bind .pure rest

/-- What a label stands before is seen without reading tokens. -/
theorem labelTarget_leads : Leads setting view labelTarget fun _ => view := by
  refine .look fun kind => .ite (fun _ => .pure) fun _ => ?_
  exact .ite (fun _ => .pure) fun _ => .pure

/-- A labelled statement keeps to its frame. -/
theorem labeledStatement_quiet {mark : Mark} {name : String} {id : Node}
    (sound : rules.Sound setting) (calm : frame.Calm) :
    Leads setting (setting.over frame) (labeledStatement rules mark name id)
      (Quiet (setting.over frame)) :=
  .look fun _ => .guard (fun _ => .raise) (labelTarget_leads.bind fun _ => .look fun _ =>
    .change (fun _ => rfl) (fun _ => rfl) <|
      (labeled_leads (statement_leads sound calm)).bind fun _ => finish_quiet rfl)

end Label

section Variable

/-- What a loop goes through begins with a word. -/
theorem goesThrough_leads :
    Leads setting (setting.over frame) goesThrough
      fun goes kind contexts => (goes = true → kind.isPassable = true) ∧
        setting.over frame kind contexts := by
  refine .test fun isIn => .testWord fun isOf => .give ?_
  rintro kind contexts ⟨word, into, passing⟩
  refine ⟨fun goes => ?_, passing⟩
  rcases Bool.or_eq_true_iff.mp goes with found | found
  · rw [into found]
    rfl
  · rw [word found]
    rfl

variable (sound : rules.Sound setting) (calm : frame.Calm)

include sound calm

/-- The name or the pattern of a variable keeps to its frame. -/
theorem variableHead_leads :
    Leads setting (setting.over frame) (variableHead rules) fun _ => setting.over frame := by
  refine (binding_leads sound calm).bind fun id => checkBound_leads.bind fun _ => ?_
  refine ( typeAnnotation?_leads sound calm).bind fun annot => ?_
  split
  · exact annotate_leads
  · exact .pure

/-- A variable keeps to its frame, and so does its value. -/
theorem declarator_leads {inLoop : Bool} {kind : VariableKind} :
    Leads setting (setting.over frame) (declarator rules inLoop kind)
      fun _ => setting.over frame := by
  refine .look fun mark => (variableHead_leads sound calm).bind fun id => ?_
  refine goesThrough_leads.bind fun given => .weaken ?_ fun _ _ goes => goes.2
  refine .ifEat (next_here rfl) ?_ (.ite (fun _ => .fail) fun _ => .ite (fun _ => ?_) fun _ => ?_)
  · exact (assignment_leads sound calm).map.bind fun _ => finish_leads
  · exact .look fun _ => .bind .raise fun _ => finish_leads
  · exact .bind .pure fun _ => finish_leads

/-- A list of variables keeps to its frame. -/
theorem declarators_leads {inLoop : Bool} {kind : VariableKind} :
    Leads setting (setting.over frame) (declarators rules inLoop kind)
      fun _ => setting.over frame := commaSeparated_leads (declarator_leads sound calm)

/-- A declaration of variables keeps to its frame. -/
theorem variableStatement_quiet {mark : Mark} {kind : VariableKind} :
    Leads setting (setting.passable frame) (variableStatement rules mark kind)
      (Quiet (setting.over frame)) :=
  next_leads.bind fun _ => (declarators_leads sound calm).bind fun _ =>
    endStatement_leads.bind fun _ => finish_quiet rfl

/-- An expression that may be left out before a mark keeps to its frame. -/
theorem expressionBefore_leads {close : Kind} :
    Leads setting (setting.over frame) (expressionBefore rules close)
      fun _ => setting.over frame :=
  .ifAt (.here .pure) ((expression_leads sound calm).bind fun _ => .pure)

/-- The head of a loop stands in the parenthesis that has been passed. -/
theorem countingLoop_quiet {mark : Mark} {init : Option Node} :
    Leads setting (setting.over frame.inner) (countingLoop rules mark init)
      (Quiet (setting.over frame)) :=
  (expect_leads rfl).bind fun _ => (expressionBefore_leads sound frame.calm_inner).bind fun _ =>
    (expect_leads rfl).bind fun _ => (expressionBefore_leads sound frame.calm_inner).bind fun _ =>
      (expect_close (.inl rfl)).bind fun _ => (statement_leads sound calm).bind fun _ =>
        finish_quiet rfl

/-- A loop through something ends in the frame around its head. -/
theorem throughLoop_quiet {mark : Mark} {left : Node} :
    Leads setting (setting.passable frame.inner) (throughLoop rules mark left)
      (Quiet (setting.over frame)) := by
  refine .look fun keys => next_leads.bind fun _ => ?_
  refine (expression_leads sound frame.calm_inner).bind fun _ => ?_
  refine (expect_close (.inl rfl)).bind fun _ => (statement_leads sound calm).bind fun _ => ?_
  refine finish_quiet ?_
  split <;> rfl

/-- A loop whose head declares variables ends in the frame around its head. -/
theorem declaringLoop_quiet {mark : Mark} {kind : VariableKind} :
    Leads setting (setting.passable frame.inner) (declaringLoop rules mark kind)
      (Quiet (setting.over frame)) := by
  refine .look fun _ => next_leads.bind fun _ => ?_
  refine (declarators_leads sound frame.calm_inner).bind fun _ => finish_leads.bind fun _ => ?_
  refine goesThrough_leads.bind fun goes => .ite (fun known => ?_) fun _ => ?_
  · refine (throughLoop_quiet sound calm).weaken fun _ _ found => ?_
    exact ⟨found.1 (Bool.and_eq_true_iff.mp known).1, found.2⟩
  · exact (countingLoop_quiet sound calm).weaken fun _ _ found => found.2

/-- A loop whose head begins with an expression ends in the frame around its head. -/
theorem expressionLoop_quiet {mark : Mark} :
    Leads setting (setting.over frame.inner) (expressionLoop rules mark)
      (Quiet (setting.over frame)) := by
  refine (coverExpression_leads sound frame.calm_inner).bind fun init => ?_
  refine goesThrough_leads.bind fun goes => .ite (fun known => ?_) fun _ => ?_
  · refine (toTarget_leads _ _).bind fun _ => checkAssigned_leads.bind fun _ => ?_
    exact (throughLoop_quiet sound calm).weaken fun _ _ found => ⟨found.1 known, found.2⟩
  · exact settle_plain.bind fun _ =>
      (countingLoop_quiet sound calm).weaken fun _ _ found => found.2

/-- Every loop that begins with its head keeps to its frame. -/
theorem forStatement_quiet {mark : Mark} :
    Leads setting (setting.passable frame) (forStatement rules mark)
      (Quiet (setting.over frame)) := by
  refine next_leads.bind fun _ => withinLoop_leads ?_
  refine (expect_open (.inl rfl)).bind fun _ => .onKind fun current => ?_
  refine .ite (fun _ => .here (countingLoop_quiet sound calm)) fun _ => ?_
  split
  · next kind declares =>
      refine (declaringLoop_quiet sound calm).enter ?_
      cases current <;> first | rfl | simp [variableKind?] at declares
  · exact .here (expressionLoop_quiet sound calm)

end Variable

section Control

variable (sound : rules.Sound setting) (calm : frame.Calm)

include sound calm

/-- A loop whose condition comes last keeps to its frame. -/
theorem doWhileStatement_quiet {mark : Mark} :
    Leads setting (setting.passable frame) (doWhileStatement rules mark)
      (Quiet (setting.over frame)) :=
  next_leads.bind fun _ => (withinLoop_leads (statement_leads sound calm)).bind fun _ =>
    (expect_leads rfl).bind fun _ => (parenExpression_leads sound).bind fun _ =>
      (eat_leads rfl).bind fun _ => finish_quiet rfl

/-- A loop with a condition keeps to its frame. -/
theorem whileStatement_quiet {mark : Mark} :
    Leads setting (setting.passable frame) (whileStatement rules mark)
      (Quiet (setting.over frame)) :=
  next_leads.bind fun _ => (parenExpression_leads sound).bind fun _ =>
    (withinLoop_leads (statement_leads sound calm)).bind fun _ => finish_quiet rfl

/-- A choice keeps to its frame, with both of its branches. -/
theorem ifStatement_quiet {mark : Mark} :
    Leads setting (setting.passable frame) (ifStatement rules mark)
      (Quiet (setting.over frame)) := by
  refine next_leads.bind fun _ => (parenExpression_leads sound).bind fun _ => ?_
  refine (statement_leads sound calm).bind fun _ => .ifEat (next_here rfl) ?_ ?_
  · exact (statement_leads sound calm).map.bind fun _ => finish_quiet rfl
  · exact .bind .pure fun _ => finish_quiet rfl

/-- A return keeps to its frame. -/
theorem returnStatement_quiet {mark : Mark} :
    Leads setting (setting.passable frame) (returnStatement rules mark)
      (Quiet (setting.over frame)) := by
  refine .look fun _ => .look fun _ => .guard (fun _ => .raise) ?_
  refine next_leads.bind fun _ => endsStatement_leads.bind fun _ => ?_
  refine .ite (fun _ => finish_quiet rfl) fun _ => ?_
  exact (expression_leads sound calm).bind fun _ => endStatement_leads.bind fun _ =>
    finish_quiet rfl

/-- A throw keeps to its frame. -/
theorem throwStatement_quiet {mark : Mark} :
    Leads setting (setting.passable frame) (throwStatement rules mark)
      (Quiet (setting.over frame)) := by
  have rest : Leads setting (setting.over frame)
      (do
        let argument ← expression rules false
        endStatement
        finish mark (.throwStatement argument)) (Quiet (setting.over frame)) :=
    (expression_leads sound calm).bind fun _ => endStatement_leads.bind fun _ => finish_quiet rfl
  refine next_leads.bind fun _ => onNewLine_leads.bind fun _ => ?_
  exact .ite (fun _ => .look fun _ => .bind .raise fun _ => rest) fun _ => rest

omit sound calm in
/-- A case of a switch ends without a token of its own. -/
theorem closeCase_leads {parts : SwitchParts} :
    Leads setting view (closeCase parts) fun _ => view := by
  unfold closeCase
  split
  · exact Leads.bind finish_leads fun _ => .pure
  · exact .pure

/-- The head of a case keeps to its frame. -/
theorem openCase_leads {parts : SwitchParts} :
    Leads setting (setting.passable frame) (openCase rules parts)
      fun _ => setting.over frame := by
  have rest : ∀ (parts : SwitchParts) (mark : Mark) (isCase : Bool) (test : Option Node),
      Leads setting (setting.over frame)
      (do
        if !isCase && parts.hasDefault then raise (← get).lexer.lastStart .multipleDefaults
        expect .colon
        return ({ parts with
          current := some { mark, test }
          hasDefault := parts.hasDefault || !isCase } : SwitchParts))
      fun _ => setting.over frame := by
    have ends : ∀ parts : SwitchParts, Leads setting (setting.over frame)
        (do
          expect .colon
          return parts) fun _ => setting.over frame :=
      fun _ => (expect_leads rfl).bind fun _ => .pure
    exact fun _ _ _ _ =>
      .ite (fun _ => .look fun _ => .bind .raise fun _ => ends _) fun _ => ends _
  refine closeCase_leads.bind fun parts => .look fun mark => .look fun isCase => ?_
  refine next_leads.bind fun _ => .ite (fun _ => ?_) fun _ => .bind .pure fun _ => rest _ _ _ _
  exact (expression_leads sound calm).map.bind fun _ => rest _ _ _ _

/-- The brace that ends the cases leads out of their frame. -/
theorem switchCases_leads
    (closes : Leads setting (Here .braceR (setting.over frame)) next fun _ => view) :
    Leads setting (setting.over frame) (switchCases rules) fun _ => view := by
  refine .via (Here .braceR (setting.over frame)) (.loops fun parts => ?_) fun _ =>
    closes.bind fun _ => .pure
  refine .onKind fun current => ?_
  split
  · exact closeCase_leads.bind fun _ => .done
  · exact ((openCase_leads sound calm).enter rfl).bind fun _ => .more
  · exact ((openCase_leads sound calm).enter rfl).bind fun _ => .more
  · refine .here ?_
    split
    · exact (statement_leads sound calm).bind fun _ => .more
    · exact .unexpected

omit calm in
/-- A switch keeps to its frame, with all of its cases. -/
theorem switchStatement_quiet {mark : Mark} :
    Leads setting (setting.passable frame) (switchStatement rules mark)
      (Quiet (setting.over frame)) :=
  next_leads.bind fun _ => (parenExpression_leads sound).bind fun _ =>
    (expect_open (.inr rfl)).bind fun _ =>
      (labeled_leads (switchCases_leads sound frame.calm_inner (next_closed (.inr rfl)))).bind
        fun _ => finish_quiet rfl

/-- The handler of a trial keeps to its frame. -/
theorem catchClause?_leads :
    Leads setting (setting.over frame) (catchClause? rules) fun _ => setting.over frame := by
  refine .ifAt (.look fun mark => (next_here rfl).bind fun _ => ?_) .pure
  exact (expect_open (.inl rfl)).bind fun _ => (binding_leads sound frame.calm_inner).bind fun _ =>
    checkBoundOnce_leads.bind fun _ => (expect_close (.inl rfl)).bind fun _ =>
      (block_quiet sound calm).plain.bind fun _ => finish_leads.bind fun _ => .pure

/-- A trial keeps to its frame. -/
theorem tryStatement_quiet {mark : Mark} :
    Leads setting (setting.passable frame) (tryStatement rules mark)
      (Quiet (setting.over frame)) := by
  have block : Leads setting (setting.over frame) (block rules false)
      fun _ => setting.over frame := (block_quiet sound calm).plain
  refine next_leads.bind fun _ => block.bind fun _ => (catchClause?_leads sound calm).bind ?_
  refine fun _ => .ifEat (next_here rfl) (block.map.bind fun _ => ?_) (.bind .pure fun _ => ?_)
  · exact .guard (fun _ => .raise) (finish_quiet rfl)
  · exact .guard (fun _ => .raise) (finish_quiet rfl)

/-- A statement within an object keeps to its frame. -/
theorem withStatement_quiet {mark : Mark} :
    Leads setting (setting.passable frame) (withStatement rules mark)
      (Quiet (setting.over frame)) :=
  .look fun _ => .guard (fun _ => .raise) (next_leads.bind fun _ =>
    (parenExpression_leads sound).bind fun _ => (statement_leads sound calm).bind fun _ =>
      finish_quiet rfl)

end Control

end Grammar

end EcmaSyntax
