import EcmaSyntax.Grammar.Statement.Variable
import EcmaSyntax.Proofs.Place.Function
import EcmaSyntax.Proofs.Place.Sequence

namespace EcmaSyntax

namespace Grammar

variable {α : Type} {setting : Setting} {rules : Rules} {hand : Hand} {first : Nat} {mark : Mark}
  {node id : Node}

section Label

/-- A label matters to no place. -/
theorem labeled_places {label : Label} {action : Parse α} {load : α → Load}
    (places : PlacesAs setting hand action load) :
    PlacesAs setting hand (labeled label action) load :=
  .alter (.altered places)

theorem withinLoop_places {action : Parse α} {load : α → Load}
    (places : PlacesAs setting hand action load) :
    PlacesAs setting hand (withinLoop action) load :=
  labeled_places places

instance : Reads labelTarget := inferInstanceAs (Reads (kind >>= _))

/-- A jump is made in its place. -/
theorem jumpStatement_places {isBreak : Bool} :
    Places setting { first := mark.pos } (jumpStatement mark isBreak) := by
  have rest (label : Option Node) :
      Places setting { first := mark.pos, given := label.toList, past := [mark.pos] } (do
        let name := label.bind Node.name?
        if !(← get).labels.any fun known => known.allows isBreak name then
          raise mark.pos (.jumpWithoutTarget (if isBreak then "break" else "continue"))
        finish mark (if isBreak then .breakStatement label else .continueStatement label)) := by
    refine .held fun known => .step fun _ => .guard (fun _ => .raise known.first) ?_
    cases isBreak
    · exact .finish
    · exact .finish
  exact .pass fun _ => .step fun _ => .step fun _ => .ite (fun _ => .value (.last (rest none)))
    fun _ => .ite (fun _ => .read identifier_places fun label _ => .step fun _ =>
      .value (.last (rest (some label)))) fun _ => .fail

/-- A labelled statement is made in its place. -/
theorem labeledStatement_places (placed : rules.Placed setting) {name : String} :
    Places setting { first := mark.pos, given := [id] } (labeledStatement rules mark name id) :=
  .held fun known => .step fun _ => .guard
    (fun _ => .raise (known.sits id List.mem_cons_self).here.start) <| .step fun _ => .step fun _ =>
      .alter (.read (labeled_places (placed.statement true false)) fun _ body =>
        .finish (body.extend (.single _) (.single _)))

end Label

section Variable

instance : Reads goesThrough := inferInstanceAs (Reads (atKind _ >>= _))

variable (placed : rules.Placed setting)

include placed

/-- The name or the pattern of a variable is made in its place. -/
theorem variableHead_places : Places setting { first := first } (variableHead rules) := by
  refine .read placed.binding fun id known => .check
    (checkBound_places (known.sits id List.mem_cons_self)) fun _ =>
      .read (typeAnnotation?_places placed) fun annot? later => ?_
  split
  · next annot =>
      exact annotate_places (later.after annot (by simp) id List.mem_cons_self)
  · exact .pure

/-- A variable is made in its place, with its value. -/
theorem declarator_places {inLoop : Bool} {kind : VariableKind} :
    Places setting { first := first } (declarator rules inLoop kind) := by
  have init {first : Nat} : Places setting { first := first } (some <$> rules.assignment inLoop) :=
    .map (assignment_places placed)
  exact .onMark fun _ => .read (variableHead_places placed) fun _ _ => .step fun _ => .step fun _ =>
    .ite (fun _ => .read init fun value known => .finish (known.extend (.single _) (.option value)))
      fun _ => .ite (fun _ => .fail) fun _ => .ite
        (fun _ => .onGet fun _ sited => .raised sited.lastStop) fun _ => .value (.finish (.single _))

/-- The variables of a declaration are made in their places. -/
theorem declarators_places {inLoop : Bool} {kind : VariableKind} :
    PlacesAs setting { first := first } (declarators rules inLoop kind) row :=
  commaSeparated_places (declarator_places placed)

/-- A declaration of variables is made in its place. -/
theorem variableStatement_places {kind : VariableKind} :
    Places setting { first := mark.pos } (variableStatement rules mark kind) :=
  .pass fun _ => .read (declarators_places placed) fun _ known => .step fun _ => .finish known.fact

/-- An expression that may be left out before a mark is made in its place. -/
theorem expressionBefore_places {close : Kind} :
    Places setting { first := first } (expressionBefore rules close) :=
  .step fun _ => .ite (fun _ => .pure) fun _ => .bind (expression_places placed) fun _ _ => .pure

/-- A loop that counts is made in its place. -/
theorem countingLoop_places {init : Option Node} :
    Places setting { first := mark.pos, given := init.toList } (countingLoop rules mark init) :=
  .step fun _ => .read (expressionBefore_places placed) fun test begun => .step fun _ =>
    .read (expressionBefore_places placed) fun update known => .step fun _ =>
      .read (placed.statement false false) fun body last => .finish
        (last.extend (known.extend (begun.extend (.option init) (.option test)) (.option update))
          (.single body))

/-- A loop through something is made in its place. -/
theorem throughLoop_places {left : Node} :
    Places setting { first := mark.pos, given := [left] } (throughLoop rules mark left) := by
  refine .step fun keys => .step fun _ => .read (expression_places placed) fun right known =>
    .step fun _ => .read (placed.statement false false) fun body last => ?_
  have row := last.extend (known.extend (.single left) (.single right)) (.single body)
  cases keys
  · exact .finish row
  · exact .finish row

/-- A loop whose head declares variables is made in its place. -/
theorem declaringLoop_places {kind : VariableKind} :
    Places setting { first := mark.pos } (declaringLoop rules mark kind) := by
  refine .markLater fun initMark _ _ => .pass fun _ => .read (declarators_places placed)
    fun declarations known => ?_
  have init : Places setting
      { first := initMark.pos, given := declarations, past := [initMark.pos] }
      (finish initMark (.variableDeclaration kind declarations)) := .finish known.fact
  exact .callAt [] .latest init (fun _ _ => .step fun _ => .ite
    (fun _ => .last (throughLoop_places placed)) fun _ => .last (countingLoop_places placed))
    known.ahead

/-- A loop whose head begins with an expression is made in its place. -/
theorem expressionLoop_places :
    Places setting { first := mark.pos } (expressionLoop rules mark) := by
  have through (target : Node) : Places setting { first := mark.pos, given := [target] } (do
      checkAssigned target
      throughLoop rules mark target) :=
    .held fun known => .check (checkAssigned_places (known.sits target List.mem_cons_self))
      fun _ => throughLoop_places placed
  refine .bind (coverExpression_places placed) fun init made => .step fun _ => .ite
    (fun _ => .take (toTarget_places init.value) fun target _ => .last (through target)) fun _ => ?_
  have settled : Places setting { first := mark.pos, given := [init.value] } init.settle :=
    settle_places made.fact.2 .pure
  exact .take settled fun _ _ => .last (countingLoop_places placed)

/-- Every loop that begins with its head is made in its place. -/
theorem forStatement_places : Places setting { first := mark.pos } (forStatement rules mark) := by
  unfold forStatement
  refine .step fun _ => withinLoop_places (.step fun _ => .step fun kind => .ite
    (fun _ => .last (countingLoop_places placed)) fun _ => ?_)
  split
  · exact declaringLoop_places placed
  · exact expressionLoop_places placed

end Variable

end Grammar

end EcmaSyntax
