import EcmaSyntax.Grammar.Expression.Operator
import EcmaSyntax.Proofs.Place.Function
import EcmaSyntax.Proofs.Place.Sequence

namespace EcmaSyntax

namespace Grammar

variable {setting : Setting} {rules : Rules} {first : Nat} {mark : Mark} {node base left : Node}
  {noIn : Bool}

instance : Reads asyncArrowFollows := inferInstanceAs (Reads (hasTypes >>= _))

section Access

variable (placed : rules.Placed setting)

include placed

/-- The arguments of a call are made in their places. -/
theorem callArguments_places {maybeArrow : Bool} :
    PlacesAs setting { first := first } (callArguments rules maybeArrow) row := by
  refine .loopThen (fun taken : Bool × List Node × Bool => backward taken.2.1)
    (fun taken : List Node × Bool => row taken.1) ?_ InRow.nil
    fun _ made => .step fun _ => .guard (fun _ => .reads) (.conclude made.fact)
  rintro ⟨begins, items, inner⟩ gathered
  refine .step fun _ => .ite (fun _ => .conclude gathered) fun _ => ?_
  have item : PlacesAs setting { first := first, given := items } (do
      let inner := inner || (← atKind .parenL)
      let item ← (← listItem rules false).settle
      return Turn.more (false, item.toList ++ items, inner) :
        Parse (Turn (Bool × List Node × Bool) (List Node × Bool)))
      (Turn.load (fun taken => backward taken.2.1) fun taken => row taken.1) := by
    refine .step fun _ => .read (listItem_places placed) fun item known => ?_
    have settled : PlacesAs setting { first := first, given := item.value.toList } item.settle
        fun value => { given := value.toList, fact := value = item.value } :=
      settleAs_places _ known.fact.2 (.conclude rfl)
    refine .call items settled fun value made => .conclude ?_
    obtain rfl : value = item.value := made.fact
    cases same : item.value with
    | none => exact gathered
    | some node => exact gathered.gather (known.after node (by simp [same]))
  exact .ite (fun _ => .step fun _ => .step fun _ => .ite (fun _ => .conclude gathered)
    fun _ => .last item) fun _ => .last item

/-- A call that turns out to be the head of a function is taken apart. -/
theorem callTail_places : Places setting { first := mark.pos, given := [base] }
    (callTail rules mark base) := by
  refine .step fun _ => .step fun _ => .step fun _ => .read (callArguments_places placed)
    fun arguments known => .held fun held =>
      .bind (.finishAs (known.extend (.single _) known.fact)) fun call made => .step fun _ =>
        .ite (fun _ => ?_) fun _ => .check (checkReferenced_places fun node inside =>
          held.sits node (List.mem_cons_of_mem _ inside)) fun _ => .pure
  have parts : call.parts = base :: arguments := by
    simp [Node.parts, made.fact.form, Form.parts, Form.fields]
  refine .takeApart [] (by rw [made.fact.form]; rfl) (.drop arguments [base] ?_ (by simp [parts]))
  exact .read (typeAnnotation?_places placed) fun annot typed => .step fun _ =>
    .take (arrowTail_places placed (typed.extend known.fact (.option annot))) fun _ _ => .pure

/-- If no member is taken, the expression stays as it is. -/
theorem memberTail?_places : PlacesAs setting { first := mark.pos, given := [base] }
    (memberTail? rules mark base) fun node? => { given := [node?.getD base] } := by
  refine .step fun _ => ?_
  split
  · exact .step fun _ => .read identifier_places fun _ known =>
      .bind (.finish (known.extend (.single _) (.single _))) fun _ _ => .pure
  · exact .step fun _ => .read (expression_places placed) fun _ known => .step fun _ =>
      .bind (.finish (known.extend (.single _) (.single _))) fun _ _ => .pure
  · exact .read (template_places placed) fun _ known =>
      .bind (.finish (known.extend (.single _) (.single _))) fun _ _ => .pure
  · exact .pure

/-- A chain of members is made in its place. -/
theorem memberChain_places : Places setting { first := first } (memberChain rules) := by
  refine .onMark fun mark => .read (atom_places placed) fun _ _ => .loop fun base _ =>
    .bind (memberTail?_places placed) fun node? _ => ?_
  split
  · exact .pure
  · exact .pure

/-- A member or a call that follows an expression is made in its place. -/
theorem access_places : Places setting { first := mark.pos, given := [base] }
    (access rules mark base) := by
  refine .loop fun base _ => .step fun _ => ?_
  split
  · exact .step fun _ => .read (memberChain_places placed) fun _ known =>
      .bind (.finish (known.extend (.single _) (.single _))) fun _ _ => .pure
  · exact .bind (callTail_places placed) fun _ _ => .ite (fun _ => .pure) fun _ => .pure
  · refine .bind (memberTail?_places placed) fun node? _ => ?_
    split
    · exact .pure
    · exact .pure

/-- A chain of members and calls is made in its place. -/
theorem accessChain_places : Places setting { first := first } (accessChain rules) :=
  .onMark fun _ => .step fun _ => .read placed.atom fun _ known => .ite
    (fun _ => .conclude known.fact) fun _ => .bind (access_places placed) fun _ _ => .pure

end Access

section Operator

/-- The base of a power is refused in its place. -/
theorem checkExponentBase_places (sits : left.Sits setting.source) :
    Places setting { first := first } (checkExponentBase left) := by
  unfold checkExponentBase
  split
  · next operator isPrefix argument same =>
      have inside : argument ∈ left.parts := by simp [Node.parts, same, Form.parts, Form.fields]
      exact .ite (fun _ => .raise (sits.within inside).here.start) fun _ => .pure
  · exact .pure

/-- A target in parentheses is refused in its place. -/
theorem checkGroupedTarget_places (sits : node.Sits setting.source) :
    Places setting { first := first } (checkGroupedTarget node) := by
  refine .ite (fun _ => ?_) fun _ => .pure
  split
  · exact .raise sits.here.start
  · exact .raise sits.here.start
  · exact .pure

/-- The steps up or down stay around the operand that they are taken from. -/
theorem stepsAfter_places : Places setting { first := mark.pos, given := [node] }
    (stepsAfter mark node) :=
  .loop fun operand _ => .step fun _ => .step fun _ => .ite
    (fun _ => .step fun _ => .held fun known => .check
      (checkAssigned_places (known.sits operand List.mem_cons_self)) fun _ => .step fun _ =>
        .bind .finish fun _ _ => .pure) fun _ => .pure

variable (placed : rules.Placed setting)

include placed

/-- An operation is made in its place. -/
theorem operation_places {kind : Kind} {operator : String} {rightLevel : Nat} :
    Places setting { first := mark.pos, given := [left] }
      (operation rules left mark kind operator rightLevel noIn) := by
  have right (rightMark : Mark) : Places setting { first := rightMark.pos } (nested do
      let operand ← rules.operand
      rules (.operators operand rightMark rightLevel noIn) : Parse Node) :=
    .nested (.read (operand_places placed) fun operand _ =>
      .last (placed.operators operand rightMark rightLevel noIn))
  refine .held fun known => ?_
  unfold operation
  refine .guard (fun _ => checkExponentBase_places (known.sits left List.mem_cons_self)) <|
    .step fun _ => .markLater fun rightMark _ ended => .readAt .latest (right rightMark)
      fun operand made => ?_
  have row : InRow [left, operand] := InRow.pair.mpr <|
    Nat.le_trans (ended left List.mem_cons_self) (made.begins operand List.mem_cons_self)
  unfold binaryForm
  split
  · exact .finish row
  · exact .finish row

/-- The operations after an operand are made in their places. -/
theorem operators_places {level : Nat} : Places setting { first := mark.pos, given := [left] }
    (operators rules left mark level noIn) := by
  refine .loop fun left _ => .step fun kind => ?_
  split
  · exact .pure
  · exact .ite (fun _ => .pure)
      fun _ => .step fun _ => .bind (operation_places placed) fun _ _ => .pure

/-- An operand with its operator is made in its place. -/
theorem prefixed_places : Places setting { first := first } (prefixed rules) := by
  refine .onMark fun mark => .step fun isUpdate => .step fun operator => .pass fun _ =>
    .step fun parenthesized => .read (.nested (operand_places placed)) fun argument _ => ?_
  have rest : Places setting { first := mark.pos, given := [argument], past := [mark.pos] } (do
      let form := if isUpdate then .updateExpression operator true argument
        else .unaryExpression operator true argument
      let node ← finish mark form
      return node.mapExtra fun extra =>
        { extra with parenthesizedArgument := some parenthesized }) := by
    have noted (form : Form) (parts : form.parts = [argument]) (ordered : form.Ordered)
        (plain : form.tags? = none) :
        Places setting { first := mark.pos, given := [argument] } (do
          let node ← finish mark form
          return node.mapExtra fun extra =>
            { extra with parenthesizedArgument := some parenthesized }) :=
      .bind (.finish ordered rfl (by simp [parts]) (by simp) List.nil_subperm
        (plain ▸ nofun)) fun node _ =>
        .noteExtra [] node
          (fun extra => { extra with parenthesizedArgument := some parenthesized }) .pure
    dsimp only
    split
    · exact .last (noted _ rfl (.single argument) rfl)
    · exact .last (noted _ rfl (.single argument) rfl)
  refine .held fun known => .ite
    (fun _ => .check (checkAssigned_places (known.sits argument (by simp)))
    fun _ => rest) fun _ => .step fun _ => .guard (fun _ => .raise known.first) rest

/-- An operand is made in its place. -/
theorem unary_places : Places setting { first := first } (unary rules) :=
  .step fun _ => .ite (fun _ => .bind (prefixed_places placed) fun _ _ => .pure) fun _ =>
    .onMark fun _ => .read (accessChain_places placed) fun _ known => .ite
      (fun _ => .conclude known.fact) fun _ => .bind stepsAfter_places fun _ _ => .pure

/-- An expression of binary operators is made in its place. -/
theorem binary_places : Places setting { first := first } (binary rules noIn) :=
  .onMark fun _ => .read placed.unary fun _ known => .ite (fun _ => .conclude known.fact) fun _ =>
    .bind (placed.operators _ _ _ _) fun _ _ => .pure

/-- A conditional expression is made in its place. -/
theorem conditional_places : Places setting { first := first } (conditional rules noIn) :=
  .onMark fun _ => .read (binary_places placed) fun _ known => .ite
    (fun _ => .conclude known.fact) fun _ => .step fun _ => .ite
      (fun _ => .read (assignment_places placed) fun _ chosen => .step fun _ =>
        .read (assignment_places placed) fun _ other => .bind
          (.finish (other.extend (chosen.extend (.single _) (.single _)) (.single _)))
          fun _ _ => .pure)
      fun _ => .conclude known.fact

/-- A yield is made in its place. -/
theorem yieldExpression_places : Places setting { first := first } (yieldExpression rules) :=
  .onMark fun _ => .pass fun _ => .step fun _ => .step fun _ => .ite (fun _ => .finish) fun _ =>
    .step fun _ => .read (assignment_places placed) fun _ _ => .finish

/-- An item in parentheses is made in its place, with its type. -/
theorem parenItem_places : Places setting { first := mark.pos, given := [node] }
    (parenItem rules node mark) := by
  refine .read (typeAnnotation?_places placed) fun annot? known => ?_
  split
  · next annot =>
      exact .finishCast (known.after annot (by simp) node List.mem_cons_self)
  · exact .pure

/-- An assignment is made in its place. -/
theorem assignmentTail_places : Places setting { first := mark.pos, given := [left] }
    (assignmentTail rules mark left noIn) := by
  have rest (operator : String) (target : Node) :
      Places setting { first := mark.pos, given := [target] } (do
        checkAssigned target
        checkGroupedTarget target
        next
        let right ← rules.assignment noIn
        finish mark (.assignmentExpression operator target right none)) :=
    .held fun known =>
      have sits := known.sits target List.mem_cons_self
      .check (checkAssigned_places sits) fun _ => .check (checkGroupedTarget_places sits) fun _ =>
        .step fun _ => .read (assignment_places placed) fun _ right =>
          .finish (right.extend (.single _) (.single _))
  exact .step fun operator => .step fun _ => .ite
    (fun _ => .take (toTarget_places left)
      fun target _ => .last (rest operator target))
    fun _ => .value (rest operator left)

/-- An expression without commas is made in its place. -/
theorem assignmentRule_places {inParens : Bool} :
    Places setting { first := first } (assignment rules noIn inParens) := by
  have chosen (mark : Mark) (left : Cover Node) (node : Node)
      (seams : ∀ pos ∈ left.pending, setting.source.Seam pos) :
      Places setting { first := mark.pos, given := [node] } (do
        if (← kind).isAssign then return { value := ← assignmentTail rules mark node noIn }
        else return { left with value := node }) :=
    .step fun _ => .ite (fun _ => .bind (assignmentTail_places placed) fun _ _ => .pure)
      fun _ => .conclude ⟨trivial, seams⟩
  have rest (mark : Mark) : Places setting { first := mark.pos } (do
      let left ← conditional rules noIn
      let node ← if inParens then parenItem rules left.value mark else pure left.value
      if (← kind).isAssign then return { value := ← assignmentTail rules mark node noIn }
      else return { left with value := node }) :=
    .read (conditional_places placed) fun left known => .ite
      (fun _ => .take (parenItem_places placed)
        fun node _ => .last (chosen mark left node known.fact.2))
      fun _ => .value (.last (chosen mark left left.value known.fact.2))
  exact .nested (.step fun _ => .step fun _ => .ite
    (fun _ => .bind (yieldExpression_places placed) fun _ _ => .pure)
    fun _ => .onMark fun mark => .step fun _ => .step fun _ => .ite (fun _ => .alter (rest mark))
      fun _ => rest mark)

end Operator

end Grammar

end EcmaSyntax
