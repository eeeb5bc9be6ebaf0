import EcmaSyntax.Grammar.Expression.Operator
import EcmaSyntax.Proofs.Yield.Line
import EcmaSyntax.Proofs.Yield.Sequence

namespace EcmaSyntax

namespace Grammar

variable {law : Law} {given : Prop} {rules : Rules} {mark : Mark} {node left : Node}

section Unary

instance {target : Node} : Plain (checkGroupedTarget target) := by
  unfold checkGroupedTarget
  split
  · split <;> infer_instance
  · infer_instance

theorem eq_incDec_of_isPostfixOp {kind : Kind} (postfixes : kind.isPostfixOp = true) :
    kind = .incDec := by
  cases kind <;> first | rfl | cases postfixes

/-- An expression that may be assigned to as it is refers to something. -/
theorem checkAssigned_yields : Yields law given (checkAssigned node) fun _ =>
    law.untyped → node.IsExpression → node.isReference = true :=
  (YieldsAt.plain.learnUntyped fun _ _ _ untyped _ _ checked expression =>
    checkAssigned_refers expression untyped _ _ checked).weaken fun _ => And.right

/-- A step after its operand stands on the line of the operand. -/
theorem stepsAfter_yields (operand : given → node.Apt law ∧ node.IsOperand) :
    Yields law given (stepsAfter mark node) (Node.Apt law) := by
  refine .loop (fun node => node.Apt law ∧ node.IsOperand) operand fun node =>
    .ofFrom (.onKind fun kind => .mayEnd ?_ ?_)
  · rw [Bool.not_true, Bool.and_false, if_neg Bool.false_ne_true]
    exact .ofYields (.done fun known => known.2.1)
  · refine .ite (fun steps => ?_) fun _ => .ofYields (.done fun known => known.2.1)
    have step : kind = .incDec := eq_incDec_of_isPostfixOp (Bool.and_eq_true_iff.mp steps).1
    refine .mono (.trailed fun stop => .look fun operator => .still checkAssigned_still
      checkAssigned_yields
      fun _ => .pass (.andThen (.refine .finishStop ?_) fun _ => .more And.right))
        fun _ _ known => ⟨known.1.2.trans step, known.2⟩
    rintro other ⟨⟨⟨_, apt, operand⟩, trails⟩, refers⟩ ⟨⟨same, start⟩, stopped⟩
    have laid : other.Laid law.layout false := ⟨by simp [same, Form.isTerminated],
      by simp [same, Form.word?], fun _ => stopped ▸ trails⟩
    have lawful : other.Lawful law := .ofUniform (same ▸ rfl)
      (same ▸ Form.permitted_of_assigns rfl fun untyped =>
        refers untyped operand.expression) ⟨laid, same ▸ trivial, .ofUnspelled (same ▸ rfl)⟩
      (same ▸ apt.lawful)
    exact ⟨law.whole (same ▸ rfl) lawful, .ofComposed (same ▸ rfl)⟩

variable (lawful : rules.Lawful law)

include lawful

/-- An operand is lawful if those with an operator are. -/
theorem unary_yields (expressing : rules.Expressing)
    (prefixes : Yields law given (prefixed rules) (Node.Apt law)) :
    Yields law given (unary rules) (CoverApt law) := by
  refine .step fun _ => .ite (fun _ => ?_) fun _ => .step fun mark => ?_
  · exact prefixes.bind fun _ => .pure fun known => .ofApt known.2
  · refine (YieldsAt.also (accessChain_operates expressing) (accessChain_yields lawful)).bind
      fun operand => .ite (fun _ => .pure fun known => known.2.1) fun settled => ?_
    refine (stepsAfter_yields fun known => ?_).bind fun _ => .pure fun known => .ofApt known.2
    exact ⟨known.2.1.settled (Option.not_isSome_iff_eq_none.mp settled), known.2.2⟩

/-- An expression of binary operators is lawful. -/
theorem binary_yields {noIn : Bool} :
    Yields law given (binary rules noIn) (CoverLawful law) := by
  refine .step fun mark => .via (CoverApt law)
    (.ofGiven (lawful.yields .unary rfl) fun _ => trivial) fun operand => ?_
  refine .ite (fun _ => .pure fun known => known.2.lawful) fun settled => ?_
  exact .via (Node.Above law 0) (.ofGiven (lawful.yields (.operators _ mark 0 noIn) rfl)
    fun known => known.2.settled (Option.not_isSome_iff_eq_none.mp settled))
      fun _ => .pure fun known => .ofLawful known.2.lawful

/-- A conditional expression is lawful. -/
theorem conditional_yields {noIn : Bool} :
    Yields law given (conditional rules noIn) (CoverLawful law) := by
  refine .step fun mark => (binary_yields lawful).bind fun test =>
    .ite (fun _ => .pure And.right) fun settled => .step fun _ => .ite (fun _ => ?_)
      fun _ => .pure And.right
  have none := Option.not_isSome_iff_eq_none.mp settled
  exact (assignment_yields lawful).bind fun _ => .step fun _ =>
    (assignment_yields lawful).bind fun _ =>
      .bind (finish_lawful rfl fun known => ⟨known.1.1.2.settled none, known.1.2, known.2⟩)
        fun _ => .pure fun known => .ofLawful known.2

end Unary

section Binary

instance : Plain (checkExponentBase left) := by
  unfold checkExponentBase
  split <;> infer_instance

variable {kind : Kind} {operator : String} {level : Nat} {noIn : Bool} (lawful : rules.Lawful law)

include lawful

/-- The right operand of an operator binds above a level. -/
theorem rightOperand_yields {start : Mark} :
    Yields law given
      (nested do
        let operand ← rules.operand
        rules (.operators operand start level noIn)) (Node.Above law level) :=
  .nested ((operand_yields lawful).bind fun operand =>
    (lawful.yields (.operators operand start level noIn) rfl).ofGiven And.right)

/-- An operation is read on from its operator. -/
theorem operation_proceeds :
    Yields law given (operation rules left mark kind operator level noIn) fun _ => True := by
  unfold operation
  exact .guard (.step fun _ => .step fun _ => (rightOperand_yields lawful).bind fun _ => .plain)

/-- Reading an operation is a step. -/
theorem operation_steps : Steps (operation rules left mark kind operator level noIn) :=
  have proceeds : Yields law True (operation rules left mark kind operator level noIn)
      fun _ => True := operation_proceeds lawful
  proceeds.steps

/-- Reading the operations after an operand is a step. -/
theorem operators_steps : Steps (operators rules left mark level noIn) := by
  have proceeds : Yields law True (operators rules left mark level noIn) fun _ => True := by
    refine .loop (fun _ => True) (fun _ => trivial) fun left => .step fun kind => ?_
    split
    · exact .done fun _ => trivial
    · exact .ite (fun _ => .done fun _ => trivial) fun _ => .step fun _ =>
        (operation_proceeds lawful).bind fun _ => .more fun _ => trivial
  exact proceeds.steps

end Binary

section Assignment

variable (lawful : rules.Lawful law)

include lawful

/-- A yield is lawful in a generator. -/
theorem yieldExpression_yields (generates : given → law.mode.inGenerator = true) :
    YieldsFrom law place (fun _ lexer => lexer.kind = .kwYield) given (yieldExpression rules)
      (Node.Lawful law) := by
  have nothing : ∀ {given : Prop} {mark : Mark}, (given → law.mode.inGenerator = true) →
      Yields law given (finish mark (.yieldExpression false none)) (Node.Lawful law) :=
    fun generates => .lawful (finish_permitted rfl
      (fun known => Form.permitted_of_yield (generates known)) fun _ => Maybe.none)
  refine .onMark fun mark => .passWord (.look fun kind => .mayEnd ?_ ?_)
  · exact .ofYields (.ite (fun _ => .ofAnywhere (nothing generates)) fun goesOn =>
      by simp at goesOn)
  · refine .ite (fun _ => .ofYields (.ofAnywhere (nothing generates))) fun _ => .led ?_
    refine .step fun delegate => .read (assignment_yields lawful) fun argument => .ofAnywhere ?_
    refine finish_made.refine fun node known made => ?_
    refine .ofUniform (made.1 ▸ rfl) (made.1 ▸ Form.permitted_of_yield (generates known.1.1)) ?_
      (made.1 ▸ Maybe.some known.2)
    refine ⟨⟨by simp [made.1, Form.isTerminated], ?_, by simp [made.1, Form.isPostfix]⟩,
      made.1 ▸ trivial, .ofUnspelled (made.1 ▸ rfl)⟩
    rw [made.1, made.2.1]
    rintro _ ⟨rfl⟩
    exact known.1.2

/-- An item in parentheses is lawful with its type. -/
theorem parenItem_yields {pending : Option Nat} (holds : given → NodeHedged law node pending) :
    Yields law given (parenItem rules node mark) fun item => NodeHedged law item pending := by
  refine ( typeAnnotation?_yields lawful).bind fun annot => ?_
  split
  · refine finish_made.refine ?_
    rintro cast ⟨known, annotated⟩ ⟨made, _⟩
    have annotation := annotated _ rfl
    exact (holds known).mono (fun inner => .cast made inner annotation)
      fun inner => .ofPlain (made ▸ rfl) (made ▸ ⟨inner, annotation⟩)
  · exact .pure fun known => holds known.1

/-- An item in parentheses lies where it is read. -/
theorem parenItem_bounded {first : Nat} {known : List Node} (begins : given → first ≤ mark.pos)
    (inside : node ∈ known) : Bounded first given known (parenItem rules node mark) ([·]) := by
  refine .pass ( typeAnnotation?_yields lawful).advances fun annot => ?_
  split
  · exact .made begins
  · exact .same inside

omit lawful in
/-- What an expression turns into before the sign of an assignment may be assigned to. Before other
operators it stays what it is. -/
theorem assigned_yields {found : Bool} (holds : given → left.Covers law ∧ left.IsOperand) :
    Yields law given (if found then toTarget false left else pure left) fun target =>
      (if found then target.Lawful law else target.Covers law) ∧
        (law.untyped → if found then target.isTarget = true ∨
          target.isDefaulted = true ∧ target.isParenthesized = true else target.IsExpression) := by
  cases found with
  | true =>
      refine (((toTarget_yields false left).ofGiven fun known => (holds known).1).learnUntyped
        fun known _ _ => toTarget_targets (holds known).2.expression).refine fun target known made => ?_
      refine ⟨made.1, fun untyped => (made.2 untyped).imp_right fun ⟨defaulted, assigns, same⟩ => ?_⟩
      exact ⟨defaulted, same.trans ((holds known).2.grouped assigns)⟩
  | false => exact .pure fun known => ⟨(holds known).1, fun _ => (holds known).2.expression⟩

/-- An assignment is lawful if its left side is an operand. -/
theorem assignmentTail_yields {noIn : Bool} (holds : given → left.Covers law ∧ left.IsOperand) :
    Yields law given (assignmentTail rules mark left noIn) (Node.Lawful law) := by
  refine .ofFrom (.plain (fun operator _ lexer => lexer.kind = .eq → operator = "=")
    (fun _ _ tracked _ => gives_valueText.mpr fun sign => tracked.text_of_eq sign)
    fun operator => .onAtKind fun found => .learn (fun _ _ _ known sign => known.1 (known.2 sign))
      (.ofYields (.choose _ (assigned_yields fun known => holds known.1) fun target => ?_)))
  refine checkAssigned_yields.bind fun _ => .step fun _ => .step fun _ =>
    (assignment_yields lawful).bind fun right => ?_
  refine .lawful (finish_permitted rfl (fun ⟨⟨⟨⟨_, sign⟩, _, assigned⟩, refers⟩, _⟩ =>
    Form.permitted_of_assigns rfl fun untyped => ?_)
      fun ⟨⟨⟨_, target, assigned⟩, refers⟩, right⟩ => ⟨?_, right, Maybe.none⟩)
  · cases found with
    | true => exact sign rfl ▸ assigned untyped
    | false => exact Form.targeted_of_isReference (refers untyped (assigned untyped))
  · cases found with
    | true => exact target
    | false => exact target.referring fun untyped => refers untyped (assigned untyped)

/-- An expression without commas is lawful. -/
theorem assignmentRule_yields (expressing : rules.Expressing) {noIn inParens : Bool} :
    Yields law given (assignment rules noIn inParens) (CoverLawful law) := by
  refine .nested (.ofFrom (.plain (fun found _ lexer => found = true → lexer.kind = .kwYield)
    (fun _ _ _ _ => gives_atKind.mpr beq_iff_eq.mp) fun found =>
      .still Looks.still get_yields fun state => .ite (fun yields => ?_) fun _ => .ofYields ?_))
  · obtain ⟨here, generates⟩ := Bool.and_eq_true_iff.mp yields
    refine .andThen (.mono (yieldExpression_yields lawful fun known => ?_)
      fun _ _ known => known here) fun _ => .pure fun known => .ofLawful known.2
    exact known.2.2 ▸ generates
  have rest : ∀ {given : Prop} (mark : Mark), Yields law given (do
      let left ← conditional rules noIn
      let node ← if inParens then parenItem rules left.value mark else pure left.value
      if (← kind).isAssign then return { value := ← assignmentTail rules mark node noIn }
      else return { left with value := node }) (CoverLawful law) := by
    refine @fun _ mark => (YieldsAt.also (conditional_operates expressing)
      (conditional_yields lawful)).bind fun left => .choose
        (fun node => NodeHedged law node left.pending ∧ node.IsOperand)
        (.ite (fun _ => ?_) fun _ => .pure And.right) fun node => ?_
    · exact (YieldsAt.also parenItem_grows (parenItem_yields lawful fun known => known.2.1)).refine
        fun _ known item => ⟨item.1, item.2.operand known.2.2⟩
    refine .step fun _ => .ite (fun _ => ?_) fun _ => .pure fun known => known.2.1
    exact (assignmentTail_yields lawful fun known => known.2.imp_left Hedged.covers).bind
      fun _ => .pure fun known => .ofLawful known.2
  exact .step fun mark => .step fun _ => .step fun _ => .ite
    (fun _ => .change (fun _ => ⟨⟨_, _, rfl⟩, rfl, rfl⟩) (fun _ => rfl) (fun _ => rfl) (fun _ => rfl)
      (rest mark))
    fun _ => rest mark

end Assignment

end Grammar

end EcmaSyntax
