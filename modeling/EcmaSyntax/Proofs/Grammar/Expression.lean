import EcmaSyntax.Grammar.Expression.Parenthesis
import EcmaSyntax.Proofs.Grammar.Sequence

namespace EcmaSyntax

namespace Kind

variable {kind : Kind}

/-- A binary operator may be passed; a slash divides where an operand has ended. -/
theorem passable_of_precedence? {precedence : Nat} (known : kind.precedence? = some precedence) :
    kind.isPassable = true ∨ kind = .slash := by
  cases kind <;> first | exact .inl rfl | exact .inr rfl | simp [precedence?, traits] at known

/-- An assignment operator may be passed. -/
theorem passable_of_isAssign (known : kind.isAssign = true) : kind.isPassable = true := by
  cases kind <;> first | rfl | simp [isAssign, traits] at known

/-- A unary operator may be passed. -/
theorem passable_of_isPrefixOp (known : kind.isPrefixOp = true) : kind.isPassable = true := by
  cases kind <;> first | rfl | simp [isPrefixOp, traits] at known

/-- An operator after its operand may be passed. -/
theorem passable_of_isPostfixOp (known : kind.isPostfixOp = true) : kind.isPassable = true := by
  cases kind <;> first | rfl | simp [isPostfixOp, traits] at known

end Kind

namespace Grammar

open Lexer (View Frame)

variable {setting : Setting} {frame : Frame} {view : View} {rules : Rules}

section Access

/-- Whether an arrow follows is seen without reading tokens. -/
theorem asyncArrowFollows_leads : Leads setting view asyncArrowFollows fun _ => view :=
  .look fun _ => .look fun _ => .look fun _ => .pure

variable (sound : rules.Sound setting)

include sound

/-- The operands of a call stand in the bracket that has been passed. -/
theorem callArguments_leads {maybeArrow : Bool} :
    Leads setting (setting.over frame.inner) (callArguments rules maybeArrow)
      fun _ => setting.over frame := by
  have closes : Leads setting (Here .parenR (setting.over frame.inner)) next
      fun _ => setting.over frame := next_closed (.inl rfl)
  refine .via (setting.over frame) (.loops fun ⟨first, items, inner⟩ => ?_) fun ⟨items, inner⟩ => ?_
  · refine .ifEat closes .done (.separated closes .done (.look fun _ => ?_))
    exact (listItem_leads sound frame.calm_inner).bind fun _ => settle_plain.bind fun _ => .more
  · exact asyncArrowFollows_leads.bind fun _ => .guard (fun _ => .unexpected) .pure

variable (calm : frame.Calm)

include calm

/-- A call keeps to its frame, and is quiet. -/
theorem callTail_quiet {mark : Mark} {base : Node} :
    Leads setting (Here .parenL (setting.over frame)) (callTail rules mark base)
      fun result => With (result.1.form.isQuiet = true) (setting.over frame) := by
  refine .look fun _ => mayEndStatement_leads.bind fun _ => (next_open (.inl rfl)).bind fun _ => ?_
  refine (callArguments_leads sound).bind fun arguments => (finish_quiet rfl).bind fun call => ?_
  refine .assume fun quiet => asyncArrowFollows_leads.bind fun _ => .ite (fun _ => ?_) fun _ => ?_
  · refine ( typeAnnotation?_leads sound calm).bind fun _ => (expect_leads rfl).bind fun _ => ?_
    exact (arrowTail_quiet sound calm).bind fun _ => .give fun _ _ met => met
  · exact checkReferenced_leads.bind fun _ => .give fun _ _ passing => ⟨quiet, passing⟩

/-- A member that is taken keeps to its frame, and is quiet. -/
theorem memberTail?_quiet {mark : Mark} {base : Node} :
    Leads setting (setting.over frame) (memberTail? rules mark base)
      fun member => With (∀ node ∈ member, node.form.isQuiet = true) (setting.over frame) := by
  have some : ∀ node : Node, Leads setting (Quiet (setting.over frame) node)
      (pure (some node) : Parse (Option Node))
      fun member => With (∀ node ∈ member, node.form.isQuiet = true) (setting.over frame) :=
    fun node => .give fun _ _ met =>
      ⟨fun _ same => Option.some.inj (Option.mem_def.mp same) ▸ met.1, met.2⟩
  refine .onKind fun current => ?_
  split
  · exact (next_here rfl).bind fun _ => identifier_leads.bind fun _ =>
      (finish_quiet rfl).bind some
  · exact (next_here rfl).bind fun _ => (expression_leads sound calm).bind fun _ =>
      (expect_leads rfl).bind fun _ => (finish_quiet rfl).bind some
  · exact (template_quiet sound).plain.bind fun _ => (finish_quiet rfl).bind some
  · exact .here (.give fun _ _ passing => ⟨by simp, passing⟩)

/-- A chain of members keeps to its frame. -/
theorem memberChain_leads :
    Leads setting (setting.over frame) (memberChain rules) fun _ => setting.over frame := by
  refine .look fun mark => (atom_leads sound calm).bind fun base => .loops fun base => ?_
  refine (memberTail?_quiet sound calm).plain.bind fun member => ?_
  split
  · exact .more
  · exact .done

/-- What follows an expression makes it another one, or leaves it as it is. -/
theorem access_spelled {mark : Mark} {base : Node} :
    Leads setting (setting.spelled (setting.over frame) base) (access rules mark base)
      (setting.spelled (setting.over frame)) := by
  refine .loop (setting.spelled (setting.over frame)) fun base => .assume fun spelled => ?_
  have more : ∀ node : Node, Leads setting (Quiet (setting.over frame) node)
      (pure (.more node) : Parse (Turn Node Node))
      (afterTurn (setting.spelled (setting.over frame)) (setting.spelled (setting.over frame))) :=
    fun node => .give fun _ _ met => ⟨spelled_of_quiet met.1, met.2⟩
  refine .onKind fun current => ?_
  split
  · exact (next_here rfl).bind fun _ => (memberChain_leads sound calm).bind fun _ =>
      (finish_quiet rfl).bind more
  · refine (callTail_quiet sound calm).bind fun ⟨node, isArrow⟩ => .ite (fun _ => ?_) fun _ => ?_
    · exact .give fun _ _ met => ⟨spelled_of_quiet met.1, met.2⟩
    · exact more node
  · refine .here ((memberTail?_quiet sound calm).bind fun member => .assume fun quiet => ?_)
    split
    · next node =>
        exact .give fun _ _ passing => ⟨spelled_of_quiet (quiet node rfl), passing⟩
    · exact .give fun _ _ passing => ⟨spelled, passing⟩

/-- A chain of members and calls keeps to its frame; a string in it can be quoted. -/
theorem accessChain_spelled :
    Leads setting (setting.over frame) (accessChain rules)
      fun cover => setting.spelled (setting.over frame) cover.value := by
  refine .look fun mark => .look fun state => ?_
  refine ((sound.leads .atom frame).weaken fun _ _ passing => ⟨.inl calm, passing⟩).bind
    fun base => ?_
  refine .ite (fun _ => .give fun _ _ met => met) fun _ => ?_
  exact (access_spelled sound calm).bind fun _ => .give fun _ _ met => met

end Access

section Operators

/-- The base of a power is checked without reading tokens. -/
theorem checkExponentBase_leads {left : Node} :
    Leads setting view (checkExponentBase left) fun _ => view := by
  unfold checkExponentBase
  split
  · exact .ite (fun _ => .raise) fun _ => .pure
  · exact .pure

/-- A target in parentheses is checked without reading tokens. -/
theorem checkGroupedTarget_leads {target : Node} :
    Leads setting view (checkGroupedTarget target) fun _ => view := by
  refine .ite (fun _ => ?_) fun _ => .pure
  split
  · exact .raise
  · exact .raise
  · exact .pure

/-- The steps after an operand keep to its frame. -/
theorem stepsAfter_spelled {mark : Mark} {operand : Node} :
    Leads setting (setting.spelled (setting.over frame) operand) (stepsAfter mark operand)
      (setting.spelled (setting.over frame)) := by
  refine .loop (setting.spelled (setting.over frame)) fun operand => .assume fun spelled => ?_
  refine .onKind fun current => mayEndStatement_leads.bind fun _ => .ite (fun steps => ?_) ?_
  · have passable := Kind.passable_of_isPostfixOp (Bool.and_eq_true_iff.mp steps).1
    refine .look fun _ => checkAssigned_leads.bind fun _ => (next_here passable).bind fun _ => ?_
    exact (finish_quiet rfl).bind fun _ => .give fun _ _ met => ⟨spelled_of_quiet met.1, met.2⟩
  · exact fun _ => .give fun _ _ here => ⟨spelled, here.2⟩

variable (sound : rules.Sound setting) (calm : frame.Calm)

include sound calm

/-- An operation keeps to the frame of its operator. -/
theorem operation_spelled {before : View} {left : Node} {start : Mark} {kind : Kind}
    {operator : String} {rightLevel : Nat} {noIn : Bool}
    (passes : Leads setting before next fun _ => setting.over frame) :
    Leads setting before (operation rules left start kind operator rightLevel noIn)
      (setting.spelled (setting.over frame)) := by
  unfold operation
  refine .guard (fun _ => checkExponentBase_leads) ?_
  refine passes.bind fun _ => .look fun mark => ?_
  refine .via (setting.over frame) (.nested ?_) fun right => ?_
  · refine (operand_spelled sound calm).bind fun operand => .assume fun operandSpelled => ?_
    refine Leads.strengthen ((sound.leads (.operators operand _ _ _) frame).weaken
      fun _ _ passing => ⟨⟨calm, operandSpelled⟩, passing⟩) fun _ _ _ met => met.2
  · refine Leads.strengthen (finish_quiet ?_) fun _ _ _ met => ⟨spelled_of_quiet met.1, met.2⟩
    unfold binaryForm
    split <;> rfl

/-- The operators after an operand keep to its frame. -/
theorem operators_spelled {left : Node} {start : Mark} {level : Nat} {noIn : Bool} :
    Leads setting (setting.spelled (setting.over frame) left)
      (operators rules left start level noIn) (setting.spelled (setting.over frame)) := by
  refine .loop (setting.spelled (setting.over frame)) fun left => .assume fun spelled => ?_
  refine .onKind fun current => ?_
  have ends : Leads setting (Here current (setting.over frame)) (pure (.done left))
      (afterTurn (setting.spelled (setting.over frame))
        (setting.spelled (setting.over frame))) :=
    .give fun _ _ here => ⟨spelled, here.2⟩
  split
  · exact ends
  · next precedence known =>
      have passes : Leads setting (Here current (setting.over frame)) next
          fun _ => setting.over frame := by
        rcases Kind.passable_of_precedence? known with passable | rfl
        · exact next_here passable
        · exact next_slash calm
      refine .ite (fun _ => ends) fun _ => .look fun operator => ?_
      exact (operation_spelled sound calm passes).bind fun node => .give fun _ _ met => met

/-- An operand with its operator keeps to its frame. -/
theorem prefixed_quiet :
    Leads setting (setting.passable frame) (prefixed rules) (Quiet (setting.over frame)) := by
  refine .look fun mark => .look fun isUpdate => .look fun operator => ?_
  refine next_leads.bind fun _ => .look fun parenthesized => ?_
  refine (Leads.nested (operand_spelled sound calm).plain).bind fun argument => ?_
  have rest : Leads setting (setting.over frame)
      (do
        let form :=
          if isUpdate then .updateExpression operator true argument
          else .unaryExpression operator true argument
        let node ← finish mark form
        return node.mapExtra fun extra =>
          { extra with parenthesizedArgument := some parenthesized })
      (Quiet (setting.over frame)) := by
    refine (finish_quiet ?_).bind fun node => .give fun _ _ met => met
    split <;> rfl
  refine .ite (fun _ => checkAssigned_leads.bind fun _ => rest) fun _ => .look fun _ => ?_
  exact .guard (fun _ => .raise) rest

/-- An operand keeps to its frame; a string can be quoted. -/
theorem unaryRule_spelled :
    Leads setting (setting.over frame) (unary rules)
      fun cover => setting.spelled (setting.over frame) cover.value := by
  refine .onKind fun current => .ite (fun isPrefix => ?_) fun _ => .here (.look fun mark => ?_)
  · refine ((prefixed_quiet sound calm).enter (Kind.passable_of_isPrefixOp isPrefix)).bind ?_
    exact fun _ => .give fun _ _ met => ⟨spelled_of_quiet met.1, met.2⟩
  · refine (accessChain_spelled sound calm).bind fun operand => ?_
    refine .ite (fun _ => .give fun _ _ met => met) fun _ => ?_
    exact (stepsAfter_spelled).bind fun _ => .give fun _ _ met => met

/-- An expression of binary operators keeps to its frame. -/
theorem binary_spelled {noIn : Bool} :
    Leads setting (setting.over frame) (binary rules noIn)
      fun cover => setting.spelled (setting.over frame) cover.value := by
  refine .look fun mark => ?_
  refine ((sound.leads .unary frame).weaken fun _ _ passing => ⟨calm, passing⟩).bind
    fun operand => ?_
  refine .ite (fun _ => .give fun _ _ met => met) fun _ => ?_
  refine ((sound.leads (.operators operand.value _ _ _) frame).weaken fun _ _ met =>
    ⟨⟨calm, met.1⟩, met.2⟩).bind fun _ => .give fun _ _ met => met

/-- A conditional expression keeps to its frame. -/
theorem conditional_spelled {noIn : Bool} :
    Leads setting (setting.over frame) (conditional rules noIn)
      fun cover => setting.spelled (setting.over frame) cover.value := by
  refine .look fun mark => (binary_spelled sound calm).bind fun test => ?_
  refine .ite (fun _ => .give fun _ _ met => met) fun _ => .assume fun spelled => ?_
  refine .ifEat (next_here rfl) ?_ (.give fun _ _ passing => ⟨spelled, passing⟩)
  exact (assignment_leads sound calm).bind fun _ => (expect_leads rfl).bind fun _ =>
    (assignment_leads sound calm).bind fun _ => (finish_quiet rfl).bind fun _ =>
      .give fun _ _ met => ⟨spelled_of_quiet met.1, met.2⟩

/-- A yield keeps to its frame. -/
theorem yieldExpression_quiet :
    Leads setting (setting.passable frame) (yieldExpression rules)
      (Quiet (setting.over frame)) := by
  refine .look fun mark => next_leads.bind fun _ => .look fun kind => ?_
  refine mayEndStatement_leads.bind fun _ => .ite (fun _ => finish_quiet rfl) fun _ => ?_
  exact (eat_leads rfl).bind fun _ => (assignment_leads sound calm).bind fun _ =>
    finish_quiet rfl

/-- An item in parentheses keeps to its frame, with its type. -/
theorem parenItem_spelled {node : Node} {mark : Mark} :
    Leads setting (setting.spelled (setting.over frame) node) (parenItem rules node mark)
      (setting.spelled (setting.over frame)) := by
  refine .assume fun spelled => ( typeAnnotation?_leads sound calm).bind fun annot => ?_
  split
  · exact (finish_quiet rfl).spelled
  · exact .give fun _ _ passing => ⟨spelled, passing⟩

/-- The value of an assignment keeps to its frame. -/
theorem assignmentTail_quiet {mark : Mark} {left : Node} {noIn : Bool} :
    Leads setting (setting.passable frame) (assignmentTail rules mark left noIn)
      (Quiet (setting.over frame)) := by
  refine .look fun operator => .look fun isPlain => ?_
  refine .choose (.ite (fun _ => toTarget_leads _ _) fun _ => .pure) fun target => ?_
  exact checkAssigned_leads.bind fun _ => checkGroupedTarget_leads.bind fun _ =>
    next_leads.bind fun _ => (assignment_leads sound calm).bind fun _ => finish_quiet rfl

/-- An expression without commas keeps to its frame; a string can be quoted. -/
theorem assignmentRule_spelled {noIn inParens : Bool} :
    Leads setting (setting.over frame) (assignment rules noIn inParens)
      fun cover => setting.spelled (setting.over frame) cover.value := by
  refine .nested (.test fun isYield => .look fun state => .ite (fun yields => ?_) fun _ => ?_)
  · refine .found (Bool.and_eq_true_iff.mp yields).1 ?_
    exact ((yieldExpression_quiet sound calm).enter rfl).bind fun _ =>
      .give fun _ _ met => ⟨spelled_of_quiet met.1, met.2⟩
  · refine .anyway (.look fun mark => .look fun _ => .look fun _ =>
      .guard (fun _ => .alter (fun _ => rfl) fun _ => rfl) ?_)
    refine (conditional_spelled sound calm).bind fun left => ?_
    have rest : ∀ node : Node, Leads setting (setting.spelled (setting.over frame) node)
        (do
          if (← kind).isAssign then
            return { value := ← assignmentTail rules mark node noIn }
          else return ({ left with value := node } : Cover Node))
        fun cover => setting.spelled (setting.over frame) cover.value := by
      refine fun node => .onKind fun current => .ite (fun isAssign => ?_) fun _ => ?_
      · have passable := Kind.passable_of_isAssign isAssign
        have tail : Leads setting (Here current (setting.over frame))
            (do return ({ value := ← assignmentTail rules mark node noIn } : Cover Node))
            fun cover => setting.spelled (setting.over frame) cover.value :=
          ((assignmentTail_quiet sound calm).enter passable).bind fun _ =>
            .give fun _ _ met => ⟨spelled_of_quiet met.1, met.2⟩
        exact tail.weaken fun _ _ here => ⟨here.1, here.2.2⟩
      · exact .give fun _ _ here => here.2
    refine .ite (fun _ => (parenItem_spelled sound calm).bind rest) fun _ => ?_
    exact Leads.bind (.give fun _ _ met => met) rest

end Operators

section Parentheses

/-- Parameters are checked for parentheses without reading tokens. -/
theorem checkBareParameters_leads {params : List Node} :
    Leads setting view (checkBareParameters params) fun _ => view := by
  unfold checkBareParameters
  split
  · split
    · exact .unexpectedAt
    · exact .unexpected
  · exact .pure

/-- What stands in parentheses is checked without reading tokens. -/
theorem checkGrouped_leads {parts : ParenParts} :
    Leads setting view (checkGrouped parts) fun _ => view := by
  refine .ite (fun _ => .look fun _ => .failAt) fun _ => ?_
  cases parts.comma <|> parts.rest <|> parts.pending with
  | some pos => exact .unexpectedAt
  | none => exact .pure

/-- An expression in parentheses is built without reading tokens. -/
theorem groupedExpression_leads {items : List Node} {start stop : Mark} :
    Leads setting view (groupedExpression items start stop) fun _ => view := by
  unfold groupedExpression
  split
  · exact .unexpected
  · exact .pure
  · exact checkReferenced_leads.bind fun _ => finishAt_made.plain

/-- Whether a parenthesis closes next is seen without reading tokens. -/
theorem closesNext_leads : Leads setting view closesNext fun _ => view :=
  lookahead_leads.bind fun _ => .pure

variable (sound : rules.Sound setting) (calm : frame.Calm)

include sound calm

/-- An item in parentheses keeps to its frame. -/
theorem parenItem_leads {node : Node} {mark : Mark} :
    Leads setting (setting.over frame) (parenItem rules node mark) fun _ => setting.over frame := by
  refine ( typeAnnotation?_leads sound calm).bind fun annot => ?_
  split
  · exact finish_leads
  · exact .pure

/-- The items in parentheses keep to the frame within them. -/
theorem parenParts_leads :
    Leads setting (setting.over frame) (parenParts rules) fun _ => setting.over frame := by
  refine .via (setting.over frame) (.loops fun ⟨first, parts⟩ => ?_) fun _ => .pure
  have item : Leads setting (setting.over frame)
      (do
        if ← atKind .ellipsis then
          let mark ← mark
          let rest ← parenItem rules (← restElement) mark
          return .done { parts with items := rest :: parts.items, rest := some mark.pos }
        let item ← rules (.assignment false true)
        return .more (false, { parts with
          items := item.value :: parts.items, pending := parts.pending <|> item.pending }))
      (afterTurn (fun _ : Bool × ParenParts => setting.over frame)
        fun _ : ParenParts => setting.over frame) := by
    refine .ifAt (.look fun _ => ?_) ((inParens_spelled sound calm).plain.bind fun _ => .more)
    exact (restElement_leads.enter rfl).bind fun _ => (parenItem_leads sound calm).bind fun _ =>
      .done
  refine .ifAt (.here .done) (.ite (fun _ => ?_) fun _ => item)
  exact (expect_leads rfl).bind fun _ => .ifAt (.look fun _ => .here .done) item

/-- What is no arrow function stands in parentheses. -/
theorem plainParentheses_spelled {start : Mark} {maybeArrow : Bool} :
    Leads setting (Here .parenL (setting.over frame)) (plainParentheses rules start maybeArrow)
      (setting.spelled (setting.over frame)) := by
  refine (next_open (.inl rfl)).bind fun _ => .look fun innerStart => ?_
  refine (parenParts_leads sound frame.calm_inner).bind fun parts => .look fun innerStop => ?_
  refine (expect_close (.inl rfl)).bind fun _ => ?_
  have rest : ∀ isArrow : Bool, Leads setting (setting.over frame)
      (do
        if isArrow then
          checkBareParameters parts.items
          arrowTail rules start parts.items false none
        else
          checkGrouped parts
          let inner ← groupedExpression parts.items innerStart innerStop
          return inner.mapExtra fun extra =>
            { extra with parenthesized := true, parenStart := some start.pos })
      (setting.spelled (setting.over frame)) := by
    refine fun _ => .ite (fun _ => ?_) fun _ => ?_
    · exact checkBareParameters_leads.bind fun _ => (arrowTail_quiet sound calm).spelled
    · exact checkGrouped_leads.bind fun _ => groupedExpression_leads.bind fun _ =>
        .give fun _ _ passing => ⟨.parenthesized rfl, passing⟩
  exact mayEndStatement_leads.bind fun _ =>
    .choose (.ite (fun _ => eat_leads rfl) fun _ => .pure) rest

/-- An arrow function with a type before its arrow keeps to its frame. -/
theorem annotatedArrow_quiet {node : Node} {start : Mark} :
    Leads setting (setting.over frame) (annotatedArrow rules node start)
      (Quiet (setting.over frame)) :=
  ( typeAnnotation_leads sound calm).bind fun _ => (expect_leads rfl).bind fun _ =>
    arrowTail_quiet sound calm

/-- An arrow function without parameters keeps to its frame. -/
theorem emptyArrow_quiet {start : Mark} :
    Leads setting (Here .parenL (setting.over frame)) (emptyArrow rules start)
      (Quiet (setting.over frame)) :=
  (next_open (.inl rfl)).bind fun _ => (expect_close (.inl rfl)).bind fun _ =>
    ( typeAnnotation?_leads sound calm).bind fun _ => (expect_leads rfl).bind fun _ =>
      arrowTail_quiet sound calm

/-- Parentheses in a language with types keep to their frame. -/
theorem typedParentheses_spelled {start : Mark} {maybeArrow : Bool} :
    Leads setting (Here .parenL (setting.over frame)) (typedParentheses rules start maybeArrow)
      (setting.spelled (setting.over frame)) := by
  unfold typedParentheses
  refine .choose (.ite (fun _ => closesNext_leads) fun _ => .pure) fun empty => ?_
  refine .ite (fun _ => (emptyArrow_quiet sound calm).spelled) fun _ => ?_
  refine (plainParentheses_spelled sound calm).bind fun node => .assume fun spelled => ?_
  refine .ifAt (.here ?_) (.give fun _ _ passing => ⟨spelled, passing⟩)
  refine duplicate_leads.bind fun candidate => ?_
  refine Leads.bind (?_ : Leads setting _ _ fun arrow =>
    With (∀ node ∈ arrow, node.form.isQuiet = true) (setting.over frame)) fun arrow => ?_
  · refine .attempt (annotatedArrow_steps sound.lawful)
      ((annotatedArrow_quiet sound calm).strengthen fun _ _ _ met => ?_) ?_
    · exact ⟨fun _ same => Option.some.inj same ▸ met.1, met.2⟩
    · exact fun _ _ passing => ⟨by simp, passing⟩
  · refine .assume fun quiet => ?_
    split
    · next node =>
        exact .give fun _ _ passing => ⟨spelled_of_quiet (quiet node rfl), passing⟩
    · exact .give fun _ _ passing => ⟨spelled, passing⟩

/-- Parentheses keep to their frame; a string in them can be quoted. -/
theorem parentheses_spelled {start : Mark} {maybeArrow : Bool} :
    Leads setting (Here .parenL (setting.over frame)) (parentheses rules start maybeArrow)
      (setting.spelled (setting.over frame)) :=
  .look fun _ => .ite (fun _ => typedParentheses_spelled sound calm) fun _ =>
    plainParentheses_spelled sound calm

end Parentheses

end Grammar

end EcmaSyntax
