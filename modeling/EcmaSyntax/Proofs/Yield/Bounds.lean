import EcmaSyntax.Grammar.Program
import EcmaSyntax.Proofs.Yield.Primary

namespace EcmaSyntax

namespace Grammar

variable {law : Law} {given : Prop} {rules : Rules} {mark : Mark} {node : Node} {first : Nat}
  {known : List Node}

section Sealed

/-- An arrow function ends where it has been read to. -/
theorem arrowTail_sealed {params : List Node} {isAsync : Bool} {returnType : Option Node} :
    Sealed mark (arrowTail rules mark params isAsync returnType) ([·]) :=
  .last fun _ => .last fun _ => .finish

/-- A function ends where it has been read to. -/
theorem functionTail_sealed {isAsync isStatement optionalId : Bool} :
    Sealed mark (functionTail rules mark isAsync isStatement optionalId) ([·]) := by
  rw [functionTail_eq]
  exact .last fun _ => .finish

/-- A class ends where it has been read to. -/
theorem classTail_sealed {decorators : List Node} {isStatement optionalId : Bool} :
    Sealed mark (classTail rules mark decorators isStatement optionalId) ([·]) := by
  have rest : ∀ id typeParameters superClass, Sealed mark (do
      let superTypeParameters ←
        if (← hasTypes) && Option.isSome superClass then typeArguments? rules else pure none
      let implemented ← implementedInterfaces? rules
      let body ← classBody rules
      let heading : ClassForm :=
        { decorators, id, typeParameters, superClass, superTypeParameters, implemented, body }
      finish mark (if isStatement then .classDeclaration heading else .classExpression heading))
      ([·]) := fun _ _ _ =>
    .last fun _ => .choose fun _ => .last fun _ => .last fun _ => .finish
  exact .last fun _ => .last fun _ => .last fun _ => .last fun _ => .choose (rest _ _)

/-- An element ends where it has been read to. -/
theorem element_sealed : Sealed mark (element rules mark) ([·]) := by
  have rest : ∀ {opening : Node} (children : List Node) (closing : Option Node), Sealed mark (do
      if ← atAngle "<" then raise (← get).lexer.start .adjacentElements
      finish mark (.jsxElement opening children closing)) ([·]) := fun _ _ =>
    .last fun _ => .ite (.last fun _ => .last fun _ => .finish) .finish
  refine .nested (.last ?_)
  rintro ⟨opening, selfClosing⟩
  refine .ite (.last fun _ => rest _ _) (.last ?_)
  rintro ⟨children, closing⟩
  exact .last fun _ => .last fun _ => rest _ _

theorem superExpression_sealed : Sealed mark (superExpression mark) ([·]) := by
  refine .last fun _ => .last fun _ => .guard (.last fun _ => .last fun current => ?_)
  split
  · exact .guard .finish
  · exact .finish
  · exact .finish
  · exact .fail

theorem awaitTail_sealed : Sealed mark (awaitTail rules mark) ([·]) :=
  .last fun _ => .guard (.last fun _ => .guard (.last fun _ => .last fun _ => .finish))

theorem metaPropertyTail_sealed {wanted : String} :
    Sealed mark (metaPropertyTail mark node wanted) ([·]) :=
  .last fun _ => .guard .finish

theorem bindExpression_sealed : Sealed mark (bindExpression rules mark) ([·]) := by
  refine .last fun _ => .last fun callee => ?_
  split
  · exact .finish
  · exact .raise

/-- An operation ends where it has been read to. -/
theorem operation_sealed {left : Node} {kind : Kind} {operator : String} {level : Nat}
    {noIn : Bool} :
    Sealed mark (operation rules left mark kind operator level noIn) ([·]) := by
  unfold operation
  exact .guard (.last fun _ => .last fun _ => .last fun _ => .finish)

end Sealed

section Access

variable (lawful : rules.Lawful law)

include lawful

/-- An arrow function lies between its start and where it has been read to. -/
theorem arrowTail_bounded {params : List Node} {isAsync : Bool} {returnType : Option Node}
    (begins : given → first ≤ mark.pos) :
    Bounded first given known (arrowTail rules mark params isAsync returnType) ([·]) := by
  have yields : Yields law False (arrowTail rules mark params isAsync returnType) (Node.Apt law) :=
    arrowTail_free lawful False.elim False.elim False.elim False.elim
  exact .sealed yields.advances arrowTail_sealed begins

/-- A call lies between its start and where it has been read to. -/
theorem callTail_bounded (begins : given → first ≤ mark.pos) :
    Bounded first given known (callTail rules mark node) fun call => [call.1] := by
  refine .step fun _ => .step fun _ => .step fun _ => .pass (callArguments_yields lawful).advances
    fun arguments => .bind (.made begins) fun call => .step fun _ => .ite ?_ ?_
  · exact .pass ( typeAnnotation?_yields lawful).advances fun _ => .step fun _ =>
      (arrowTail_bounded lawful begins).give fun _ => List.Subset.refl _
  · exact .step fun _ => .pure (List.subset_append_left _ _)

/-- A member lies between its start and where it has been read to. -/
theorem memberTail?_bounded (begins : given → first ≤ mark.pos) :
    Bounded first given known (memberTail? rules mark node) Option.toList := by
  have advances : Advances (memberTail? rules mark node) :=
    (memberTail?_yields lawful False.elim).advances
  refine .sealed advances (.last fun current => ?_) begins
  split
  · exact .last fun _ => .last fun _ => .give .finish fun _ => List.Subset.refl _
  · exact .last fun _ => .last fun _ => .last fun _ => .give .finish fun _ => List.Subset.refl _
  · exact .last fun _ => .give .finish fun _ => List.Subset.refl _
  · exact .nothing rfl

/-- What follows an expression lies where it has been read, or is the expression. -/
theorem access_bounded (begins : given → first ≤ mark.pos) (inside : node ∈ known) :
    Bounded first given known (access rules mark node) ([·]) := by
  refine .loop ([·]) (List.cons_subset.mpr ⟨inside, List.nil_subset _⟩) fun base =>
    .step fun current => ?_
  split
  · exact .step fun _ => .pass (memberChain_yields lawful).advances fun _ =>
      .give (.made begins) fun _ => List.Subset.refl _
  · refine .bind (callTail_bounded lawful begins) ?_
    rintro ⟨call, isArrow⟩
    exact .ite (.pure (List.subset_append_left _ _)) (.pure (List.subset_append_left _ _))
  · refine .bind (memberTail?_bounded lawful begins) fun member => ?_
    cases member with
    | some node => exact .pure (List.subset_append_left _ _)
    | none => exact .pure (List.subset_append_left _ _)

/-- A chain of members and calls lies where it has been read. -/
theorem accessChain_bounded :
    Bounded first given known (accessChain rules) fun cover => [cover.value] := by
  refine .onMark fun mark => .step fun _ => .bind ((lawful.bounded first .atom).mono
    (fun _ => trivial) (List.nil_subset _)) fun base => .ite (.pure ?_) ?_
  · exact List.subset_append_left _ _
  · exact (access_bounded lawful And.right List.mem_cons_self).give fun _ => List.Subset.refl _

end Access

section Operator

variable {left : Node} {level : Nat} {noIn : Bool} (lawful : rules.Lawful law)

include lawful

/-- The operations after an operand lie where they have been read. -/
theorem operators_bounded (begins : given → first ≤ mark.pos) (inside : left ∈ known) :
    Bounded first given known (operators rules left mark level noIn) ([·]) := by
  refine .loop ([·]) (List.cons_subset.mpr ⟨inside, List.nil_subset _⟩) fun left =>
    .step fun kind => ?_
  split
  · exact .pure (List.subset_append_left _ _)
  · refine .ite (.pure (List.subset_append_left _ _)) (.step fun _ => ?_)
    exact .give (.sealed (operation_steps lawful).toAdvances operation_sealed begins) fun _ =>
      List.Subset.refl _

/-- An operand with its operator lies where it has been read. -/
theorem prefixed_bounded : Bounded first given known (prefixed rules) ([·]) := by
  refine .onMark fun mark => .step fun _ => .step fun _ => .step fun _ => .step fun _ =>
    .pass (YieldsAt.nested (operand_yields lawful)).advances fun _ => ?_
  have noted : ∀ {form : Form} {change : Extra → Extra}, Bounded first (given ∧ first ≤ mark.pos)
      known (do return (← finish mark form).mapExtra change) ([·]) :=
    .sealed .plain .noted And.right
  exact .ite (.step fun _ => noted) (.step fun _ => .guard noted)

omit lawful in
/-- The steps after an operand lie where they have been read. -/
theorem stepsAfter_bounded (begins : given → first ≤ mark.pos) (inside : node ∈ known) :
    Bounded first given known (stepsAfter mark node) ([·]) := by
  refine .loop ([·]) (List.cons_subset.mpr ⟨inside, List.nil_subset _⟩) fun operand =>
    .step fun kind => .step fun _ => .ite ?_ (.pure (List.subset_append_left _ _))
  exact .step fun _ => .step fun _ => .step fun _ => .give (.made begins)
    fun _ => List.Subset.refl _

/-- An operand lies where it has been read. -/
theorem unary_bounded :
    Bounded first given known (unary rules) fun cover => [cover.value] := by
  refine .step fun _ => .ite ?_ (.onMark fun mark => ?_)
  · exact (prefixed_bounded lawful).give fun _ => List.Subset.refl _
  · refine (accessChain_bounded lawful).bind fun operand => .ite (.pure ?_) ?_
    · exact List.subset_append_left _ _
    · exact (stepsAfter_bounded And.right List.mem_cons_self).give fun _ => List.Subset.refl _

/-- An expression of binary operators lies where it has been read. -/
theorem binary_bounded :
    Bounded first given known (binary rules noIn) fun cover => [cover.value] := by
  refine .onMark fun mark => .bind ((lawful.bounded first .unary).mono (fun _ => trivial)
    (List.nil_subset _)) fun operand => .ite (.pure (List.subset_append_left _ _)) ?_
  exact ((lawful.bounded first (.operators operand.value mark 0 noIn)).mono And.right
    (List.subset_append_left _ _)).give fun _ => List.Subset.refl _

/-- A conditional expression lies where it has been read. -/
theorem conditional_bounded :
    Bounded first given known (conditional rules noIn) fun cover => [cover.value] := by
  refine .onMark fun mark => (binary_bounded lawful).bind fun test => .ite (.pure ?_)
    (.step fun _ => .ite ?_ (.pure ?_))
  · exact List.subset_append_left _ _
  · exact .pass (assignment_yields lawful).advances fun _ => .step fun _ =>
      .pass (assignment_yields lawful).advances fun _ => .give (.made And.right)
        fun _ => List.Subset.refl _
  · exact List.subset_append_left _ _

/-- A yield lies where it has been read. -/
theorem yieldExpression_bounded : Bounded first given known (yieldExpression rules) ([·]) := by
  refine .onMark fun mark => .step fun _ => .step fun _ => .step fun _ => .ite ?_ ?_
  · exact .made And.right
  · exact .step fun _ => .pass (assignment_yields lawful).advances fun _ => .made And.right

/-- An assignment lies where it has been read. -/
theorem assignmentTail_bounded (begins : given → first ≤ mark.pos) :
    Bounded first given known (assignmentTail rules mark left noIn) ([·]) := by
  have advances : Advances (assignmentTail rules mark left noIn) :=
    (assignmentTail_yields lawful False.elim).advances
  exact .sealed advances (.last fun _ => .last fun _ => .choose fun _ => .last fun _ =>
    .last fun _ => .last fun _ => .last fun _ => .finish) begins

/-- An expression without commas lies where it has been read. -/
theorem assignmentRule_bounded {inParens : Bool} :
    Bounded first given known (assignment rules noIn inParens) fun cover => [cover.value] := by
  have tail : ∀ {given : Prop} {mark : Mark} {known : List Node} {left : Cover Node} {node : Node},
      (given → first ≤ mark.pos) → node ∈ known → Bounded first given known (do
        if (← kind).isAssign then return { value := ← assignmentTail rules mark node noIn }
        else return { left with value := node }) fun cover : Cover Node => [cover.value] := by
    intro given mark known left node begins inside
    refine .step fun _ => .ite ?_ (.pure (List.cons_subset.mpr ⟨inside, List.nil_subset _⟩))
    exact (assignmentTail_bounded lawful begins).give fun _ => List.Subset.refl _
  have rest : ∀ mark : Mark, Bounded first (given ∧ first ≤ mark.pos) known (do
      let left ← conditional rules noIn
      let node ← if inParens then parenItem rules left.value mark else pure left.value
      if (← kind).isAssign then return { value := ← assignmentTail rules mark node noIn }
      else return { left with value := node }) fun cover => [cover.value] := by
    refine fun mark => (conditional_bounded lawful).bind fun left => .ite ?_ (.value ?_)
    · exact (parenItem_bounded lawful And.right List.mem_cons_self).bind fun _ =>
        tail And.right List.mem_cons_self
    · exact tail And.right List.mem_cons_self
  refine .nested (.step fun _ => .step fun _ => .ite ?_ (.onMark fun mark => .step fun _ =>
    .step fun _ => .ite ?_ (rest mark)))
  · exact (yieldExpression_bounded lawful).give fun _ => List.Subset.refl _
  · exact .pass (.modify fun _ => ⟨⟨_, _, rfl⟩, rfl, rfl⟩) fun _ => rest mark

end Operator

section Parentheses

variable (lawful : rules.Lawful law)

/-- A place at which nothing stands, as a node. -/
def Mark.empty (mark : Mark) : Node :=
  ⟨0, .jsxEmptyExpression, mark.pos, mark.pos, ⟨mark.loc, mark.loc⟩, none⟩

/-- The place of a token lies before the end of the token, once that has been passed. -/
theorem Bounded.passMark {α : Type} {nodes : α → List Node} {expected : Kind}
    {next : Mark → Parse α}
    (goesOn : ∀ mark : Mark, Bounded first given (mark.empty :: known) (next mark) nodes) :
    Bounded first given known (do
      let mark ← Grammar.mark
      expect expected
      next mark) nodes where
  advances := .step fun mark => .step fun _ => (goesOn mark).advances
  inside setting state tracked begun all holds := by
    refine Gives.bind_iff.mpr (gives_mark.mpr (Gives.bind_iff.mpr fun _ after passed => ?_))
    have here : state.lexer.At (fun token => state.lexer.start ≤ token.stop) setting.toSetting :=
      tracked.sound.within
    obtain ⟨last, inside, stops⟩ := expect_gives tracked here _ after passed
    have plain : Plain (expect expected) := inferInstance
    have traces := plain.traces setting state _ after passed
    have onward := traces.onward tracked
    refine (goesOn _).inside setting after (traces.tracked tracked)
      (Nat.le_trans begun onward.1) (.cons ⟨begun, ?_⟩ fun node known =>
        (all node known).later onward.2) holds
    exact Nat.le_trans stops (Nat.le_of_eq ((traces.tracked tracked).last last inside))

/-- An expression in parentheses lies between them. -/
theorem groupedExpression_bounded {items : List Node} {start stop : Mark}
    (begins : given → first ≤ start.pos) (inside : items ⊆ known) (ends : stop.empty ∈ known) :
    Bounded first given known (groupedExpression items start stop) ([·]) := by
  unfold groupedExpression
  split
  · exact .unexpected
  · next single => exact .same (inside (List.mem_singleton_self _))
  · refine .step fun _ => ⟨.plain, fun setting state tracked _ all holds node after finished => ?_⟩
    have plain : ∀ {form : Form}, Plain (finishAt start form stop.pos stop.loc) := inferInstance
    have onward := (plain.traces setting state node after finished).onward tracked
    obtain ⟨-, begun, stopped⟩ := finishAt_gives node after finished
    have before : stop.pos ≤ state.lexer.lastStop := (all _ ends).stop
    exact .cons ⟨begun ▸ begins holds, stopped ▸ Nat.le_trans before onward.2⟩ .nil

include lawful

/-- What begins with a parenthesis lies where it has been read. -/
theorem plainParentheses_bounded {maybeArrow : Bool} (begins : given → first ≤ mark.pos) :
    Bounded first given known (plainParentheses rules mark maybeArrow) ([·]) := by
  refine .step fun _ => .onMark fun innerStart => (parenParts_bounded lawful).bind fun parts =>
    .passMark fun innerStop => .step fun _ => .choose fun isArrow => .ite (.step fun _ => ?_)
      (.step fun _ => .noted ?_ fun _ => ⟨rfl, rfl⟩)
  · exact arrowTail_bounded lawful fun known => begins known.1
  · exact groupedExpression_bounded And.right (List.subset_cons_of_subset _
      (List.subset_append_left _ _)) List.mem_cons_self

/-- So it does in a language with types. -/
theorem typedParentheses_bounded {maybeArrow : Bool} (begins : given → first ≤ mark.pos) :
    Bounded first given known (typedParentheses rules mark maybeArrow) ([·]) := by
  have annotated : ∀ {candidate : Node} {known : List Node}, Bounded first given known
      (attempt (annotatedArrow rules candidate mark)) fun result => result.elim [] ([·]) :=
    .sealed (annotatedArrow_steps lawful).attempt.toAdvances
      (.attempt (.last fun _ => .last fun _ => arrowTail_sealed)) begins
  refine .choose fun empty => .ite ?_ ((plainParentheses_bounded lawful begins).bind fun node =>
    .step fun _ => .ite (.step fun candidate => annotated.bind fun result => ?_)
      (.same List.mem_cons_self))
  · exact .sealed (emptyArrow_yields lawful False.elim).advances (.last fun _ => .last fun _ =>
      .last fun _ => .last fun _ => arrowTail_sealed) begins
  · cases result with
    | some arrow => exact .same List.mem_cons_self
    | none => exact .same List.mem_cons_self

theorem parentheses_bounded {maybeArrow : Bool} (begins : given → first ≤ mark.pos) :
    Bounded first given known (parentheses rules mark maybeArrow) ([·]) :=
  .step fun _ => .ite (typedParentheses_bounded lawful begins)
    (plainParentheses_bounded lawful begins)

end Parentheses

section Primary

variable (lawful : rules.Lawful law)

include lawful

/-- A name, or an arrow function with one parameter, lies where it has been read. -/
theorem nameOrArrow_bounded {maybeArrow : Bool} (begins : given → first ≤ mark.pos)
    (inside : node ∈ known) :
    Bounded first given known (nameOrArrow rules mark node maybeArrow) ([·]) :=
  .step fun _ => .choose fun _ => .ite (arrowTail_bounded lawful begins) (.same inside)

/-- What begins with the word for asynchronous code lies where it has been read. -/
theorem asyncOrName_bounded {maybeArrow : Bool} (begins : given → first ≤ mark.pos)
    (inside : node ∈ known) :
    Bounded first given known (asyncOrName rules mark node maybeArrow) ([·]) := by
  refine .step fun _ => .step fun _ => .ite (.step fun _ => ?_) (.step fun _ => .ite ?_ ?_)
  · have yields : Yields law False (functionTail rules mark true false false) (Node.Apt law) :=
      functionTail_yields lawful False.elim
    exact .sealed yields.advances functionTail_sealed begins
  · exact .step fun _ => .step fun _ => arrowTail_bounded lawful begins
  · exact nameOrArrow_bounded lawful begins inside

/-- An expression that begins with a name lies where it has been read. -/
theorem nameExpression_bounded {maybeArrow : Bool} (begins : given → first ≤ mark.pos) :
    Bounded first given known (nameExpression rules mark maybeArrow) ([·]) := by
  refine .step fun _ => .step fun _ => .step fun _ => .guard (.step fun _ => .step fun _ =>
    identifier_bounded.bind fun id => ?_)
  split
  · refine .step fun _ => .ite ?_ (nameOrArrow_bounded lawful begins List.mem_cons_self)
    exact .sealed (awaitTail_yields lawful).advances awaitTail_sealed begins
  · exact asyncOrName_bounded lawful begins List.mem_cons_self
  · exact nameOrArrow_bounded lawful begins List.mem_cons_self

/-- A class that is an expression lies where it has been read, its decorators apart. -/
theorem classExpression_bounded : Bounded first given known (classExpression rules) ([·]) := by
  have decorators : Yields law False takeDecorators (Every (Node.Somewhere law)) :=
    takeDecorators_yields
  have rest : Bounded first given known (do
      let mark ← Grammar.mark
      let decorators ← takeDecorators
      classTail rules mark decorators false false) ([·]) :=
    .onMark fun _ => .pass decorators.advances fun _ =>
      .sealed (classTail_yields lawful False.elim).advances classTail_sealed And.right
  exact .step fun _ => .ite (.pass (leadingDecorators_yields lawful).advances fun _ => rest) rest

theorem plainPrimary_bounded : Bounded first given known (plainPrimary rules) ([·]) := by
  refine .onMark fun mark => .step fun _ => .step fun current => ?_
  have super : Yields law False (superExpression mark) (Node.Apt law) := superExpression_yields
  split
  · exact .sealed super.advances superExpression_sealed And.right
  · exact .step fun _ => .made And.right
  · exact nameExpression_bounded lawful And.right
  · exact nameExpression_bounded lawful And.right
  · exact .sealed (doExpression_yields lawful).advances (.last fun _ => .last fun _ =>
      .last fun _ => .finish) And.right
  · refine .step fun _ => ?_
    split
    · exact literal_bounded
    · exact literal_bounded
  · exact .step fun _ => literal_bounded
  · exact .step fun _ => literal_bounded
  · exact .step fun _ => .made And.right
  · exact .step fun _ => .made And.right
  · exact .step fun _ => .made And.right
  · exact parentheses_bounded lawful And.right
  · exact .marked (functionExpression_yields lawful).advances fun _ => .last fun _ => .last fun _ =>
      .choose fun _ => .ite metaPropertyTail_sealed functionTail_sealed
  · exact classExpression_bounded lawful
  · exact classExpression_bounded lawful
  · exact .marked (newExpression_yields lawful).advances fun _ => .last fun _ => .last fun _ =>
      .ite metaPropertyTail_sealed (.last fun _ => .last fun _ => .choose fun _ => .finish)
  · exact .marked (template_yields lawful).advances fun _ => .last fun _ => .last fun _ =>
      .last fun _ => .last fun _ => .finish
  · exact .sealed (bindExpression_yields lawful).advances bindExpression_sealed And.right
  · exact .unexpected

/-- Every expression that no operator takes apart lies where it has been read. -/
theorem primary_bounded (expressing : rules.Expressing) :
    Bounded first given known (primary rules) fun cover => [cover.value] := by
  refine .step fun current => ?_
  split
  · exact .onMark fun mark => .step fun _ => .pass (listItems_yields lawful).advances fun _ =>
      .step fun _ => .give (.made And.right) fun _ => List.Subset.refl _
  · exact .marked (object_yields lawful expressing).advances fun _ => .last fun _ => .last fun _ =>
      .give .finish fun _ => List.Subset.refl _
  · have text : Bounded first given known textChild ([·]) :=
      .step fun _ => .noted literal_bounded fun _ => ⟨rfl, rfl⟩
    exact text.give fun _ => List.Subset.refl _
  · exact .onMark fun mark => .step fun _ => ((lawful.bounded first (.element mark)).mono And.right
      (List.nil_subset _)).give fun _ => List.Subset.refl _
  · exact (plainPrimary_bounded lawful).give fun _ => List.Subset.refl _

end Primary

/-- What a rule yields lies where it is read if this holds for the rules that it refers to. -/
theorem rule_bounded (lawful : rules.Lawful law) (expressing : rules.Expressing)
    (steps : ∀ goal, Steps (rule rules goal)) : (rule rules).Bounded := by
  have other : ∀ first goal, Grammar.Bounded first (goal.From first) goal.known (rule rules goal)
      fun _ => [] := fun first goal =>
    ⟨(steps goal).toAdvances, fun _ _ _ _ _ _ _ _ _ => .nil⟩
  intro first goal
  cases goal with
  | assignment noIn inParens => exact assignmentRule_bounded lawful
  | operators left mark level noIn => exact operators_bounded lawful id List.mem_cons_self
  | unary => exact unary_bounded lawful
  | atom => exact primary_bounded lawful expressing
  | element mark => exact .sealed (steps (.element mark)).toAdvances element_sealed id
  | _ => exact other first _

end Grammar

end EcmaSyntax
