import EcmaSyntax.Grammar.Function
import EcmaSyntax.Proofs.Yield.Block
import EcmaSyntax.Proofs.Yield.Line
import EcmaSyntax.Proofs.Yield.Type

namespace EcmaSyntax

namespace Grammar

variable {law : Law} {given : Prop} {rules : Rules} {mark : Mark} {node : Node}

section Pattern

instance : Plain restElement := inferInstanceAs (Plain (Grammar.mark >>= _))

/-- A rest lies where it is read. -/
theorem restElement_bounded {first : Nat} {known : List Node} :
    Bounded first given known restElement ([·]) :=
  have advances : Advances restElement := .plain
  .marked advances fun _ => .last fun _ => .last fun _ => .finish

/-- Without the sign of a default a target stays what it is. -/
theorem withDefault_gives {setting : Setting} {state : State} (other : state.lexer.kind ≠ .eq) :
    Gives (withDefault rules mark node) setting state fun value _ => value = node := by
  simp only [withDefault, Gives.bind_iff, eat, gives_lex, Lexer.eat, Lexer.atKind, gives_get,
    gives_pure]
  rw [beq_false_of_ne other]
  exact gives_pure.mpr (gives_pure.mpr rfl)

theorem restElement_yields :
    Yields law given restElement fun node => node.Lawful law ∧ node.RestName := by
  refine .step fun _ => .step fun _ => identifier_reads.bind fun argument =>
    finish_made.refine ?_
  rintro node ⟨_, apt, name, _⟩ ⟨made, _⟩
  exact ⟨.ofPlain (made ▸ rfl) (made ▸ ⟨apt.lawful, Maybe.none⟩), argument, none, false, made, name⟩

variable (lawful : rules.Lawful law)

include lawful

theorem withDefault_yields (target : given → LawfulPattern law node) :
    Yields law given (withDefault rules mark node) (LawfulPattern law) := by
  refine .step fun _ => .ite (fun _ => ?_) fun _ => .pure target
  refine (assignment_yields lawful).bind fun _ => finish_made.refine ?_
  rintro other ⟨known, value⟩ ⟨made, _⟩
  exact ⟨.ofPlain (made ▸ rfl) (made ▸ ⟨(target known).lawful, value, Maybe.none⟩),
    .assignmentPattern made (target known).pattern⟩

theorem bindingElement_yields :
    Yields law given (bindingElement rules) (LawfulPattern law) :=
  .step fun _ => (binding_yields lawful).bind fun _ => withDefault_yields lawful And.right

/-- A parameter with a type is still the pattern, or the rest of a list, that it was. -/
theorem withParameterType_yields (target : given → node.Lawful law)
    (unlaid : given → node.form.isUnlaid = true) :
    Yields law given (withParameterType rules node) fun param => param.Lawful law ∧
      (node.Pattern → param.Pattern) ∧ (node.RestName → param.RestName) := by
  refine .step fun _ => .ite (fun _ => .step fun isOptional => ?_) fun _ =>
    .pure fun known => ⟨target known, id, id⟩
  have rest : ∀ marked : Node, node.form.Retyped marked.form → (given → marked.Lawful law) →
      Yields law given (do
        if ← atKind .colon then annotate marked (← typeAnnotation rules)
        else if isOptional then refinish marked
        else return marked) fun param => param.Lawful law ∧
          (node.Pattern → param.Pattern) ∧ (node.RestName → param.RestName) := by
    intro marked first lawful'
    have ends : ∀ {given : Prop} {action : Parse Node}, Yields law given action (Node.Lawful law) →
        (Yields law given action fun other => marked.form.Retyped other.form) →
        Yields law given action fun param => param.Lawful law ∧
          (node.Pattern → param.Pattern) ∧ (node.RestName → param.RestName) :=
      fun yields retypes => (yields.and retypes).weaken fun _ ⟨good, last⟩ =>
        ⟨good, fun pattern => (pattern.retyped first).retyped last, fun rest =>
          (rest.retyped first).retyped last⟩
    refine .step fun _ => .ite (fun _ => (typeAnnotation_yields lawful).bind fun _ => ?_)
      fun _ => .ite (fun _ => ?_) fun _ => ?_
    · exact ends (annotate_yields (fun known => lawful' known.1)
        (fun known => first.isUnlaid.trans (unlaid known.1)) And.right) annotate_retypes
    · exact ends (refinish_yields lawful' fun known => first.isUnlaid.trans (unlaid known))
        (refinish_formed.weaken fun _ same => same ▸ .refl _)
    · exact ends (.pure lawful') (.pure fun _ => .refl _)
  refine .ite (fun _ => ?_) fun _ => .value (rest node (.refl _) target)
  split
  · next marked placed =>
      exact .value (rest marked (Node.retyped_of_asOptional? placed) fun known =>
        (target known).asOptional? placed)
  · exact .step fun _ => .failAt

theorem bindingList_yields {close : Kind} {allowHoles : Bool} :
    Yields law given (bindingList rules close allowHoles) fun slots =>
      SlotsLawful law slots ∧ PatternSlots slots := by
  have ended : ∀ {slots}, Slots (LawfulPattern law) slots →
      SlotsLawful law slots.reverse ∧ PatternSlots slots.reverse := fun all =>
    ⟨fun node inside => (all.reverse node inside).lawful, _, none, (List.append_nil _).symm,
      fun node inside => (all.reverse node inside).pattern, nofun⟩
  refine .loop (fun gathered => Slots (LawfulPattern law) gathered.2) (fun _ => nofun) ?_
  rintro ⟨first, elements⟩
  refine .step fun _ => .ite (fun _ => .done fun known => ended known.2) fun _ => ?_
  refine .guard (.step fun _ => .ite (fun _ => .more fun known => .cons .none known.2) fun _ => ?_)
  refine .step fun _ => .ite (fun _ => .done fun known => ended known.2) fun _ => ?_
  refine .step fun _ => ?_
  refine .ite (fun _ => ?_) fun _ => ?_
  · refine restElement_yields.bind fun _ =>
      (withParameterType_yields lawful (fun known => known.2.1)
        fun known => known.2.2.isUnlaid).bind fun rest => .step fun _ => .done ?_
    rintro ⟨⟨⟨_, before⟩, _, name⟩, good, _, kept⟩
    have all := ended before
    refine ⟨.reverse (.cons (.some good) fun node inside => (before node inside).lawful), _,
      some rest, List.reverse_cons, fun node inside => (before.reverse node inside).pattern, ?_⟩
    rintro _ ⟨rfl⟩
    exact kept name
  · refine (bindingElement_yields lawful).bind fun _ =>
      (withParameterType_yields lawful (fun known => known.2.lawful)
        fun known => known.2.pattern.isUnlaid).bind fun left =>
          (withDefault_yields lawful ?_).bind fun _ => .more fun known => ?_
    · exact fun ⟨⟨_, element⟩, good, kept, _⟩ => ⟨good, kept element.pattern⟩
    · exact .cons (.some known.2) known.1.1.1.2

theorem parameters_yields :
    Yields law given (parameters rules) fun params => AllLawful law params ∧ PatternList params :=
  .step fun _ => (bindingList_yields lawful).bind fun _ => .pure fun known =>
    ⟨known.2.1.nodes, known.2.2.nodes⟩

end Pattern

section Head

/-- The function with a head and a body. -/
def FunctionHead.function (head : FunctionHead) (body : Node) (isExpression : Bool) :
    FunctionForm where
  id := head.id
  typeParameters := head.typeParameters
  params := head.params
  returnType := head.returnType
  body := body
  generator := head.generator
  isAsync := head.isAsync
  isExpression := isExpression

/-- What is known of a function before its body is lawful. The parameters of an arrow function are
made of expressions. -/
structure FunctionHead.Lawful (law : Law) (isArrow : Bool) (head : FunctionHead) : Prop where
  id : PartLawful law head.id
  params : AllLawful law head.params
  typeParameters : PartLawful law head.typeParameters
  returnType : PartLawful law head.returnType
  read : isArrow = false → PatternList head.params

/-- What a function binds is fit for it. -/
structure FunctionHead.Checked (head : FunctionHead) (strict types : Bool) : Prop where
  id : strict = true → ∀ node ∈ head.id, node.Bindable
  params : strict = true → ∀ node ∈ head.params, node.Bindable
  distinct : (head.params.flatMap Node.boundNames).Nodup
  names : ∀ node ∈ head.params, node.NamesOnly types

theorem checkHead_yields {head : FunctionHead} {strict : Bool} :
    Yields law given (checkHead head strict) fun _ => head.Checked strict law.mode.types := by
  have params : ∀ {given : Prop} (types : Bool), (given → types = law.mode.types) →
      (given → strict = true → ∀ node ∈ head.id, node.Bindable) → Yields law given (do
        let _ ← orRaise (TargetRule.checkAll { strict, types, isBinding := true } head.params
          (some []))) fun _ => head.Checked strict law.mode.types := by
    intro given types same id
    refine orRaise_yields.bind fun _ => .pure fun ⟨known, passes⟩ => ?_
    obtain ⟨passed, names⟩ := TargetRule.checkAll_passes passes
    refine ⟨id known, fun mode node inside name bound => ?_, ?_, same known ▸ names rfl⟩
    · exact passed.bindable mode name (List.mem_flatMap.mpr ⟨node, inside, bound⟩)
    · exact (List.reverse_perm _).nodup (by simpa using passed.distinct [] rfl .nil)
  refine hasTypes_yields.bind fun types => ?_
  cases same : head.id with
  | none => exact params types And.right fun _ _ => by simp [same]
  | some id =>
      refine orRaise_yields.bind fun _ => params types (fun known => known.1.2) fun known mode => ?_
      rw [same]
      rintro _ ⟨rfl⟩
      exact (TargetRule.check_passes id known.2).1.bindable mode

end Head

section Function

theorem Scope.async {isAsync : Bool} : Scope (fun state => { state with inAsync := isAsync })
    (fun before state => { state with inAsync := before.inAsync }) where
  entered _ := ⟨⟨_, _, rfl⟩, rfl, rfl⟩
  left _ _ := ⟨⟨_, _, rfl⟩, rfl, rfl⟩
  flags before after same := by
    rw [State.flags_eq_iff] at same ⊢
    simp_all
  decorators _ := rfl
  decorated _ _ := rfl
  labels _ _ same := same

/-- The end of a function, whose body is lawful. -/
theorem functionEnd_yields {head : FunctionHead} {isArrow isExpression : Bool} {body : Node}
    (holds : given → head.Lawful law isArrow)
    (inside : given →
      body.Enclosed (law.under (law.mode.inside (head.function body isExpression)))) :
    Yields law given (do
      let strict := (← isStrict) || (!isExpression && declaresStrict body)
      if strict || isArrow then checkHead head strict
      return head.function body isExpression) (FunctionForm.Lawful law isArrow) := by
  refine isStrict_yields.bind fun strict => .ite (fun _ => ?_) fun other => .pure fun known => ?_
  · refine checkHead_yields.bind fun _ => .pure fun ⟨⟨known, same⟩, checked⟩ => ?_
    subst same
    obtain ⟨id, params, typeParameters, returnType, read⟩ := holds known
    exact ⟨⟨id, typeParameters, params, returnType, inside known⟩, fun _ => checked.distinct,
      ⟨checked.id, checked.params⟩, ⟨read, fun _ => checked.names⟩⟩
  · obtain ⟨known, rfl⟩ := known
    obtain ⟨id, params, typeParameters, returnType, read⟩ := holds known
    have sloppy : ¬(head.function body isExpression).isStrict law.mode = true := fun strict =>
      other (Bool.or_eq_true_iff.mpr (.inl strict))
    exact ⟨⟨id, typeParameters, params, returnType, inside known⟩, fun needed =>
      (other needed).elim, ⟨fun strict => (sloppy strict).elim, fun strict => (sloppy strict).elim⟩,
      ⟨read, fun needed => (other needed).elim⟩⟩

/-- A function after its body. -/
def functionEnd (head : FunctionHead) (isArrow isExpression : Bool) (body : Node) :
    Parse FunctionForm := do
  let useStrict := !isExpression && declaresStrict body
  if useStrict then
    match head.id with
    | some id => if id.isNamed "yield" then raise id.start .bindingYieldInStrict
    | none => pure ()
  let strict := (← isStrict) || useStrict
  if strict || isArrow then checkHead head strict
  return head.function body isExpression

theorem functionRest_eq (rules : Rules) (head : FunctionHead) (isArrow : Bool) :
    functionRest rules head isArrow = (do
      let isExpression := isArrow && !(← atKind .braceL)
      let body ← within (fun state => { state with inAsync := head.isAsync })
        (fun before state => { state with inAsync := before.inAsync })
        (if isExpression then rules.assignment false
          else enclosed rules true head.generator true)
      functionEnd head isArrow isExpression body) := by
  simp only [functionRest, functionEnd, within, bind_assoc, pure_bind, ite_bind]
  rfl

/-- A function keeps what is known of it before its body, and its body. -/
theorem functionEnd_keeps {head : FunctionHead} {isArrow isExpression : Bool} {body : Node} :
    Ends (functionEnd head isArrow isExpression body) fun function =>
      function = head.function body isExpression := by
  have rest : Ends (do
      let strict := (← isStrict) || (!isExpression && declaresStrict body)
      if strict || isArrow then checkHead head strict
      return head.function body isExpression) fun function =>
        function = head.function body isExpression :=
    .last fun _ => .guard (.give rfl)
  refine .ite ?_ rest
  split
  · exact .guard rest
  · exact rest

theorem functionBody_keeps {head : FunctionHead} {isArrow : Bool} :
    Ends (functionBody rules head isArrow) fun function => function.params = head.params ∧
      function.isAsync = head.isAsync ∧ function.generator = head.generator := by
  have rest : ∀ head : FunctionHead, Ends (functionRest rules head isArrow) fun function =>
      function.params = head.params ∧ function.isAsync = head.isAsync ∧
        function.generator = head.generator := fun head => by
    rw [functionRest_eq]
    refine .last fun _ => .last fun _ => functionEnd_keeps.mono fun function same => ?_
    exact same ▸ ⟨rfl, rfl, rfl⟩
  refine .ite (rest head) (.last fun annot => ?_)
  split
  · exact rest _
  · exact rest head

variable (lawful : rules.Lawful law)

include lawful

/-- The body of an arrow function begins where it is read. -/
theorem functionBody_opens {head : FunctionHead} {setting : Setting} {state : State} {first : Nat}
    (tracked : state.lexer.Tracked setting.toSetting) (begun : first ≤ state.lexer.start) :
    Gives (functionBody rules head true) setting state fun function _ =>
      first ≤ function.body.start := by
  change Gives (functionRest rules head true) setting state _
  rw [functionRest_eq, Gives.bind_iff, gives_atKind, Gives.bind_iff]
  have bounded : Bounded first True [] (within (fun state => { state with inAsync := head.isAsync })
      (fun before state => { state with inAsync := before.inAsync })
      (if (true && !(state.lexer.kind == .braceL)) = true then rules.assignment false
        else enclosed rules true head.generator true)) ([·]) :=
    .within .async (.ite (assignment_bounded lawful) (enclosed_bounded lawful))
  refine (bounded.inside setting state tracked begun .nil trivial).mono fun body after inside => ?_
  exact (functionEnd_keeps setting after).mono fun function _ same =>
    same ▸ (inside body List.mem_cons_self).start

theorem functionRest_yields {head : FunctionHead} {isArrow : Bool}
    (holds : given → head.Lawful law isArrow) :
    Yields law given (functionRest rules head isArrow)
      (FunctionForm.Lawful law isArrow) := by
  refine .step fun brace => ?_
  cases isExpression : isArrow && !brace with
  | true =>
      simp only [if_true]
      exact .between .async (fun _ _ same => same) (fun _ => rfl)
        ((assignment_yields lawful).weaken fun _ body => body.enclosed)
        fun _ => functionEnd_yields (fun known => holds known.1) And.right
  | false =>
      simp only [Bool.false_eq_true, if_false]
      refine .between .async (fun _ _ same => same) (fun _ => rfl) (enclosed_yields lawful)
        fun body => ?_
      refine .ite (fun _ => ?_) fun _ => functionEnd_yields (fun known => holds known.1) And.right
      split
      · exact .guard (functionEnd_yields (fun known => holds known.1) And.right)
      · exact functionEnd_yields (fun known => holds known.1) And.right

/-- The body of a function is lawful after its head. -/
theorem functionBody_yields {head : FunctionHead} {isArrow : Bool}
    (holds : given → head.Lawful law isArrow) :
    Yields law given (functionBody rules head isArrow)
      (FunctionForm.Lawful law isArrow) := by
  refine .ite (fun _ => .value (functionRest_yields lawful holds)) fun _ => ?_
  refine ( typeAnnotation?_yields lawful).bind fun annot => ?_
  split
  · refine .value (functionRest_yields lawful fun known => ?_)
    have before := holds known.1
    exact ⟨before.id, before.params, before.typeParameters, known.2, before.read⟩
  · exact .value (functionRest_yields lawful fun known => holds known.1)

omit lawful in
/-- A method is a scope. -/
theorem Scope.method {kind : Option MethodKind} : Scope
    (fun state => { state with inMethod := kind })
    (fun before state => { state with inMethod := before.inMethod }) where
  entered _ := ⟨⟨_, _, rfl⟩, rfl, rfl⟩
  left _ _ := ⟨⟨_, _, rfl⟩, rfl, rfl⟩
  flags before after same := by
    rw [State.flags_eq_iff] at same ⊢
    simp_all
  decorators _ := rfl
  decorated _ _ := rfl
  labels _ _ same := same

omit lawful in
theorem method_eq (rules : Rules) (head : FunctionHead) (kind : MethodKind) :
    method rules head kind = within (fun state => { state with inMethod := some kind })
      (fun before state => { state with inMethod := before.inMethod }) (do
        let params ← parameters rules
        functionBody rules { head with params := params } false) := by
  simp only [method, within, bind_assoc]

omit lawful in
/-- A method is what it was known to be before its parameters. -/
theorem method_keeps {head : FunctionHead} {kind : MethodKind} :
    Ends (method rules head kind) fun function =>
      function.isAsync = head.isAsync ∧ function.generator = head.generator := by
  rw [method_eq]
  exact fun _ _ => gives_within.mpr (Gives.last fun _ _ =>
    (functionBody_keeps _ _).mono fun _ _ => And.right)

/-- A method is lawful. -/
theorem method_yields {head : FunctionHead} {kind : MethodKind}
    (holds : given → head.Lawful law false) :
    Yields law given (method rules head kind) (FunctionForm.Lawful law false) := by
  rw [method_eq]
  refine .inside .method (fun _ _ same => same) (fun _ => rfl) ?_
  refine (parameters_yields lawful).bind fun params => functionBody_yields lawful fun known => ?_
  have before := holds known.1
  exact ⟨before.id, known.2.1, before.typeParameters, before.returnType, fun _ => known.2.2⟩

/-- A function after its first word, before it is finished. -/
def functionParts (rules : Rules) (isAsync isStatement optionalId : Bool) :
    Parse FunctionForm := do
  let generator ← eat .star
  let hasName := (← atKind .name) || (← atKind .kwYield)
  if isStatement && !optionalId && !hasName then unexpected
  let id ← if hasName then some <$> identifier false else pure none
  let typeParameters ← genericHead? rules
  let params ← parameters rules
  functionBody rules { id, generator, isAsync, params, typeParameters } false

omit lawful in
/-- A function is asynchronous if its word says so. -/
theorem functionParts_keeps {isAsync isStatement optionalId : Bool} :
    Ends (functionParts rules isAsync isStatement optionalId) fun function =>
      function.isAsync = isAsync := by
  refine .last fun _ => .last fun _ => .last fun _ => .guard (.choose fun _ => ?_)
  exact .last fun _ => .last fun _ => functionBody_keeps.mono fun _ kept => kept.2.1

/-- A function is lawful, with its name and its parameters. -/
theorem functionParts_yields {isAsync isStatement optionalId : Bool} :
    Yields law given (functionParts rules isAsync isStatement optionalId)
      (FunctionForm.Lawful law false) := by
  refine .step fun generator => .step fun _ => .step fun _ => .guard ?_
  refine .choose (PartLawful law) (.ite (fun _ => ?_) fun _ => .pure fun _ => .none)
    fun id => ?_
  · exact identifier_yields.map fun _ operand => .some operand.lawful
  · refine (genericHead?_yields lawful).bind fun _ => (parameters_yields lawful).bind fun _ => ?_
    exact functionBody_yields lawful fun ⟨⟨⟨_, id⟩, typeParameters⟩, params⟩ =>
      ⟨id, params.1, typeParameters, .none, fun _ => params.2⟩

omit lawful in
theorem functionTail_eq (rules : Rules) (mark : Mark) (isAsync isStatement optionalId : Bool) :
    functionTail rules mark isAsync isStatement optionalId = (do
      let function ← within (fun state => { state with inMethod := none })
        (fun before state => { state with inMethod := before.inMethod })
        (functionParts rules isAsync isStatement optionalId)
      finish mark
        (if isStatement then .functionDeclaration function else .functionExpression function)) := by
  simp only [functionTail, functionParts, within, bind_assoc, pure_bind, ite_bind]

/-- The words for an asynchronous function stand on one line. -/
theorem functionTail_yields {isAsync isStatement optionalId : Bool}
    (joined : given → isAsync = true → law.layout.joins mark.pos) :
    Yields law given (functionTail rules mark isAsync isStatement optionalId)
      (Node.Apt law) := by
  rw [functionTail_eq]
  refine .bind (.inside .method (fun _ _ same => same) (fun _ => rfl)
    (.also functionParts_keeps (functionParts_yields lawful))) fun function => ?_
  cases isStatement <;> exact finish_function rfl (fun known => known.2.1) trivial
    (fun ⟨known, _, same⟩ async => joined known (same ▸ async)) fun known => known.2.1.has

/-- Where a function is not asynchronous, it does not matter where its word stands. -/
theorem functionTail_plain {isStatement optionalId : Bool} :
    Yields law given (functionTail rules mark false isStatement optionalId) (Node.Apt law) :=
  functionTail_yields lawful fun _ absent => by cases absent

/-- An arrow may stand on any line if it is that of an asynchronous function, or if the language has
types. -/
theorem arrowTail_free {expressions : List Node} {isAsync : Bool} {returnType : Option Node}
    (all : given → AllCovers law expressions) (annotated : given → PartLawful law returnType)
    (free : given → isAsync = false → ∀ function, law.layout.points mark.pos function)
    (called : given → isAsync = true → law.layout.calls mark.pos) :
    Yields law given (arrowTail rules mark expressions isAsync returnType) (Node.Apt law) := by
  refine (toParameters_yields all).bind fun _ => (functionBody_yields lawful fun known =>
    ⟨.none, known.2, .none, annotated known.1, fun other => absurd other (by decide)⟩).also
      functionBody_keeps |>.bind fun function =>
        finish_function rfl (fun known => known.2.1) trivial ?_ fun known => known.2.1.has
  exact fun known => ⟨fun sync => free known.1.1 (known.2.2.2.1.symm.trans sync) function,
    fun async => called known.1.1 (known.2.2.2.1.symm.trans async)⟩

/-- The arrow of another function stands on the line of what is before it. -/
theorem arrowTail_yields {expressions : List Node} {returnType : Option Node}
    (all : given → AllCovers law expressions) (annotated : given → PartLawful law returnType) :
    YieldsFrom law none (fun setting lexer => lexer.Pointed setting mark.pos expressions) given
      (arrowTail rules mark expressions false returnType) (Node.Apt law) := by
  have goesOn : ∀ types stop, YieldsFrom law none
      (fun setting lexer => setting.flow = types ∧ stop ≤ lexer.lastStop)
      (given ∧ ∀ function : FunctionForm, (types = false → ∀ param ∈ function.params,
        ∃ other ∈ expressions, param.stop = other.stop) → stop ≤ function.body.start →
          law.layout.points mark.pos function)
      (arrowTail rules mark expressions false returnType) (Node.Apt law) := by
    intro types stop
    have kept : ∀ (setting : Lexer.Setting) (first last : Lexer.State), first.Tracked setting →
        first.Traces setting last → setting.flow = types ∧ stop ≤ first.lastStop →
          setting.flow = types ∧ stop ≤ last.lastStop := fun _ _ _ tracked traces known =>
      ⟨known.1, Nat.le_trans known.2 (traces.onward tracked).2⟩
    have parameters : ∀ {given : Prop}, (given → AllCovers law expressions) → YieldsFrom law none
        (fun setting lexer => setting.flow = types ∧ stop ≤ lexer.lastStop) given
        (toParameters expressions) fun params => AllLawful law params ∧ (types = false →
          ∀ param ∈ params, ∃ other ∈ expressions, param.stop = other.stop) := fun all =>
      .knowing (fun _ _ _ known params after ends untyped =>
        toParameters_stops (known.1.trans untyped) params after ends)
        (.ofYields (toParameters_yields all))
    have body : ∀ {given : Prop} {head : FunctionHead}, (given → head.Lawful law true) →
        YieldsFrom law none (fun setting lexer => setting.flow = types ∧ stop ≤ lexer.lastStop)
        given (functionBody rules head true) fun function =>
          (function.Lawful law true ∧ function.params = head.params ∧
            function.isAsync = head.isAsync ∧ function.generator = head.generator) ∧
              stop ≤ function.body.start := fun holds =>
      .knowing (fun _ _ tracked known => functionBody_opens lawful tracked
        (Nat.le_trans known.2 tracked.sound.ordered))
        (.ofYields (.also functionBody_keeps (functionBody_yields lawful holds)))
    refine .meanwhile kept (parameters fun known => all known.1) fun params => .andThen (body ?_)
      fun function =>
        finish_function rfl (fun known => known.2.1.1) trivial ?_ fun known => known.2.1.1.has
    · exact fun known => ⟨.none, known.2.1, .none, annotated known.1.1, fun other =>
        absurd other (by decide)⟩
    · rintro ⟨⟨⟨-, points⟩, -, stops⟩, ⟨-, params, sync, -⟩, follows⟩
      exact ⟨fun _ => points function (fun untyped => params ▸ stops untyped) follows,
        fun async => absurd (sync.symm.trans async) Bool.false_ne_true⟩
  refine .named (fun setting lexer => (setting.flow, lexer.lastStop)) fun ⟨types, stop⟩ =>
    .learn ?_ ((goesOn types stop).mono ?_)
  · rintro setting lexer knows ⟨pointed, ⟨⟩⟩ function places follows
    cases types : setting.flow with
    | true => exact knows.typed types _ _
    | false => exact knows.points types pointed (places types) follows
  · rintro setting lexer ⟨-, ⟨⟩⟩
    exact ⟨rfl, Nat.le_refl _⟩

end Function

end Grammar

end EcmaSyntax
