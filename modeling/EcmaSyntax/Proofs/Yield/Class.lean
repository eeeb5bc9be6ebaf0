import EcmaSyntax.Proofs.Yield.Member
import EcmaSyntax.Proofs.Yield.Object
import EcmaSyntax.Proofs.Yield.Sequence

namespace EcmaSyntax

namespace Grammar

variable {law : Law} {given : Prop} {rules : Rules} {mark : Mark} {node : Node}

section Decorators

/-- The decorators that wait are lawful when their class comes. -/
theorem takeDecorators_yields :
    Yields law given takeDecorators (Every (Node.Somewhere law)) where
  steps := .step fun _ => .bind (.modify (fun _ => ⟨⟨_, _, rfl⟩, rfl, rfl⟩) fun _ => rfl) fun _ =>
    .plain
  good _ _ _ := by
    simp only [takeDecorators, Gives.bind_iff, gives_get, gives_modify, gives_pure]
    exact fun _ _ waiting _ => ⟨waiting, .nil, trivial⟩

/-- A decorator waits for its class. -/
theorem keepDecorator_yields (lawful : given → node.Lawful law) :
    Yields law given
      (modify fun state => { state with decorators := state.decorators ++ [node] })
      fun _ => True where
  steps := .modify (fun _ => ⟨⟨_, _, rfl⟩, rfl, rfl⟩) fun _ => rfl
  good _ _ _ := gives_modify.mpr fun _ _ waiting known =>
    ⟨trivial, .append waiting (.cons (lawful known).somewhere .nil), rfl⟩

/-- Decorators are lawful where they are read. -/
theorem leadingDecorators_yields {allowExport : Bool} (lawful : rules.Lawful law) :
    Yields law given (leadingDecorators rules allowExport) fun _ => True := by
  refine .via (fun _ => True)
    (.loop (fun _ => True) (fun _ => trivial) fun _ => ?_) fun _ => ?_
  · refine .step fun _ => .ite (fun _ => ?_) fun _ => .done fun _ => trivial
    exact (decorator_yields lawful).bind fun _ => (keepDecorator_yields And.right).bind fun _ =>
      .more fun _ => trivial
  · exact .step fun _ => .ite (fun _ => .pure fun _ => trivial) fun _ => .step fun _ =>
      .ite (fun _ => .step fun _ => .raise) fun _ => .pure fun _ => trivial

end Decorators

section Members

/-- A member of a class before its value is lawful. -/
structure MemberHead.Lawful (law : Law) (head : MemberHead) : Prop where
  decorators : AllLawful law head.decorators
  key : head.key.Lawful law

instance : Plain isProperty := inferInstanceAs (Plain (hasTypes >>= _))

instance {head : MemberHead} {parts : ClassParts} : Plain (checkConstructor head parts) := by
  unfold checkConstructor
  infer_instance

variable (lawful : rules.Lawful law)

include lawful

/-- A property of a class is lawful. -/
theorem classProperty_yields {head : MemberHead} (holds : given → head.Lawful law) :
    Yields law given (classProperty rules head) (Node.Lawful law) := by
  refine ( typeAnnotation?_yields lawful).bind fun annot => .step fun _ => ?_
  refine .choose (PartLawful law) (.ite (fun _ => ?_) fun _ => .pure fun _ => .none)
    fun value => .step fun _ => finish_lawful rfl fun known => ?_
  · exact (assignment_yields lawful).map fun _ => .some
  · exact ⟨(holds known.1.1).decorators, (holds known.1.1).key, known.1.2, known.2⟩

/-- A method of a class is lawful. -/
theorem classMethod_yields {head : MemberHead} (holds : given → head.Lawful law) :
    Yields law given (classMethod rules head) (Node.Lawful law) := by
  refine (genericHead?_yields lawful).bind fun typeParameters => ?_
  refine .bind (method_yields lawful fun known =>
    ⟨.none, .nil, known.2, .none, fun _ => .nil⟩) fun function => ?_
  refine .ite (fun _ => .raised) fun arity => .lawful (finish_function rfl And.right ?_
    (fun _ => trivial) fun known =>
      ⟨(holds known.1.1).decorators, (holds known.1.1).key, known.2.has⟩)
  by_cases accessor : head.isAccessor = true
  · exact accesses_of_arity (by simpa [accessor] using arity)
  · constructor <;> intro same <;> simp [MemberHead.isAccessor, same] at accessor

/-- The key after a word is lawful. -/
theorem withNextKey_yields {head : MemberHead} (holds : given → head.Lawful law) :
    Yields law given (head.withNextKey rules) (MemberHead.Lawful law) := by
  refine (propertyKey_yields lawful).bind ?_
  rintro ⟨key, computed⟩
  exact .pure fun known => ⟨(holds known.1).decorators, known.2⟩

/-- The start of a member is lawful, with its decorators. -/
theorem memberStart_yields {decorators : List Node}
    (decorated : given → AllLawful law decorators) :
    Yields law given (memberStart rules mark decorators) (MemberHead.Lawful law) := by
  refine .step fun _ => .step fun generator => (propertyKey_yields lawful).bind ?_
  rintro ⟨key, computed⟩
  refine .step fun _ => .ite (fun _ => ?_) fun _ => .pure fun known => ⟨decorated known.1, known.2⟩
  exact .guard (.step fun _ => withNextKey_yields lawful fun known => ⟨decorated known.1, known.2⟩)

/-- A member is lawful with the word for asynchronous code before it. -/
theorem passAsync_yields {head : MemberHead} (holds : given → head.Lawful law) :
    Yields law given (passAsync rules head) (MemberHead.Lawful law) :=
  .step fun _ => .ite
    (fun _ => .step fun _ => withNextKey_yields lawful fun known =>
      ⟨(holds known).decorators, (holds known).key⟩)
    fun _ => .pure holds

/-- A member is lawful with the word for an accessor before it. -/
theorem passAccessor_yields {head : MemberHead} (holds : given → head.Lawful law) :
    Yields law given (passAccessor rules head) (MemberHead.Lawful law) := by
  unfold passAccessor
  split
  · exact .step fun _ => .ite
      (fun _ => withNextKey_yields lawful fun known =>
        ⟨(holds known).decorators, (holds known).key⟩)
      fun _ => .pure holds
  · exact .pure holds

omit lawful in
/-- A key that has been judged is as lawful as before. -/
theorem judgeKey_yields {head : MemberHead} {isCall : Bool} {parts : ClassParts}
    (holds : given → head.Lawful law) :
    Yields law given (judgeKey head isCall parts) (MemberHead.Lawful law) :=
  .ite (fun _ => .step fun _ => .pure fun known => ⟨(holds known).decorators, (holds known).key⟩)
    fun _ => .guard (.pure holds)

/-- What has been read of the members of a class is lawful. -/
structure ClassParts.Lawful (law : Law) (parts : ClassParts) : Prop where
  members : AllLawful law parts.members
  decorators : AllLawful law parts.decorators

/-- A member is lawful, and so are those before it. -/
theorem memberEnd_yields {head : MemberHead} {isCall : Bool} {parts : ClassParts}
    (members : given → AllLawful law parts.members) (holds : given → head.Lawful law) :
    Yields law given (memberEnd rules mark isCall parts head) (ClassParts.Lawful law) := by
  have called : given → MemberHead.Lawful law
      (if isCall then { head with kind := .calling } else head) := fun known => by
    split
    · exact ⟨(holds known).decorators, (holds known).key⟩
    · exact holds known
  unfold memberEnd
  exact .guard (.guard ((classMethod_yields lawful called).bind fun _ => .pure fun known =>
    ⟨.cons known.2 (members known.1), .nil⟩))

/-- The members stay lawful when one is taken. -/
theorem takeMember_yields {parts : ClassParts} (holds : given → parts.Lawful law) :
    Yields law given (takeMember rules parts) (ClassParts.Lawful law) := by
  refine .step fun mark => ?_
  refine (memberStart_yields lawful fun known => (holds known).decorators).bind fun head => ?_
  refine .step fun _ => .ite (fun _ => ?_) fun _ => .step fun _ => ?_
  · exact (classProperty_yields lawful And.right).bind fun _ => .pure fun known =>
      ⟨.cons known.2 (holds known.1.1).members, .nil⟩
  refine .choose (MemberHead.Lawful law)
    (.ite (fun _ => withNextKey_yields lawful And.right) fun _ => .pure And.right) fun head => ?_
  refine (passAsync_yields lawful And.right).bind fun head => ?_
  refine .ite (fun _ => .value ?_) fun _ => ?_
  · exact memberEnd_yields lawful (fun known => (holds known.1.1.1).members) And.right
  · refine (passAccessor_yields lawful And.right).bind fun head => ?_
    refine (judgeKey_yields And.right).bind fun head => ?_
    exact memberEnd_yields lawful (fun known => (holds known.1.1.1.1.1).members) And.right

/-- The members of a class are lawful. -/
theorem classMembers_yields :
    Yields law given (classMembers rules) (Node.Lawful law) := by
  let invariant (parts : ClassParts) : Prop := parts.Lawful law ∧ parts.Ruled
  refine .step fun start => .step fun _ => .via invariant
    (.loop invariant (fun _ => ⟨⟨.nil, .nil⟩, ⟨nofun, Nat.le_refl _, Nat.le_refl _⟩⟩)
      fun parts => ?_) fun parts => ?_
  · refine .step fun _ => .ite (fun _ => .done And.right) fun _ => ?_
    refine .step fun _ => .ite (fun _ => .more And.right) fun _ => ?_
    refine .step fun _ => .ite (fun _ => ?_) fun _ => ?_
    · exact (decorator_yields lawful).bind fun _ => .more fun ⟨⟨_, lawful, ruled⟩, taken⟩ =>
        ⟨⟨lawful.members, .append lawful.decorators (.cons taken .nil)⟩,
          ⟨ruled.methods, ruled.constructors, ruled.calls⟩⟩
    · exact ((takeMember_yields lawful fun known => known.2.1).learn fun known =>
        takeMember_ruled known.2.2).bind fun _ => .more And.right
  · have ends : Yields law (given ∧ invariant parts)
        (finish start (.classBody parts.members.reverse)) (Node.Lawful law) :=
      .lawful (finish_permitted rfl
        (fun known => Form.permitted_of_classBody known.2.2.finished)
        fun known => known.2.1.members.reverse)
    exact .ite (fun _ => .step fun _ => .step fun _ => ends) fun _ => ends

omit lawful in
/-- Strict code is a scope. -/
theorem Scope.strictly : Scope
    (fun state => { state with lexer := { state.lexer with strict := true } })
    (fun before state => { state with
      lexer := { state.lexer with strict := before.lexer.strict } }) where
  entered _ := ⟨⟨_, _, rfl⟩, rfl, rfl⟩
  left _ _ := ⟨⟨_, _, rfl⟩, rfl, rfl⟩
  flags before after same := by
    rw [State.flags_eq_iff] at same ⊢
    simp_all
  decorators _ := rfl
  decorated _ _ := rfl
  labels _ _ same := same

omit lawful in
/-- The body of a class is read as strict code. -/
theorem classBody_eq (rules : Rules) : classBody rules = within
    (fun state => { state with lexer := { state.lexer with strict := true } })
    (fun before state => { state with
      lexer := { state.lexer with strict := before.lexer.strict } }) (classMembers rules) := rfl

/-- The body of a class is strict code. -/
theorem classBody_yields :
    Yields law given (classBody rules) (Node.Lawful (law.under law.mode.strictly)) := by
  rw [classBody_eq]
  refine .inside .strictly (fun state _ same => ?_) (fun _ => rfl)
    (classMembers_yields (lawful.under _))
  rw [← same]
  rfl

/-- The interfaces of a class are lawful. -/
theorem implementedInterfaces?_yields :
    Yields law given (implementedInterfaces? rules) fun supers =>
      ∀ nodes ∈ supers, AllLawful law nodes := by
  refine .step fun _ => .ite (fun _ => .step fun _ => .ite (fun _ => ?_) fun _ => ?_) fun _ => ?_
  · refine .bind (commaSeparated_yields (typeReference_yields lawful (fun _ _ => rfl)
      fun _ _ => And.intro)) fun supers => .pure ?_
    rintro ⟨_, all⟩ _ ⟨rfl⟩
    exact all
  · exact .pure fun _ => nofun
  · exact .pure fun _ => nofun

omit lawful in
/-- The name of a class is lawful, and not reserved in strict code. -/
theorem className?_yields {isStatement optionalId : Bool} :
    Yields law given (className? isStatement optionalId) fun id => PartLawful law id ∧
      (law.mode.strict = true → ∀ node ∈ id, node.Unreserved) := by
  refine .step fun _ => .ite (fun _ => ?_) fun _ =>
    .ite (fun _ => .unexpected) fun _ => .pure fun _ => ⟨.none, nofun⟩
  refine identifier_reads.bind fun _ => .pure fun ⟨_, apt, _, unreserved⟩ =>
    ⟨.some apt.lawful, fun strict => ?_⟩
  rintro _ ⟨rfl⟩
  exact unreserved rfl strict

/-- A class is lawful. -/
theorem classTail_yields {decorators : List Node} {isStatement optionalId : Bool}
    (decorated : given → Every (Node.Somewhere law) decorators) :
    Yields law given (classTail rules mark decorators isStatement optionalId)
      (Node.Apt law) := by
  refine .step fun _ => className?_yields.bind fun id => ?_
  refine (genericHead?_yields lawful).bind fun typeParameters => .step fun _ => ?_
  refine .choose (PartLawful law) (.ite (fun _ => ?_) fun _ => .pure fun _ => .none)
    fun superClass => .step fun _ => .choose (PartLawful law)
      (.ite (fun _ => typeArguments?_yields lawful) fun _ => .pure fun _ => .none)
      fun superTypeParameters => (implementedInterfaces?_yields lawful).bind fun implemented => ?_
  · refine YieldsAt.map (?_ : Yields law _ _ (Node.Lawful law)) fun _ => .some
    exact (accessChain_yields lawful).bind fun _ => settle_yields fun known =>
      known.2.lawful.settled
  · refine (classBody_yields lawful).bind fun body => ?_
    refine finish_class (by cases isStatement <;> rfl) ?_
    rintro ⟨⟨⟨⟨⟨⟨known, id, named⟩, typeParameters⟩, superClass⟩, superTypeParameters⟩,
      implemented⟩, body⟩
    exact ⟨⟨decorated known, id, typeParameters, superClass, superTypeParameters, implemented,
      body⟩, named⟩

end Members

end Grammar

end EcmaSyntax
