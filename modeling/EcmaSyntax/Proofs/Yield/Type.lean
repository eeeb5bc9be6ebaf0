import EcmaSyntax.Grammar.Type.Declaration
import EcmaSyntax.Grammar.Type.Expression
import EcmaSyntax.Proofs.Yield.Rules
import EcmaSyntax.Proofs.Yield.Target

namespace EcmaSyntax

namespace Grammar

variable {law : Law} {given : Prop} {rules : Rules} {mark : Mark} {node annot : Node}
  {item : Parse Node}

section Annotation

/-- The inside of a type is a scope. -/
theorem withinType_eq {α : Type} (action : Parse α) : withinType action = within
    (fun state => { state with lexer := { state.lexer with inType := true } })
    (fun before state => { state with
      lexer := { state.lexer with inType := before.lexer.inType } }) action := rfl

theorem Scope.typed : Scope
    (fun state => { state with lexer := { state.lexer with inType := true } })
    (fun before state => { state with
      lexer := { state.lexer with inType := before.lexer.inType } }) where
  entered _ := ⟨⟨_, _, rfl⟩, rfl, rfl⟩
  left _ _ := ⟨⟨_, _, rfl⟩, rfl, rfl⟩
  flags before after same := by
    rw [State.flags_eq_iff] at same ⊢
    simp_all
  decorators _ := rfl
  decorated _ _ := rfl
  labels _ _ same := same

/-- What a step yields it yields within a type, too. -/
theorem withinType_yields {α : Type} {action : Parse α} {good : α → Prop}
    (yields : Yields law given action good) : Yields law given (withinType action) good := by
  rw [withinType_eq]
  exact .inside .typed (fun _ _ same => same) (fun _ => rfl) yields

/-- A target is as lawful with an annotation as without. -/
theorem annotate_yields (lawful : given → node.Lawful law)
    (unlaid : given → node.form.isUnlaid = true) (annotated : given → annot.Lawful law) :
    Yields law given (annotate node annot) (Node.Lawful law) := by
  cases placed : node.withAnnot? annot with
  | none =>
      rw [annotate, placed]
      exact refinish_yields lawful unlaid
  | some param =>
      rw [annotate, placed]
      exact refinish_yields (fun known => (lawful known).withAnnot? (annotated known) placed)
        fun _ => Node.isUnlaid_of_withAnnot? placed

/-- An annotation changes only the type of a target. -/
theorem annotate_retypes :
    Yields law given (annotate node annot) fun other => node.form.Retyped other.form := by
  refine refinish_formed.weaken fun other same => ?_
  rw [same]
  cases placed : node.withAnnot? annot with
  | none => exact .refl _
  | some param => exact Node.retyped_of_withAnnot? placed

theorem existentialParam?_yields :
    Yields law given existentialParam? (PartLawful law) :=
  .step fun _ => .ite
    (fun _ => .step fun _ => .step fun _ => .bind (finish_lawful rfl fun _ => trivial)
      fun _ => .pure fun known => .some known.2)
    fun _ => .pure fun _ => .none

/-- A list in angle brackets is lawful if its items are. -/
theorem bracketed_yields (items : ∀ {given}, Yields law given item (Node.Lawful law)) :
    Yields law given (bracketed item) (AllLawful law) := by
  refine .step fun _ => .loop (AllLawful law) (fun _ => .nil) fun gathered => ?_
  refine .step fun _ => .ite (fun _ => .step fun _ => .done fun known => known.2.reverse)
    fun _ => ?_
  have ends : ∀ {given : Prop} (item : Node), (given → item.Lawful law) →
      (given → AllLawful law gathered) → Yields law given (do
        if !(← atAngle ">") then expect .comma
        return .more (item :: gathered))
      (Turned (AllLawful law) (AllLawful law)) :=
    fun item lawful all => .step fun _ =>
      .guard (.more fun known => .cons (lawful known) (all known))
  refine existentialParam?_yields.bind fun param => ?_
  split
  · exact .value (ends _ (fun known => known.2 _ rfl) fun known => known.1.2)
  · exact items.bind fun _ => ends _ And.right fun known => known.1.1.2

/-- A list with commas is lawful if its items are. -/
theorem commaSeparated_yields
    (items : ∀ {given}, Yields law given item (Node.Lawful law)) :
    Yields law given (commaSeparated item) (AllLawful law) := by
  refine .loop (AllLawful law) (fun _ => .nil) fun gathered => items.bind fun _ => ?_
  exact .step fun _ => .ite (fun _ => .more fun known => .cons known.2 known.1.2)
    fun _ => .done fun known => .reverse (.cons known.2 known.1.2)

instance : Plain endTypeMember := inferInstanceAs (Plain (eat _ >>= _))

instance {allowed : Bool} : Plain (staticMark allowed) := inferInstanceAs (Plain (atWord _ >>= _))

instance : Plain groupsType := by
  refine Plain.after fun current => ?_
  split <;> infer_instance

theorem simpleType_yields {form : Form} (plain : form.isPlain = true)
    (all : form.Lawful law) :
    Yields law given (simpleType mark form) (Node.Lawful law) :=
  .step fun _ => finish_lawful plain fun _ => all

end Annotation

section Circle

variable (lawful : rules.Lawful law)

include lawful

theorem typeAfter_yields {introducer : Kind} :
    Yields law given (typeAfter rules introducer) (Node.Lawful law) :=
  withinType_yields (.step fun _ => type_yields lawful)

/-- An annotation is lawful. -/
theorem typeAnnotation_yields :
    Yields law given ( typeAnnotation rules) (Node.Lawful law) :=
  .step fun _ => (typeAfter_yields lawful).bind fun _ => finish_lawful rfl And.right

theorem typeAnnotation?_yields :
    Yields law given ( typeAnnotation? rules) (PartLawful law) :=
  .step fun _ => .step fun _ => .ite
    (fun _ => (typeAnnotation_yields lawful).bind fun _ => .pure fun known => .some known.2)
    fun _ => .pure fun _ => .none

/-- A name with its type is lawful. -/
theorem annotatedIdentifier_yields :
    Yields law given (annotatedIdentifier rules) (Node.Lawful law) :=
  identifier_unlaid.bind fun _ => .step fun _ => .ite
    (fun _ => (typeAnnotation_yields lawful).bind fun _ =>
      annotate_yields (fun known => known.1.2.1) (fun known => known.1.2.2) And.right)
    fun _ => .pure fun known => known.2.1

/-- Type parameters are lawful. -/
theorem typeParameters_yields :
    Yields law given (typeParameters rules) (Node.Lawful law) :=
  .step fun _ => (bracketed_yields (annotatedIdentifier_yields lawful)).bind fun _ =>
    finish_lawful rfl And.right

theorem typeParameters?_yields :
    Yields law given (typeParameters? rules) (PartLawful law) :=
  .step fun _ => .ite
    (fun _ => (typeParameters_yields lawful).bind fun _ => .pure fun known => .some known.2)
    fun _ => .pure fun _ => .none

theorem genericHead?_yields :
    Yields law given (genericHead? rules) (PartLawful law) :=
  .step fun _ => .ite (fun _ => typeParameters?_yields lawful) fun _ => .pure fun _ => .none

/-- Type arguments are lawful. -/
theorem typeArguments_yields :
    Yields law given (typeArguments rules) (Node.Lawful law) :=
  .step fun _ => (withinType_yields (bracketed_yields (type_yields lawful))).bind fun _ =>
    finish_lawful rfl And.right

theorem typeArguments?_yields :
    Yields law given (typeArguments? rules) (PartLawful law) :=
  .step fun _ => .ite
    (fun _ => (typeArguments_yields lawful).bind fun _ => .pure fun known => .some known.2)
    fun _ => .pure fun _ => .none

/-- A parameter of a function type is lawful. -/
theorem functionTypeParam_yields :
    Yields law given (functionTypeParam rules) (Node.Lawful law) :=
  .step fun _ => identifier_yields.lawful.bind fun _ => .step fun _ =>
    (typeAfter_yields lawful).bind fun _ => finish_lawful rfl fun known => ⟨known.1.2, known.2⟩

/-- The parameters and the rest are lawful. -/
theorem functionTypeParams_yields :
    Yields law given (functionTypeParams rules) fun parts =>
      AllLawful law parts.1 ∧ PartLawful law parts.2 := by
  refine .via (AllLawful law)
    (.loop (AllLawful law) (fun _ => .nil) fun params => ?_) fun params => ?_
  · refine .step fun _ => .ite (fun _ => ?_) fun _ => .done fun known => known.2.reverse
    exact (functionTypeParam_yields lawful).bind fun param => .step fun _ =>
      .guard (.more fun known => .cons known.2 known.1.2)
  · exact .step fun _ => .ite
      (fun _ => (functionTypeParam_yields lawful).bind fun _ =>
        .pure fun known => ⟨known.1.2, .some known.2⟩)
      fun _ => .pure fun known => ⟨known.2, .none⟩

/-- The type of a method is lawful. -/
theorem signature_yields :
    Yields law given (signature rules mark) (Node.Lawful law) :=
  (typeParameters?_yields lawful).bind fun _ => .step fun _ =>
    (functionTypeParams_yields lawful).bind fun _ => .step fun _ =>
      (typeAfter_yields lawful).bind fun _ => finish_lawful rfl
        fun ⟨⟨⟨_, params⟩, parts⟩, result⟩ => ⟨params, parts.1, parts.2, result⟩

/-- A function type is lawful from its parentheses on. -/
theorem functionTypeTail_yields {typeParameters : Option Node}
    (declared : given → PartLawful law typeParameters) :
    Yields law given (functionTypeTail rules mark typeParameters) (Node.Lawful law) :=
  (functionTypeParams_yields lawful).bind fun _ => .step fun _ => .step fun _ =>
    (type_yields lawful).bind fun _ => finish_lawful rfl
      fun ⟨⟨known, parts⟩, result⟩ => ⟨declared known, parts.1, parts.2, result⟩

/-- An indexer of an object type is lawful. -/
theorem typeIndexer_yields {isStatic : Bool} :
    Yields law given (typeIndexer rules mark isStatic) (Node.Lawful law) :=
  .step fun _ => propertyLabel_yields.lawful.bind fun _ =>
    (typeAfter_yields lawful).bind fun _ => .step fun _ =>
      (typeAfter_yields lawful).bind fun _ => .step fun _ => finish_lawful rfl
        fun ⟨⟨⟨_, id⟩, key⟩, value⟩ => ⟨id, key, value⟩

/-- A call of an object type is lawful. -/
theorem typeCallProperty_yields {isStatic : Bool} :
    Yields law given (typeCallProperty rules mark isStatic) (Node.Lawful law) :=
  .step fun _ => (signature_yields lawful).bind fun _ => .step fun _ =>
    finish_lawful rfl And.right

/-- A property of an object type is lawful. -/
theorem typeProperty_yields {isStatic : Bool} :
    Yields law given (typeProperty rules mark isStatic) (Node.Lawful law) := by
  refine propertyLabel_yields.lawful.bind fun _ => .step fun _ => .step fun _ => ?_
  refine .ite (fun _ => ?_) fun _ => .step fun _ => ?_
  · exact (signature_yields lawful).bind fun _ => .step fun _ =>
      finish_lawful rfl fun known => ⟨known.1.2, known.2⟩
  · exact (typeAfter_yields lawful).bind fun _ => .step fun _ =>
      finish_lawful rfl fun known => ⟨known.1.2, known.2⟩

/-- The members of the type of an object are lawful. -/
structure TypeMembers.Lawful (law : Law) (members : TypeMembers) : Prop where
  properties : AllLawful law members.properties
  indexers : AllLawful law members.indexers
  callProperties : AllLawful law members.callProperties

/-- An object type is lawful. -/
theorem objectType_yields {allowStatic : Bool} :
    Yields law given (objectType rules allowStatic) (Node.Lawful law) := by
  refine .step fun start => .step fun _ => .via (TypeMembers.Lawful law)
    (.loop (TypeMembers.Lawful law) (fun _ => ⟨.nil, .nil, .nil⟩) fun members => ?_)
    fun members => finish_lawful rfl fun ⟨_, all⟩ =>
      ⟨all.properties.reverse, all.indexers.reverse, all.callProperties.reverse⟩
  refine .step fun _ => .ite (fun _ => .done And.right) fun _ => .step fun mark => ?_
  refine .step fun isStatic => .step fun _ => .ite (fun _ => ?_) fun _ => ?_
  · exact (typeIndexer_yields lawful).bind fun _ => .more fun ⟨⟨_, all⟩, indexer⟩ =>
      { all with indexers := .cons indexer all.indexers }
  refine .step fun _ => .step fun _ => .ite (fun _ => ?_) fun _ => ?_
  · exact (typeCallProperty_yields lawful).bind fun _ => .more fun ⟨⟨_, all⟩, property⟩ =>
      { all with callProperties := .cons property all.callProperties }
  · exact (typeProperty_yields lawful).bind fun _ => .more fun ⟨⟨_, all⟩, property⟩ =>
      { all with properties := .cons property all.properties }

/-- A reference to a type is lawful, with its arguments. -/
theorem typeReference_yields {form : Node → Option Node → Form}
    (plain : ∀ id params, (form id params).isPlain = true)
    (all : ∀ id params, id.Lawful law → PartLawful law params →
      (form id params).Lawful law) :
    Yields law given (typeReference rules form) (Node.Lawful law) :=
  .step fun _ => identifier_yields.lawful.bind fun id =>
    (typeArguments?_yields lawful).bind fun params =>
      finish_lawful (plain id params) fun known => all id params known.1.2 known.2

/-- The parts of an interface are lawful. -/
theorem interfaceParts_yields {allowStatic : Bool}
    {form : Node → Option Node → List Node → Node → Form}
    (plain : ∀ id params supers body, (form id params supers body).isPlain = true)
    (all : ∀ id params supers body, id.Lawful law → PartLawful law params →
      AllLawful law supers → body.Lawful law →
      (form id params supers body).Lawful law) :
    Yields law given (interfaceParts rules allowStatic form) fun form =>
      form.isPlain = true ∧ form.Lawful law := by
  refine identifier_yields.lawful.bind fun id => ?_
  refine (typeParameters?_yields lawful).bind fun params => .step fun _ => ?_
  refine .choose (AllLawful law) (.ite (fun _ => ?_) fun _ => ?_) fun supers => ?_
  · exact commaSeparated_yields (typeReference_yields lawful (fun _ _ => rfl) fun _ _ => And.intro)
  · exact .pure fun _ => .nil
  · exact (objectType_yields lawful).bind fun body => .pure
      fun ⟨⟨⟨⟨_, named⟩, declared⟩, inherited⟩, members⟩ =>
        ⟨plain id params supers body, all id params supers body named declared inherited members⟩

/-- An interface is lawful from its name on. -/
theorem interfaceTail_yields :
    Yields law given (interfaceTail rules mark) (Node.Lawful law) := by
  refine .bind (interfaceParts_yields lawful (fun _ _ _ _ => rfl) ?_) fun _ =>
    finish_known And.right
  exact fun _ _ _ _ id params supers body => ⟨id, params, supers, body⟩

/-- A name for a type is lawful. -/
theorem typeAliasTail_yields :
    Yields law given (typeAliasTail rules mark) (Node.Lawful law) :=
  identifier_yields.lawful.bind fun _ => (typeParameters?_yields lawful).bind fun _ =>
    (typeAfter_yields lawful).bind fun _ => .step fun _ => finish_lawful rfl
      fun ⟨⟨⟨_, id⟩, params⟩, right⟩ => ⟨id, params, right⟩

/-- A declared function is lawful. -/
theorem declaredFunction_yields :
    Yields law given (declaredFunction rules mark) (Node.Lawful law) :=
  .step fun _ => identifier_unlaid.bind fun _ => .step fun _ =>
    (signature_yields lawful).bind fun _ => .bind (finish_lawful rfl And.right) fun _ =>
      (annotate_yields (fun known => known.1.1.2.1) (fun known => known.1.1.2.2) And.right).bind
        fun _ => .step fun _ => finish_lawful rfl And.right

/-- A declared module is lawful. -/
theorem declaredModule_yields :
    Yields law given (declaredModule rules mark) (Node.Lawful law) := by
  refine .step fun _ => .step fun _ => .choose (Node.Lawful law)
    (.ite (fun _ => stringLiteral_yields.lawful) fun _ => identifier_yields.lawful) fun id => ?_
  refine .step fun _ => .step fun _ => .via (AllLawful law)
    (.loop (AllLawful law) (fun _ => .nil) fun body => ?_) fun body => ?_
  · refine .step fun _ => .ite (fun _ => .done fun known => known.2.reverse) fun _ => ?_
    refine .step fun declareMark => .step fun _ => ?_
    refine .via (Node.Lawful law) (.ofGiven (lawful.yields (.declared declareMark) rfl)
      fun _ => trivial) fun _ => .more fun known => .cons known.2 known.1.2
  · refine finish_made.bind fun block => finish_lawful rfl fun known =>
      ⟨known.1.1.2, fun enclosures => .ofBlock known.2.1 nofun fun statement inside => ?_⟩
    have same : law.mode.after [] = law.mode := by simp [Mode.after]
    rw [same]
    exact known.1.2 statement inside enclosures

/-- A declaration of what is defined elsewhere is lawful. -/
theorem declared_yields :
    Yields law given (declared rules mark) (Node.Lawful law) := by
  refine .step fun current => ?_
  split
  · refine .step fun _ => .bind (interfaceParts_yields lawful (fun _ _ _ _ => rfl) ?_) fun _ =>
      finish_known And.right
    exact fun _ _ _ _ id params supers body => ⟨id, params, supers, body⟩
  · exact declaredFunction_yields lawful
  · exact .step fun _ => (annotatedIdentifier_yields lawful).bind fun _ => .step fun _ =>
      finish_lawful rfl And.right
  · exact .step fun _ => .ite (fun _ => declaredModule_yields lawful) fun _ => .unexpected

/-- A type with its arguments is lawful. -/
theorem genericType_yields (named : given → node.Lawful law) :
    Yields law given (genericType rules mark node) (Node.Lawful law) := by
  refine .via (Node.Lawful law)
    (.loop (Node.Lawful law) named fun id => .step fun _ => .ite (fun _ => ?_)
      fun _ => .done And.right) fun id => ?_
  · exact identifier_yields.lawful.bind fun _ =>
      .bind (finish_lawful rfl fun known => ⟨known.1.2, known.2⟩) fun _ => .more And.right
  · exact (typeArguments?_yields lawful).bind fun _ =>
      finish_lawful rfl fun known => ⟨known.1.2, known.2⟩

omit lawful in
theorem namedType?_whole {name : String} {form : Form} (named : namedType? name = some form) :
    form.isPlain = true ∧ form.Lawful law := by
  unfold namedType? at named
  split at named <;> cases named <;> exact ⟨rfl, trivial⟩

/-- A type that is a name is lawful. -/
theorem typeOfName_yields :
    Yields law given (typeOfName rules mark) (Node.Lawful law) := by
  refine identifier_yields.lawful.bind fun id => ?_
  split
  · next form named =>
      obtain ⟨name, -, known⟩ := Option.bind_eq_some_iff.mp named
      exact finish_known fun _ => namedType?_whole known
  · exact genericType_yields lawful And.right

/-- A tuple type is lawful. -/
theorem tupleType_yields :
    Yields law given (tupleType rules) (Node.Lawful law) := by
  refine .step fun _ => .step fun _ => .via (AllLawful law)
    (.loop (AllLawful law) (fun _ => .nil) fun types => ?_)
    fun _ => .step fun _ => finish_lawful rfl And.right
  refine .step fun _ => .step fun _ => ?_
  refine .ite (fun _ => .done fun known => known.2.reverse) fun _ => ?_
  refine (type_yields lawful).bind fun item => .step fun _ => .ite (fun _ => ?_) fun _ => ?_
  · exact .done fun known => .reverse (.cons known.2 known.1.2)
  · exact .step fun _ => .more fun known => .cons known.2 known.1.2

/-- A type in parentheses is lawful. -/
theorem groupedType_yields :
    Yields law given (groupedType rules mark) (Node.Lawful law) :=
  .step fun _ => .step fun _ => .ite
    (fun _ => (type_yields lawful).bind fun _ => .step fun _ => .step fun _ =>
      .guard (.pure And.right))
    fun _ => functionTypeTail_yields lawful fun _ => .none

/-- A type without operators is lawful. -/
theorem primaryTypeRule_yields :
    Yields law given (primaryType rules) (Node.Lawful law) := by
  refine .step fun mark => .step fun current => ?_
  split
  · exact typeOfName_yields lawful
  · exact objectType_yields lawful
  · exact tupleType_yields lawful
  · exact .step fun _ => .ite
      (fun _ => (typeParameters_yields lawful).bind fun _ => .step fun _ =>
        functionTypeTail_yields lawful fun known => .some known.2)
      fun _ => .unexpected
  · exact groupedType_yields lawful
  · exact .step fun _ => .lawful (literal_yields rfl trivial)
  · exact .step fun _ => .lawful (literal_yields rfl trivial)
  · exact simpleType_yields rfl trivial
  · exact simpleType_yields rfl trivial
  · exact simpleType_yields rfl trivial
  · exact simpleType_yields rfl trivial
  · exact .step fun _ => .via (Node.Lawful law)
      (.ofGiven (lawful.yields .primaryType rfl) fun _ => trivial) fun _ =>
        finish_lawful rfl And.right
  · exact .unexpected

/-- A type with brackets after it is lawful. -/
theorem arrayType_yields :
    Yields law given (arrayType rules) (Node.Lawful law) := by
  refine .step fun _ => .via (Node.Lawful law)
    (.ofGiven (lawful.yields .primaryType rfl) fun _ => trivial) fun item => ?_
  refine .loop (Node.Lawful law) And.right fun item => .step fun _ => .step fun _ => ?_
  refine .ite (fun _ => .step fun _ => .step fun _ => ?_) fun _ => .done And.right
  exact .bind (finish_lawful rfl And.right) fun _ => .more And.right

/-- A type with a mark before it is lawful. -/
theorem prefixTypeRule_yields :
    Yields law given (prefixType rules) (Node.Lawful law) :=
  .step fun _ => .step fun _ => .ite
    (fun _ => .via (Node.Lawful law)
      (.ofGiven (lawful.yields .prefixType rfl) fun _ => trivial) fun _ =>
        finish_lawful rfl And.right)
    fun _ => arrayType_yields lawful

end Circle

/-- Types that an operator joins are lawful if each of them is. -/
theorem joinedTypes_yields {operator : Kind} {join : List Node → Form}
    (plain : ∀ types, (join types).isPlain = true)
    (all : ∀ types, AllLawful law types → (join types).Lawful law)
    (items : ∀ {given}, Yields law given item (Node.Lawful law)) :
    Yields law given (joinedTypes operator join item) (Node.Lawful law) := by
  refine .step fun _ => items.bind fun first => .step fun _ => .ite (fun _ => ?_)
    fun _ => .pure And.right
  refine .via (AllLawful law)
    (.loop (AllLawful law) (fun known => .cons known.2 .nil) fun types => ?_)
    fun types => finish_lawful (plain types) fun known => all types known.2
  exact .step fun _ => .ite
    (fun _ => items.bind fun _ => .more fun known => .cons known.2 known.1.2)
    fun _ => .done fun known => known.2.reverse

/-- Every type is lawful. -/
theorem typeExpression_yields (lawful : rules.Lawful law) :
    Yields law given (typeExpression rules) (Node.Lawful law) :=
  .nested (withinType_yields (joinedTypes_yields (fun _ => rfl) (fun _ => id)
    (joinedTypes_yields (fun _ => rfl) (fun _ => id)
      ((lawful.yields .prefixType rfl).ofGiven fun _ => trivial))))

end Grammar

end EcmaSyntax
