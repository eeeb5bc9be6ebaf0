import EcmaSyntax.Grammar.Expression.Object
import EcmaSyntax.Proofs.Yield.Function

namespace EcmaSyntax

namespace Node

variable {node : Node}

/-- An expression is no pattern with a default. -/
theorem IsExpression.isDefaulted (expression : node.IsExpression) : node.isDefaulted = false := by
  rw [IsExpression] at expression
  unfold Node.isDefaulted
  split
  · next same => simp [same, Form.isPart] at expression
  · rfl

/-- A method has no default. -/
theorem isDefaultedProperty_of_method {kind : MethodKind} {isMethod shorthand computed : Bool}
    {decorators : List Node} {key : Node} {function : FunctionForm}
    (same : node.form = .objectMethod kind isMethod shorthand computed decorators key function) :
    node.isDefaultedProperty = false := by
  rw [isDefaultedProperty, same]

theorem isDefaultedProperty_of_property {method shorthand computed : Bool}
    {decorators : List Node} {key value : Node}
    (same : node.form = .objectProperty method shorthand computed decorators key value) :
    node.isDefaultedProperty = value.isDefaulted := by
  rw [isDefaultedProperty, same]

end Node

namespace Grammar

variable {law : Law} {given : Prop} {rules : Rules} {mark : Mark} {node : Node}

/-- What is known of a property before its value is lawful. -/
structure PropertyHead.Lawful (law : Law) (head : PropertyHead) : Prop where
  decorators : AllLawful law head.decorators
  key : head.key.Lawful law

/-- What is known of a property that has been read, also if something is pending. -/
structure Readable (law : Law) (isPattern : Bool) (property : Node) : Prop where
  covers : property.Covers law
  member : isPattern = true → property.PatternMember

/-- What is known of a property if nothing is pending. -/
structure Member (law : Law) (isPattern : Bool) (property : Node) : Prop where
  lawful : property.Lawful law
  plain : isPattern = false → property.isDefaultedProperty = false

/-- What is known of a property that may still be read as that of a pattern. -/
abbrev MemberHedged (law : Law) (isPattern : Bool) (property : Cover Node) : Prop :=
  Hedged (Readable law isPattern property.value) (Member law isPattern property.value)
    property.pending

/-- What is known of the properties that have been read of an object. -/
abbrev MembersHedged (law : Law) (isPattern : Bool) (parts : ObjectParts) : Prop :=
  Hedged (Every (Readable law isPattern) parts.properties)
    (Every (Member law isPattern) parts.properties) parts.pending

/-- A property has no default if its form has no place for one. -/
theorem MemberHedged.ofLawful {isPattern : Bool} {pending : Option Nat} (lawful : node.Lawful law)
    (member : isPattern = true → node.PatternMember)
    (plain : isPattern = false → node.isDefaultedProperty = false) :
    MemberHedged law isPattern { value := node, pending } :=
  ⟨⟨.lawful lawful, member⟩, fun _ => ⟨lawful, plain⟩⟩

/-- A method is lawful with its type parameters. -/
theorem withTypeParameters_lawful {property typeParameters : Node}
    (lawful : property.Lawful law) (declared : typeParameters.Lawful law) :
    (withTypeParameters property typeParameters).Lawful law := by
  unfold withTypeParameters
  split
  · next kind method shorthand computed decorators key function same =>
      refine fun enclosures => (lawful enclosures).redressed same (.method ..) fun placed => ?_
      change (Form.objectMethod kind method shorthand computed decorators key
        { function with typeParameters := some typeParameters }).Placed _ _ _
      rw [Form.placed_iff_function rfl] at placed ⊢
      obtain ⟨before, key, all⟩ := placed
      exact ⟨before, key, { all with typeParameters := Maybe.some (declared enclosures) }⟩
  · exact lawful

theorem withTypeParameters_covers {property typeParameters : Node}
    (covers : property.Covers law) (declared : typeParameters.Lawful law) :
    (withTypeParameters property typeParameters).Covers law := by
  unfold withTypeParameters
  split
  · next same =>
      have lawful := withTypeParameters_lawful (covers.settled (same ▸ rfl)) declared
      simp only [withTypeParameters, same] at lawful
      exact .lawful lawful
  · exact covers

/-- A method has no default. -/
theorem withTypeParameters_plain {property typeParameters : Node}
    (plain : property.isDefaultedProperty = false) :
    (withTypeParameters property typeParameters).isDefaultedProperty = false := by
  unfold withTypeParameters
  split
  · rfl
  · exact plain

/-- A member of a pattern is no method, so it takes no type parameters. -/
theorem withTypeParameters_member {property typeParameters : Node}
    (member : property.PatternMember) :
    (withTypeParameters property typeParameters).PatternMember := by
  unfold withTypeParameters
  split
  · next same =>
      cases member with
      | objectProperty other _ => cases same.symm.trans other
      | restProperty other => cases same.symm.trans other
  · exact member

/-- A function with the parameters of an accessor is one. -/
theorem accesses_of_arity {kind : MethodKind} {function : FunctionForm}
    (arity : hasAccessorArity kind function = true) : function.Accesses kind := by
  unfold hasAccessorArity at arity
  constructor <;> rintro rfl <;> simpa using arity

instance {key : Node} {name : String} : Plain (checkShorthand key name) :=
  inferInstanceAs (Plain (lex (Lexer.isKeyword name) >>= _))

variable (lawful : rules.Lawful law)

include lawful

theorem decorator_yields :
    Yields law given (decorator rules) (Node.Lawful law) :=
  .step fun _ => .step fun _ => (assignment_yields lawful).bind fun _ =>
    finish_lawful rfl And.right

/-- Decorators are lawful. -/
theorem decoratorList_yields :
    Yields law given (decoratorList rules) (AllLawful law) :=
  .loop (AllLawful law) (fun _ => .nil) fun _ => .step fun _ => .ite
    (fun _ => (decorator_yields lawful).bind fun _ => .more fun known => .cons known.2 known.1.2)
    fun _ => .done fun known => known.2.reverse

/-- The key of a property is lawful. -/
theorem propertyKey_yields :
    Yields law given (propertyKey rules) fun key => key.1.Lawful law :=
  .step fun _ => .ite
    (fun _ => (assignment_yields lawful).bind fun _ => .step fun _ => .pure And.right)
    fun _ => propertyLabel_yields.lawful.bind fun _ => .pure And.right

/-- A method of an object is lawful. -/
theorem methodProperty_yields {head : PropertyHead} {isPattern : Bool}
    (literal : isPattern = false) (holds : given → head.Lawful law) :
    Yields law given (methodProperty rules head) fun node =>
      MemberHedged law isPattern { value := node } := by
  refine .bind (method_yields lawful fun _ =>
    ⟨.none, .nil, .none, .none, fun _ => .nil⟩) fun function => ?_
  refine .weaken (.also (Ends.finish.mono fun _ => Node.isDefaultedProperty_of_method)
    (.lawful (finish_function rfl And.right .plain (fun _ => trivial) fun known =>
      ⟨(holds known.1).decorators, (holds known.1).key, known.2.has⟩))) fun node known => ?_
  exact .ofLawful known.1 (fun mode => absurd (literal.symm.trans mode) (by decide)) fun _ => known.2

/-- An accessor of an object is lawful. -/
theorem accessorProperty_yields {head : PropertyHead} {kind : MethodKind} {isPattern : Bool}
    (literal : isPattern = false) (holds : given → head.Lawful law) :
    Yields law given (accessorProperty rules head kind) fun node =>
      MemberHedged law isPattern { value := node } := by
  refine (propertyKey_yields lawful).bind ?_
  rintro ⟨key, computed⟩
  refine .bind (method_yields lawful fun _ =>
    ⟨.none, .nil, .none, .none, fun _ => .nil⟩) fun function => .ite (fun _ => .raised) fun arity => ?_
  refine .weaken (.also (Ends.finish.mono fun _ => Node.isDefaultedProperty_of_method)
    (.lawful (finish_function rfl And.right (accesses_of_arity ?_) (fun _ => trivial) fun known =>
      ⟨(holds known.1.1).decorators, known.1.2, known.2.has⟩))) fun node known => ?_
  · simpa using arity
  · exact .ofLawful known.1 (fun mode => absurd (literal.symm.trans mode) (by decide))
      fun _ => known.2

/-- A property with a value is lawful, or may still be one of a pattern. -/
theorem valueProperty_yields (expressing : rules.Expressing) {head : PropertyHead}
    {isPattern : Bool} (holds : given → head.Lawful law) :
    Yields law given (valueProperty rules head isPattern) (MemberHedged law isPattern) := by
  have rest : ∀ {given : Prop} (value : Cover Node), (given → head.Lawful law) →
      (given → CoverLawful law value) → (given → isPattern = true → value.value.Pattern) →
      (given → isPattern = false → value.value.isDefaulted = false) →
      Yields law given (do
        return { value with
          value := ← finish head.mark
            (.objectProperty false false head.computed head.decorators head.key value.value) })
        (MemberHedged law isPattern) := by
    refine fun value holds inner pattern plain => finish_made.bind fun node => .pure ?_
    rintro ⟨known, made, _⟩
    refine ⟨⟨?_, fun mode => .objectProperty made (pattern known mode)⟩, fun none => ⟨?_, ?_⟩⟩
    · exact .property made (holds known).decorators (holds known).key (inner known).covers
    · exact .ofPlain (made ▸ rfl)
        (made ▸ ⟨(holds known).decorators, (holds known).key, (inner known).settled none⟩)
    · exact fun mode => (Node.isDefaultedProperty_of_property made).trans (plain known mode)
  refine .ite (fun mode => ?_) fun literal => ?_
  · exact (bindingElement_yields lawful).bind fun _ => .value (rest _ (fun known => holds known.1)
      (fun known => .ofLawful known.2.lawful) (fun known _ => known.2.pattern)
      fun _ literal => absurd (literal.symm.trans mode) (by decide))
  · exact (YieldsAt.also (expressing.cover false false) (cover_yields lawful)).bind fun value =>
      rest value (fun known => holds known.1) (fun known => known.2.1)
        (fun _ mode => absurd mode literal) fun known _ => known.2.2.isDefaulted

omit lawful in
/-- A property that stands for its own value has no default if none is pending. -/
theorem shorthandProperty_plain {head : PropertyHead} {name : String}
    (key : head.key.isIdentifier = true) : Ends (shorthandProperty rules head name false)
      fun cover => cover.pending = none → cover.value.isDefaultedProperty = false := by
  intro setting state
  simp only [shorthandProperty, Bool.false_eq_true, if_false, Bool.not_false, Bool.true_and]
  rw [Gives.bind_iff, gives_get, Gives.bind_iff, gives_atKind]
  refine Gives.bind_iff.mpr (duplicate_aside.mono fun copy middle ⟨same, aside⟩ => ?_)
  have read : Gives (withDefault rules head.mark copy) setting middle fun value _ =>
      state.lexer.kind ≠ .eq → value.isDefaulted = false := by
    by_cases sign : state.lexer.kind = .eq
    · exact fun _ _ _ other => absurd sign other
    · refine (withDefault_gives (aside.lexer.kind ▸ sign)).mono ?_
      rintro copy _ rfl -
      have copied : copy.isIdentifier = true := by
        rwa [Node.isIdentifier, Node.name?, same]
      exact (Node.IsOperand.ofName copied).expression.isDefaulted
  refine Gives.bind_iff.mpr (read.mono fun value after plain => ?_)
  refine Gives.bind_iff.mpr (finish_gives.mono fun node last made => gives_pure.mpr fun none => ?_)
  rw [Node.isDefaultedProperty_of_property made.1]
  refine plain fun sign => ?_
  simp [sign] at none

/-- A shorthand is lawful; with a default it may only become part of a pattern. -/
theorem shorthandProperty_yields {head : PropertyHead} {name : String} {isPattern : Bool}
    (holds : given → head.Lawful law) (named : head.plainName? = some name) :
    Yields law given (shorthandProperty rules head name isPattern)
      (MemberHedged law isPattern) := by
  have key : head.key.isIdentifier = true := by
    unfold PropertyHead.plainName? at named
    split at named
    · cases named
    · exact Option.isSome_iff_exists.mpr ⟨name, named⟩
  have read : Yields law given (shorthandProperty rules head name isPattern) fun cover =>
      cover.value.Lawful law ∧ cover.value.PatternMember := by
    unfold shorthandProperty
    refine .guard (.step fun _ => .step fun _ => ?_)
    refine ((duplicate_yields fun known => (holds known).key).and duplicate_formed).bind
      fun copy => ?_
    refine (withDefault_yields lawful fun known =>
      ⟨known.2.1, (Node.Pattern.ofIdentifier key).congr known.2.2⟩).bind
        fun value => finish_made.bind fun node => .pure ?_
    rintro ⟨⟨⟨known, _⟩, inner⟩, made, _⟩
    exact ⟨.ofPlain (made ▸ rfl)
        (made ▸ ⟨(holds known).decorators, (holds known).key, inner.lawful⟩),
      .objectProperty made inner.pattern⟩
  cases isPattern with
  | true =>
      exact read.weaken fun _ known => ⟨⟨.lawful known.1, fun _ => known.2⟩, fun _ =>
        ⟨known.1, nofun⟩⟩
  | false =>
      exact (YieldsAt.also (shorthandProperty_plain key) read).weaken fun _ known =>
        ⟨⟨.lawful known.1.1, nofun⟩, fun none => ⟨known.1.1, fun _ => known.2 none⟩⟩

theorem plainPropertyTail_yields (expressing : rules.Expressing) {head : PropertyHead}
    {isPattern : Bool} (holds : given → head.Lawful law) :
    Yields law given (plainPropertyTail rules head isPattern) (MemberHedged law isPattern) := by
  refine .step fun _ => .ite (fun _ => ?_) fun _ => .step fun _ => .ite (fun _ => ?_) fun _ => ?_
  · exact .ite (fun _ => .fail) fun literal =>
      (methodProperty_yields lawful (Bool.not_eq_true _ ▸ literal) holds).bind fun _ => .pure And.right
  · exact valueProperty_yields lawful expressing holds
  · split
    · exact .unexpected
    · next name named =>
      split
      · refine .step fun _ => .step fun _ =>
          .ite (fun _ => shorthandProperty_yields lawful holds named) fun _ =>
            .ite (fun _ => .unexpected) fun literal => ?_
        exact (accessorProperty_yields lawful (Bool.not_eq_true _ ▸ literal) holds).bind fun _ =>
          .pure And.right
      · exact shorthandProperty_yields lawful holds named

/-- What follows a key makes a lawful property. -/
theorem propertyTail_yields (expressing : rules.Expressing) {head : PropertyHead}
    {isPattern : Bool} (holds : given → head.Lawful law) :
    Yields law given (propertyTail rules head isPattern) (MemberHedged law isPattern) := by
  refine (genericHead?_yields lawful).bind fun typeParameters => ?_
  split
  · refine .step fun _ => .guard ?_
    refine (plainPropertyTail_yields lawful expressing fun known => holds known.1).bind
      fun property => .pure fun ⟨⟨_, declared⟩, known⟩ => known.mono ?_ ?_
    · exact fun ⟨covers, member⟩ => ⟨withTypeParameters_covers covers (declared _ rfl),
        fun mode => withTypeParameters_member (member mode)⟩
    · exact fun ⟨lawful, plain⟩ => ⟨withTypeParameters_lawful lawful (declared _ rfl),
        fun mode => withTypeParameters_plain (plain mode)⟩
  · exact plainPropertyTail_yields lawful expressing fun known => holds known.1

/-- A property is lawful from its key on. -/
theorem propertyRest_yields (expressing : rules.Expressing) {decorators : List Node}
    {isPattern generator : Bool} (decorated : given → AllLawful law decorators) :
    Yields law given (propertyRest rules mark decorators isPattern generator)
      (MemberHedged law isPattern) := by
  refine .step fun _ => .ite (fun _ => ?_) fun _ => (propertyKey_yields lawful).bind fun key =>
    propertyTail_yields lawful expressing fun known => ⟨decorated known.1, known.2⟩
  refine .guard (identifier_yields.lawful.bind fun word => .step fun current => ?_)
  have worded : given ∧ word.Lawful law →
      PropertyHead.Lawful law ⟨mark, decorators, word, false, false, false⟩ :=
    fun known => ⟨decorated known.1, known.2⟩
  split
  · exact propertyTail_yields lawful expressing worded
  · exact propertyTail_yields lawful expressing worded
  · exact propertyTail_yields lawful expressing worded
  · exact propertyTail_yields lawful expressing worded
  · exact propertyTail_yields lawful expressing worded
  · exact .step fun star => (propertyKey_yields lawful).bind fun key =>
      propertyTail_yields lawful expressing fun known => ⟨decorated known.1.1, known.2⟩

/-- A property is lawful. -/
theorem property_yields (expressing : rules.Expressing) {decorators : List Node}
    {isPattern : Bool} (decorated : given → AllLawful law decorators) :
    Yields law given (property rules mark decorators isPattern) (MemberHedged law isPattern) :=
  .choose (fun _ => True) (.ite (fun _ => .plain) fun _ => .plain) fun _ =>
    propertyRest_yields lawful expressing fun known => decorated known.1

/-- A spread in an object is lawful. -/
theorem spreadProperty_yields {isPattern : Bool} :
    Yields law given (spreadProperty rules mark isPattern) fun node =>
      MemberHedged law isPattern { value := node } := by
  refine .step fun _ => (assignment_yields lawful).bind fun _ => finish_made.refine ?_
  rintro node ⟨_, argument⟩ ⟨made, _⟩
  cases isPattern with
  | true =>
      have lawful : node.Lawful law := .ofPlain (made ▸ rfl) (made ▸ argument)
      exact .ofLawful lawful (fun _ => .restProperty made) nofun
  | false =>
      have lawful : node.Lawful law := .ofPlain (made ▸ rfl) (made ▸ argument)
      exact .ofLawful lawful nofun fun _ => by
        rw [Node.isDefaultedProperty, made]
        rfl

omit lawful in
instance {parts : ObjectParts} {proto : Option Nat} : Plain (parts.checkProto proto) := by
  unfold ObjectParts.checkProto
  split <;> infer_instance

/-- The properties of an object stay lawful when one is taken. -/
theorem takeProperty_yields (expressing : rules.Expressing) {isPattern : Bool}
    {parts : ObjectParts} (holds : given → MembersHedged law isPattern parts) :
    Yields law given (takeProperty rules isPattern parts) (MembersHedged law isPattern) := by
  refine (decoratorList_yields lawful).bind fun decorators => .step fun _ => .step fun _ =>
    .ite (fun _ => ?_) fun _ => ?_
  · exact (spreadProperty_yields lawful).bind fun _ => .pure fun known =>
      (holds known.1.1).mono (fun rest => .cons known.2.covers rest)
        fun rest => .cons (known.2.settled rfl) rest
  · exact (property_yields lawful expressing And.right).bind fun taken => .step fun _ => .pure
      fun known => (holds known.1.1).and known.2 (fun rest first => .cons first rest)
        fun rest first => .cons first rest

/-- The properties of an object, or of a pattern that looks like one. -/
theorem objectParts_yields (expressing : rules.Expressing) {isPattern : Bool} :
    Yields law given (loop (true, ({} : ObjectParts)) fun (first, parts) => do
      if ← eat .braceR then return .done parts
      if !first then
        expect .comma
        if ← eat .braceR then return .done parts
      return .more (false, ← takeProperty rules isPattern parts))
      (MembersHedged law isPattern) := by
  refine .loop (fun gathered => MembersHedged law isPattern gathered.2)
    (fun _ => ⟨.nil, fun _ => .nil⟩) ?_
  rintro ⟨first, parts⟩
  refine .step fun _ => .ite (fun _ => .done And.right) fun _ => ?_
  have ends : Yields law (given ∧ MembersHedged law isPattern parts) (do
      return .more (false, ← takeProperty rules isPattern parts))
      (Turned (fun gathered => MembersHedged law isPattern gathered.2)
        (MembersHedged law isPattern)) :=
    (takeProperty_yields lawful expressing And.right).bind fun _ => .more And.right
  exact .ite
    (fun _ => .step fun _ => .step fun _ => .ite (fun _ => .done And.right) fun _ => ends)
    fun _ => ends

/-- An object is lawful, or may still be a pattern. -/
theorem object_yields (expressing : rules.Expressing) :
    Yields law given (object rules false) (CoverApt law) := by
  refine .step fun _ => .step fun _ => (objectParts_yields lawful expressing).bind fun parts =>
    finish_made.bind fun node => .pure ?_
  rintro ⟨⟨_, known⟩, made, _⟩
  refine known.mono (fun all => ?_) fun all => ?_
  · exact .object made (fun property inside => (all.reverse property inside).covers) Maybe.none
  · refine .ofSimple (made ▸ rfl) (made ▸ Form.permitted_of_object fun _ property inside => ?_)
      (made ▸ ⟨fun property inside => (all.reverse property inside).lawful, Maybe.none⟩)
    exact (all.reverse property inside).plain rfl

/-- A pattern that looks like an object is lawful where nothing is pending. -/
theorem objectPattern_yields (expressing : rules.Expressing) :
    Yields law given (object rules true) fun cover =>
      cover.pending = none → LawfulPattern law cover.value := by
  refine .step fun _ => .step fun _ => (objectParts_yields lawful expressing).bind fun parts =>
    finish_made.bind fun node => .pure ?_
  rintro ⟨⟨_, known⟩, made, _⟩ none
  have all := (known.settled none).reverse
  refine ⟨.ofPlain (made ▸ rfl) (made ▸ ⟨fun property inside => (all property inside).lawful,
    Maybe.none⟩), .objectPattern made fun property inside => ?_⟩
  exact (known.covers.reverse property inside).member rfl

/-- What binds names is lawful. -/
theorem bindingRule_yields (expressing : rules.Expressing) :
    Yields law given (binding rules) (LawfulPattern law) := by
  have name : ∀ {given : Prop}, Yields law given (identifier true) (LawfulPattern law) :=
    identifier_reads.weaken fun _ known => ⟨known.1.lawful, .ofIdentifier known.2.1⟩
  refine .step fun current => ?_
  split
  · exact .step fun _ => .step fun _ => .ite (fun _ => .unexpected) fun _ => name
  · exact name
  · refine .step fun _ => .step fun _ => (bindingList_yields lawful).bind fun elements =>
      finish_made.refine ?_
    rintro node ⟨_, all, items, closing, rfl, each, closes⟩ ⟨made, _⟩
    exact ⟨.ofPlain (made ▸ rfl) (made ▸ ⟨all, Maybe.none⟩), .arrayPattern made each closes⟩
  · exact (objectPattern_yields lawful expressing).bind fun _ => settle_yields And.right
  · exact .unexpected

end Grammar

end EcmaSyntax
