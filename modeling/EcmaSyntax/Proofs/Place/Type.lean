import EcmaSyntax.Grammar.Type.Declaration
import EcmaSyntax.Grammar.Type.Expression
import EcmaSyntax.Proofs.Place.Build

namespace EcmaSyntax

namespace Grammar

variable {α : Type} {setting : Setting} {rules : Rules} {hand : Hand} {first : Nat} {mark : Mark}
  {node annot : Node} {item : Parse Node} {action : Parse α} {load : α → Load}

section Annotation

/-- Nodes are placed alike within types. -/
theorem withinType_places (places : PlacesAs setting hand action load) :
    PlacesAs setting hand (withinType action) load :=
  .step fun _ => .alter (.altered places)

/-- A node is extended to the annotation after it. -/
theorem annotate_places (after : node.stop ≤ annot.start)
    (given : hand.given.Perm [node, annot] := by simp)
    (loose : hand.loose = [] := by rfl) : Places setting hand (annotate node annot) := by
  refine .held fun known => ?_
  have sits := known.sits node (given.mem_iff.mpr List.mem_cons_self)
  have takes : node.Takes [annot] ((node.withAnnot? annot).getD node) := by
    cases placed : node.withAnnot? annot with
    | none =>
        exact ⟨rfl, rfl, rfl, (List.sublist_append_left _ _).subperm, .refl _, .refl _,
          sits.here.cast⟩
    | some param => exact (Node.withAnnot?_takes placed sits.here after).1
  refine .lastAt (.start (given.mem_iff.mpr List.mem_cons_self))
    ((PlacesAs.refinish takes).forget fun _ _ => trivial) ?_ ?_ given (loose ▸ .refl _)
    (List.nil_subset _)
  · exact known.begins node (given.mem_iff.mpr List.mem_cons_self)
  · exact List.forall_mem_cons.mpr ⟨Nat.le_refl _,
      List.forall_mem_singleton.mpr (Nat.le_trans sits.here.ordered after)⟩

theorem existentialParam?_places : Places setting { first := first } existentialParam? :=
  .step fun _ => .ite (fun _ => .onMark fun _ => .pass fun _ => .bind .finish fun _ _ => .pure)
    fun _ => .pure

/-- The bracket before the items has been passed. -/
theorem bracketed_places (items : ∀ {first}, Places setting { first := first } item) :
    PlacesAs setting { first := first } (bracketed item) fun nodes =>
      { row nodes with past := [first] } := by
  have ends (item : Node) (gathered : List Node) (row : InRow (item :: gathered).reverse) :
      PlacesAs setting { first := first, given := gathered ++ [item], past := [first] } (do
        if !(← atAngle ">") then expect .comma
        return Turn.more (item :: gathered) : Parse (Turn (List Node) (List Node)))
        (Turn.load (fun nodes => { backward nodes with past := [first] })
          fun nodes => { Grammar.row nodes with past := [first] }) :=
    .step fun _ => .guard (fun _ => .reads) (.conclude row)
  refine .pass fun _ => .loopAs (fun nodes => { backward nodes with past := [first] })
    (fun gathered row => .step fun _ => .ite (fun _ => .pass fun _ => .conclude row) fun _ => ?_)
    InRow.nil
  refine .read existentialParam?_places fun param known => ?_
  split
  · next node => exact .value (ends _ _ (row.gather (known.after node (by simp))))
  · exact .read items fun node known => .last
      (ends node gathered (row.gather fun other inside => known.after node (by simp) other
        (List.mem_append_left _ inside)))

/-- A list with commas is made in its place if its items are. -/
theorem commaSeparated_places (items : ∀ {first}, Places setting { first := first } item) :
    PlacesAs setting { first := first } (commaSeparated item) row := by
  refine .loopAs backward (fun gathered row => .read items fun node known => .step fun _ => ?_)
    InRow.nil
  have longer := row.gather (known.after node List.mem_cons_self)
  exact .ite (fun _ => .conclude longer) fun _ => .conclude longer

instance : Reads endTypeMember := inferInstanceAs (Reads (eat _ >>= _))

instance {allowed : Bool} : Reads (staticMark allowed) := inferInstanceAs (Reads (atWord _ >>= _))

/-- The word for a member of the class itself is passed only where it is one. -/
theorem staticMark_stays {allowed : Bool} {state : State} :
    Gives (staticMark allowed) setting state fun taken after =>
      taken = false → after.lexer.start = state.lexer.start := by
  refine gives_look fun _ => gives_ite (fun _ => ?_) fun _ => gives_pure.mpr fun _ => rfl
  rw [Gives.bind_iff, gives_lex]
  intro ahead lexer looked
  have start : lexer.start = state.lexer.start := by
    unfold Lexer.lookahead at looked
    split at looked <;> cases looked
    rfl
  refine gives_ite (fun _ => gives_pure.mpr fun _ => start) fun _ => ?_
  exact Gives.last fun _ _ => gives_pure.mpr nofun

instance : Reads groupsType := by
  have (current : Kind) : Reads (match current with
      | .parenR => return false
      | .ellipsis => return false
      | .name => do
        let ahead ← lex Lexer.lookahead
        return ahead.kind != .question && ahead.kind != .colon
      | _ => return true) := by
    split <;> infer_instance
  exact inferInstanceAs (Reads (kind >>= _))

end Annotation

section Circle

variable (placed : rules.Placed setting)

include placed

/-- A type after its mark is made in its place. -/
theorem typeAfter_places {introducer : Kind} :
    Places setting { first := first } (typeAfter rules introducer) :=
  withinType_places (.pass fun _ => .last placed.type)

/-- An annotation is made in its place. -/
theorem typeAnnotation_places : Places setting { first := first } ( typeAnnotation rules) :=
  .onMark fun _ => .read (typeAfter_places placed) fun _ _ => .finish

theorem typeAnnotation?_places : Places setting { first := first } ( typeAnnotation? rules) :=
  .step fun _ => .step fun _ => .ite
    (fun _ => .bind (typeAnnotation_places placed) fun _ _ => .pure) fun _ => .pure

/-- A name with its type is made in its place. -/
theorem annotatedIdentifier_places :
    Places setting { first := first } (annotatedIdentifier rules) :=
  .read identifier_places fun name _ => .step fun _ => .ite
    (fun _ => .read (typeAnnotation_places placed) fun annot later =>
      annotate_places (later.after annot (by simp) name (by simp)))
    fun _ => .pure

/-- Type parameters are made in their places. -/
theorem typeParameters_places : Places setting { first := first } (typeParameters rules) :=
  .onMark fun _ => .bind (bracketed_places (annotatedIdentifier_places placed)) fun _ made =>
    .finish made.fact

theorem typeParameters?_places : Places setting { first := first } (typeParameters? rules) :=
  .step fun _ => .ite (fun _ => .bind (typeParameters_places placed) fun _ _ => .pure)
    fun _ => .pure

/-- What may precede the parentheses of a generic function is made in its place. -/
theorem genericHead?_places : Places setting { first := first } (genericHead? rules) :=
  .step fun _ => .ite (fun _ => typeParameters?_places placed) fun _ => .pure

/-- Type arguments are made in their places. -/
theorem typeArguments_places : Places setting { first := first } (typeArguments rules) :=
  .onMark fun _ => .bind (withinType_places (bracketed_places placed.type)) fun _ made =>
    .finish made.fact

theorem typeArguments?_places : Places setting { first := first } (typeArguments? rules) :=
  .step fun _ => .ite (fun _ => .bind (typeArguments_places placed) fun _ _ => .pure)
    fun _ => .pure

/-- A parameter of a function type is made in its place. -/
theorem functionTypeParam_places : Places setting { first := first } (functionTypeParam rules) :=
  .onMark fun _ => .read identifier_places fun _ _ => .step fun _ =>
    .read (typeAfter_places placed) fun _ known => .finish (known.extend (.single _) (.single _))

/-- The parameters of a function type are made in their places. -/
theorem functionTypeParams_places :
    PlacesAs setting { first := first } (functionTypeParams rules)
      fun parts => row (parts.1 ++ parts.2.toList) := by
  have params {first : Nat} : PlacesAs setting { first := first } (loop [] fun params => do
      if ← atKind .name then
        let param ← functionTypeParam rules
        if !(← atKind .parenR) then expect .comma
        return .more (param :: params)
      else return .done params.reverse) row :=
    .loopAs backward (fun gathered row => .step fun _ => .ite
      (fun _ => .read (functionTypeParam_places placed) fun node known => .step fun _ =>
        .guard (fun _ => .reads) (.conclude (row.gather (known.after node List.mem_cons_self))))
      fun _ => .conclude row) InRow.nil
  refine .bind params fun params made => .step fun _ => .ite (fun _ => ?_) fun _ => ?_
  · exact .read (functionTypeParam_places placed) fun _ known =>
      .conclude (known.extend made.fact (.single _))
  · exact .conclude (by simpa using made.fact)

/-- The type of a method is made in its place. -/
theorem signature_places : Places setting { first := mark.pos } (signature rules mark) :=
  .read (typeParameters?_places placed) fun _ _ => .pass fun _ =>
    .read (functionTypeParams_places placed) fun _ params => .pass fun _ =>
      .read (typeAfter_places placed) fun _ known => .finish
        (Form.ordered_functionType (known.extend (params.extend (.option _) params.fact) (.single _)))

/-- A function type is made in its place from its parentheses on. -/
theorem functionTypeTail_places {typeParameters : Option Node} :
    Places setting { first := mark.pos, given := typeParameters.toList }
      (functionTypeTail rules mark typeParameters) :=
  .read (functionTypeParams_places placed) fun _ params => .pass fun _ => .pass fun _ =>
    .read placed.type fun _ known => .finish
      (Form.ordered_functionType (known.extend (params.extend (.option _) params.fact) (.single _)))

/-- An indexer of an object type is made in its place. -/
theorem typeIndexer_places {isStatic : Bool} :
    Places setting { first := mark.pos } (typeIndexer rules mark isStatic) :=
  .pass fun _ => .read propertyLabel_leaf.ofLeaf fun _ _ => .read (typeAfter_places placed)
    fun _ key => .pass fun _ => .read (typeAfter_places placed) fun _ value => .step fun _ =>
      .finish (value.extend (key.extend (.single _) (.single _)) (.single _))

/-- A call of an object type is made in its place. -/
theorem typeCallProperty_places {isStatic : Bool} :
    Places setting { first := mark.pos } (typeCallProperty rules mark isStatic) :=
  .markLater fun _ _ _ => .readAt .latest (signature_places placed) fun _ _ => .step fun _ => .finish

/-- The value of a property in the type of an object, or its signature. -/
def typePropertyTail (rules : Rules) (mark : Mark) (isStatic : Bool) (key : Node) : Parse Node := do
  if (← atAngle "<") || (← atKind .parenL) then
    let value ← signature rules mark
    endTypeMember
    finish mark (.objectTypeProperty key value false isStatic)
  else
    let isOptional ← eat .question
    let value ← typeAfter rules .colon
    endTypeMember
    finish mark (.objectTypeProperty key value isOptional isStatic)

/-- A signature begins with the mark of its property. -/
theorem typePropertyTail_places {isStatic : Bool} {key : Node}
    (begins : isStatic = false → key.start = mark.pos) :
    Places setting { first := mark.pos, given := [key] } (typePropertyTail rules mark isStatic key) :=
  .held fun held => .step fun _ => .step fun _ => .ite
    (fun _ => .readAt .first (signature_places placed) fun value made => .step fun _ =>
      .finish fun own => Nat.le_trans (Nat.le_of_eq (begins own))
        (made.begins value List.mem_cons_self))
    fun _ => .step fun _ => .read (typeAfter_places placed) fun value known => .step fun _ =>
      .finish fun _ => Nat.le_trans (held.sits key List.mem_cons_self).here.ordered
        (known.after value List.mem_cons_self key List.mem_cons_self)

/-- A static member of an object type is made in its place. -/
theorem staticProperty_places :
    Places setting { first := mark.pos } (typeProperty rules mark true) :=
  .read propertyLabel_leaf.ofLeaf fun _ _ => typePropertyTail_places placed nofun

/-- A member of an object type that is not static is made in its place. -/
theorem ownProperty_places :
    PlacesHere setting { first := mark.pos } (typeProperty rules mark false)
      (Bears.load setting.source) :=
  .lend [] [] (.knowing (fun start key => key.start = start) propertyLabel_leaf.ofLeaf
    (propertyLabel_starts setting)) fun _ known => typePropertyTail_places placed fun _ => known.fact.2

/-- The members of the type of an object, kind by kind in the order of the text. -/
def TypeMembers.groups (members : TypeMembers) : List (List Node) :=
  [members.properties.reverse, members.indexers.reverse, members.callProperties.reverse]

/-- The members of the type of an object are gathered in three lists from one row. -/
instance : Bears TypeMembers where
  load _ members := {
    given := members.properties ++ (members.indexers ++ members.callProperties)
    fact := Gathered members.groups }

omit placed in
/-- The members of an object type are borne in three rows. -/
@[simp] theorem load_members {source : Source} {members : TypeMembers} :
    Bears.load source members = {
      given := members.properties ++ (members.indexers ++ members.callProperties)
      fact := Gathered members.groups } := rfl

/-- The members that have been read are held, and a node may be made that starts at a mark. -/
@[simps] def TypeMembers.held {first : Nat} (members : TypeMembers) (later : first ≤ mark.pos) :
    Hand where
  first := first
  latest := mark.pos
  given := members.properties ++ (members.indexers ++ members.callProperties)
  ordered := later

/-- An object type is made in its place. -/
theorem objectType_places {allowStatic : Bool} :
    Places setting { first := first } (objectType rules allowStatic) := by
  have none : Gathered ({} : TypeMembers).groups := ⟨[], .nil, .refl _, by simp [TypeMembers.groups]⟩
  refine .onMark fun start => .pass fun _ => .bind (.loop (fun members gathered => .step fun _ =>
    .ite (fun _ => .conclude gathered) fun _ => .markHere fun mark later ends => ?_) none)
    fun members made => .finish made.fact
  -- whatever its kind is, a member starts after all members before it
  have after (node : Node) (begins : ∀ other ∈ [node], mark.pos ≤ other.start) :
      ∀ other ∈ members.groups.flatten, other.stop ≤ node.start := fun other inside =>
    Nat.le_trans (ends other (by simpa [TypeMembers.groups] using inside)) (begins node (by simp))
  have indexer (isStatic : Bool) : Places setting (members.held later) (do
      let indexer ← typeIndexer rules mark isStatic
      return Turn.more { members with indexers := indexer :: members.indexers } :
        Parse (Turn TypeMembers TypeMembers)) := by
    refine .readAt .latest (typeIndexer_places placed) fun node made => .conclude ?_
    have longer := gathered.concat [members.properties.reverse] [members.callProperties.reverse]
      (after node made.begins)
    simpa [TypeMembers.groups] using longer
  have call (isStatic : Bool) : Places setting (members.held later) (do
      let property ← typeCallProperty rules mark isStatic
      return Turn.more { members with callProperties := property :: members.callProperties } :
        Parse (Turn TypeMembers TypeMembers)) := by
    refine .readAt .latest (typeCallProperty_places placed) fun node made => .conclude ?_
    have longer := gathered.concat [members.properties.reverse, members.indexers.reverse] []
      (after node made.begins)
    simpa [TypeMembers.groups] using longer
  have taken (node : Node) (begins : ∀ other ∈ [node], mark.pos ≤ other.start) :
      Gathered (TypeMembers.groups { members with properties := node :: members.properties }) := by
    have longer := gathered.concat [] [members.indexers.reverse, members.callProperties.reverse]
      (after node begins)
    simpa [TypeMembers.groups] using longer
  refine .test (fun _ => staticMark_stays) ?_ ?_
  · exact .step fun _ => .ite (fun _ => indexer true) fun _ => .step fun _ => .step fun _ =>
      .ite (fun _ => call true) fun _ => .readAt .latest (staticProperty_places placed)
        fun node made => .conclude (taken node made.begins)
  · exact .look fun _ => .ite (fun _ => .always (indexer false)) fun _ => .look fun _ =>
      .look fun _ => .ite (fun _ => .always (call false)) fun _ =>
        .lend (members.held later).given [] (ownProperty_places placed) fun node made =>
          .conclude (taken node made.begins)

/-- A reference to a type is made in its place, with its arguments. -/
theorem typeReference_places {form : Node → Option Node → Form}
    (parts : ∀ id typeParameters, (form id typeParameters).parts = id :: typeParameters.toList)
    (ordered : ∀ id typeParameters, InRow (id :: typeParameters.toList) →
      (form id typeParameters).Ordered)
    (plain : ∀ id typeParameters, (form id typeParameters).tags? = none := by
      exact fun _ _ => rfl) :
    Places setting { first := first } (typeReference rules form) :=
  .onMark fun _ => .read identifier_places fun _ _ => .read (typeArguments?_places placed)
    fun _ known => .finish (ordered _ _ (known.extend (.single _) (.option _))) rfl
      (by simp [parts]) (by simp) (by simp) (by simp [plain])

/-- What an interface consists of is its form. -/
theorem interfaceParts_places {allowStatic : Bool}
    (form : Node → Option Node → List Node → Node → Form)
    (parts : ∀ id typeParameters supers body, (form id typeParameters supers body).parts =
      id :: (typeParameters.toList ++ (supers ++ [body])))
    (ordered : ∀ id typeParameters supers body,
      InRow (id :: (typeParameters.toList ++ (supers ++ [body]))) →
        (form id typeParameters supers body).Ordered)
    (plain : ∀ id typeParameters supers body,
      (form id typeParameters supers body).tags? = none) :
    PlacesAs setting { first := first } (interfaceParts rules allowStatic form) fun form =>
      { given := form.parts, fact := form.parts ≠ [] ∧ form.Ordered ∧ form.tags? = none } := by
  have rest (id : Node) (typeParameters : Option Node) (supers : List Node)
      (row : InRow (id :: (typeParameters.toList ++ supers))) : PlacesAs setting
        { first := first, given := id :: (typeParameters.toList ++ supers) } (do
        let body ← objectType rules allowStatic
        return form id typeParameters supers body) fun form =>
          { given := form.parts, fact := form.parts ≠ [] ∧ form.Ordered ∧ form.tags? = none } :=
    .read (objectType_places placed) fun body known => .pure (by simp [parts]) (by simp) (by simp)
      ⟨by simp [parts], ordered _ _ _ _ (by simpa using known.extend row (.single body)), plain ..⟩
  refine .read identifier_places fun id _ => .read (typeParameters?_places placed)
    fun params known => .step fun _ => ?_
  have begins : InRow (id :: params.toList) := known.extend (.single id) (.option params)
  refine .ite (fun _ => ?_) fun _ => .value (.last (rest id params [] (by simpa using begins)))
  exact .read (commaSeparated_places (typeReference_places placed (by simp [Form.parts, Form.fields])
    fun _ _ row => row)) fun supers known =>
      .last (rest id params supers (known.extend begins known.fact))

/-- What is declared like an interface is finished with its parts. -/
theorem interfaceForm_places {allowStatic : Bool}
    (form : Node → Option Node → List Node → Node → Form)
    (parts : ∀ id typeParameters supers body, (form id typeParameters supers body).parts =
      id :: (typeParameters.toList ++ (supers ++ [body])))
    (ordered : ∀ id typeParameters supers body,
      InRow (id :: (typeParameters.toList ++ (supers ++ [body]))) →
        (form id typeParameters supers body).Ordered)
    (plain : ∀ id typeParameters supers body,
      (form id typeParameters supers body).tags? = none := by exact fun _ _ _ _ => rfl) :
    Places setting { first := mark.pos } (do
      let form ← interfaceParts rules allowStatic form
      finish mark form) :=
  .bind (interfaceParts_places placed form parts ordered plain) fun _ made =>
    .finish made.fact.2.1 rfl (by simp) (.inl made.fact.1) List.nil_subperm
      (by simp [made.fact.2.2])

/-- An interface is made in its place from its name on. -/
theorem interfaceTail_places : Places setting { first := mark.pos } (interfaceTail rules mark) :=
  interfaceForm_places placed .interfaceDeclaration (by simp [Form.parts, Form.fields])
    fun _ _ _ _ row => by simpa [Form.Ordered, Form.children] using row

/-- A name for a type is made in its place. -/
theorem typeAliasTail_places : Places setting { first := mark.pos } (typeAliasTail rules mark) :=
  .read identifier_places fun _ _ => .read (typeParameters?_places placed) fun _ params =>
    .read (typeAfter_places placed) fun _ right => .step fun _ =>
      .finish (right.extend (params.extend (.single _) (.option _)) (.single _))

/-- A declared function is made in its place. -/
theorem declaredFunction_places :
    Places setting { first := mark.pos } (declaredFunction rules mark) := by
  have annotated (typeMark : Mark) (functionType : Node) :
      Places setting { first := typeMark.pos, given := [functionType] }
        (finish typeMark (.typeAnnot functionType)) := .finish
  refine .pass fun _ => .read identifier_places fun id _ => .markLater fun typeMark _ after =>
    .readAt .latest (signature_places placed) fun functionType signed =>
      .callAt [id] .latest (annotated typeMark functionType) (fun annot made => ?_) signed.begins
  refine .bind (annotate_places (Nat.le_trans (after id ?_) (made.begins annot ?_)))
    fun _ _ => .step fun _ => .finish
  all_goals simp

/-- A declared module is made in its place. -/
theorem declaredModule_places : Places setting { first := mark.pos } (declaredModule rules mark) := by
  have body (id : Node) : Places setting { first := mark.pos, given := [id] } (do
      let bodyMark ← Grammar.mark
      expect .braceL
      let body ← loop [] fun body => do
        if ← eat .braceR then return .done body.reverse
        let declareMark ← Grammar.mark
        expectWord "declare"
        return .more ((← rules (.declared declareMark)) :: body)
      let body ← finish bodyMark (.blockStatement [] body)
      finish mark (.declareModule id body)) := by
    have block (bodyMark : Mark) (nodes : List Node) (ordered : InRow nodes) :
        Places setting { first := bodyMark.pos, given := nodes, past := [bodyMark.pos] }
          (finish bodyMark (.blockStatement [] nodes)) := .finish ordered
    have items {first : Nat} : PlacesAs setting { first := first } (loop [] fun body => do
        if ← eat .braceR then return .done body.reverse
        let declareMark ← Grammar.mark
        expectWord "declare"
        return .more ((← rules (.declared declareMark)) :: body)) row := by
      refine .loopAs backward (fun body gathered => .step fun _ => .ite (fun _ => .conclude gathered)
        fun _ => .markLater fun declareMark _ ends => .pass fun _ => .readAt .latest
          (placed.declared declareMark) fun node made => .conclude ?_) InRow.nil
      exact gathered.gather fun other inside =>
        Nat.le_trans (ends other inside) (made.begins node List.mem_cons_self)
    exact .markLater fun bodyMark _ before => .pass fun _ => .read items fun nodes made =>
      .callAt [id] .latest (block bodyMark nodes made.fact) (fun _ body => .finish
        (InRow.append (.single id) (.single _) before body.begins)) made.ahead
  exact .pass fun _ => .step fun _ => .choose (fun _ => stringLiteral_leaf.ofLeaf)
    (fun _ => identifier_places) fun id _ => .last (body id)

/-- A declaration of what is defined elsewhere is made in its place. -/
theorem declared_places : Places setting { first := mark.pos } (declared rules mark) := by
  refine .step fun kind => ?_
  split
  · exact .pass fun _ => .last (interfaceForm_places placed .declareClass
      (by simp [Form.parts, Form.fields])
      fun _ _ _ _ row => by simpa [Form.Ordered, Form.children] using row)
  · exact declaredFunction_places placed
  · exact .pass fun _ => .read (annotatedIdentifier_places placed) fun _ _ => .step fun _ => .finish
  · exact .step fun _ => .ite (fun _ => declaredModule_places placed) fun _ => .unexpected

/-- A type with its arguments is made in its place. -/
theorem genericType_places {id : Node} :
    Places setting { first := mark.pos, given := [id] } (genericType rules mark id) := by
  refine .bind (.loop fun id _ => .step fun _ => .ite
    (fun _ => .read identifier_places fun _ known => .bind
      (.finish (known.extend (.single _) (.single _))) fun _ _ => .pure) fun _ => .pure)
    fun id _ => .read (typeArguments?_places placed) fun _ known =>
      .finish (known.extend (.single _) (.option _))

omit placed in
theorem namedType?_leaf {name : String} {form : Form} (named : namedType? name = some form) :
    form.parts = [] := by
  unfold namedType? at named
  split at named <;> cases named <;> rfl

/-- A type that is a name is made in its place. -/
theorem typeOfName_places : Places setting { first := mark.pos } (typeOfName rules mark) := by
  refine .read identifier_leaf fun id known => ?_
  split
  · next form named =>
      obtain ⟨name, -, named⟩ := Option.bind_eq_some_iff.mp named
      exact .begun List.mem_cons_self <| .drop [] [id]
        (PlacesAs.finishLeaf rfl (namedType?_leaf named) rfl rfl (by simp)).ofLeaf
  · exact .last (genericType_places placed)

/-- A tuple type is made in its place. -/
theorem tupleType_places : Places setting { first := first } (tupleType rules) := by
  have items {first : Nat} : PlacesAs setting { first := first } (loop [] fun types => do
      if (← atKind .eof) || (← atKind .bracketR) then return .done types.reverse
      let item ← rules.type
      if ← atKind .bracketR then return .done (item :: types).reverse
      expect .comma
      return .more (item :: types)) row := by
    refine .loopAs backward (fun types gathered => .step fun _ => .step fun _ => .ite
      (fun _ => .conclude gathered) fun _ => .read placed.type fun item known => ?_) InRow.nil
    have longer := gathered.gather (known.after item List.mem_cons_self)
    exact .step fun _ => .ite (fun _ => .conclude longer) fun _ => .step fun _ => .conclude longer
  exact .onMark fun _ => .pass fun _ => .read items fun _ known => .step fun _ =>
    .finish known.fact

/-- A type in parentheses is made in its place, whether they group it or hold parameters. -/
theorem groupedType_places : Places setting { first := mark.pos } (groupedType rules mark) :=
  .pass fun _ => .step fun _ => .ite
    (fun _ => .read placed.type fun _ _ => .step fun _ => .step fun _ => .held fun known =>
      .guard (fun _ => .raise known.first) .pure)
    fun _ => .last (functionTypeTail_places placed)

omit placed in
/-- A type of one token is made in its place. -/
theorem simpleType_places {form : Form} (leaf : form.parts = []) :
    Places setting { first := mark.pos } (simpleType mark form) :=
  .pass fun _ => (PlacesAs.finishLeaf rfl leaf rfl rfl (by simp)).ofLeaf

/-- A type without operators is made in its place. -/
theorem primaryType_places : Places setting { first := first } (primaryType rules) := by
  refine .onMark fun mark => .step fun kind => ?_
  split
  · exact typeOfName_places placed
  · exact objectType_places placed
  · exact tupleType_places placed
  · exact .step fun _ => .ite (fun _ => .read (typeParameters_places placed) fun params _ =>
      .step fun _ => .last (functionTypeTail_places placed)) fun _ => .unexpected
  · exact groupedType_places placed
  · exact .step fun _ => literal_places rfl
  · exact .step fun _ => literal_places rfl
  · exact simpleType_places rfl
  · exact simpleType_places rfl
  · exact simpleType_places rfl
  · exact simpleType_places rfl
  · exact .pass fun _ => .read placed.primaryType fun _ _ => .finish
  · exact .unexpected

/-- A type with brackets after it is made in its place. -/
theorem arrayType_places : Places setting { first := first } (arrayType rules) :=
  .onMark fun _ => .read placed.primaryType fun _ _ => .loop fun _ _ => .step fun _ =>
    .step fun _ => .ite (fun _ => .step fun _ => .step fun _ => .bind .finish fun _ _ => .pure)
      fun _ => .pure

/-- A type with a mark before it is made in its place. -/
theorem prefixType_places : Places setting { first := first } (prefixType rules) :=
  .onMark fun _ => .step fun _ => .ite
    (fun _ => .read placed.prefixType fun _ _ => .finish) fun _ => arrayType_places placed

omit placed in
/-- Types that an operator joins are made in their places. -/
theorem joinedTypes_places {operator : Kind} {join : List Node → Form}
    (items : ∀ {first}, Places setting { first := first } item)
    (parts : ∀ types, (join types).parts = types)
    (ordered : ∀ types, InRow types → (join types).Ordered)
    (plain : ∀ types, (join types).tags? = none := by exact fun _ => rfl) :
    Places setting { first := first } (joinedTypes operator join item) := by
  have joined {first : Nat} (node : Node) :
      PlacesAs setting { first := first, given := [node], past := [first] } (loop [node] fun types => do
        if ← eat operator then return .more ((← item) :: types)
        else return .done types.reverse) row :=
    .loopAs backward (fun types gathered => .step fun _ => .ite
      (fun _ => .read items fun item known =>
        .conclude (gathered.gather (known.after item List.mem_cons_self)))
      fun _ => .conclude gathered) (.single node)
  refine .onMark fun mark => .read items fun node _ => .step fun _ => .ite
    (fun _ => .begun List.mem_cons_self <| .bind (joined node) fun types made => ?_) fun _ => .pure
  exact .finish (ordered types made.fact) rfl (by simp [parts]) (by simp) List.nil_subperm
    (by simp [plain])

/-- Every type is made in its place. -/
theorem typeExpression_places : Places setting { first := first } (typeExpression rules) :=
  .nested <| withinType_places <| joinedTypes_places
    (joinedTypes_places placed.prefixType (by simp [Form.parts, Form.fields]) fun _ row => row)
    (by simp [Form.parts, Form.fields]) fun _ row => row

end Circle

end Grammar

end EcmaSyntax
