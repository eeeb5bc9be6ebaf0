import EcmaSyntax.Proofs.Depth.Build

namespace EcmaSyntax

namespace Grammar

set_option synthInstance.maxSize 1024

variable {setting : Setting} {rest : Nat} {here : Option Kind} {mark : Mark} {form : Form}
  {node : Node} {rules : Rules}

section Pattern

instance [Sated setting (rest - 1) rules] :
    Suffices setting rest here never (withDefault rules mark node) :=
  inferInstanceAs (Suffices _ _ _ _ (eat _ >>= _))

instance [Sated setting (rest - 1) rules] [Suffices setting rest none always (rules .binding)] :
    Suffices setting rest here always (bindingElement rules) :=
  inferInstanceAs (Suffices _ _ _ _ (Grammar.mark >>= _))

instance [Sated setting (rest - 1) rules] :
    Suffices setting rest here never (withParameterType rules node) := by
  refine .stay inferInstance fun types => .ite (fun _ => ?_) fun _ => inferInstance
  refine .after fun isOptional => .ite (fun _ => ?_) fun _ => inferInstance
  split <;> infer_instance

instance : Suffices setting rest (some .ellipsis) always restElement :=
  inferInstanceAs (Suffices _ _ _ _ (Grammar.mark >>= _))

instance [Sated setting rest rules] {close : Kind} {allowHoles : Bool} :
    Suffices setting rest here never (bindingList rules close allowHoles) := by
  refine .loopFirst (fun elements => ?_) (fun elements => ?_) ?_
  · exact .after fun closed => .ite (fun _ => inferInstance) fun _ =>
      .guard inferInstance fun _ => inferInstance
  · refine .after fun closed => .ite (fun _ => inferInstance) fun _ => .ite (fun _ => ?_) ?_
    · infer_instance
    · exact fun absent => absurd rfl absent
  · rintro ⟨first, elements⟩
    refine .last fun _ => .ite (.give trivial) (.guard (.last fun _ => .ite (.give rfl) ?_))
    refine .last fun _ => .ite (.give trivial) (.last fun _ => .ite ?_ ?_)
    · exact .last fun _ => .last fun _ => .last fun _ => .give trivial
    · exact .last fun _ => .last fun _ => .last fun _ => .give rfl

instance [Sated setting (rest - 1) rules] :
    Suffices setting rest here always (parameters rules) :=
  inferInstanceAs (Suffices _ _ _ _ (expect _ >>= _))

end Pattern

section Block

instance {statement literal : Node} :
    Suffices setting rest here never (toDirective statement literal) :=
  inferInstanceAs (Suffices _ _ _ _ (lex _ >>= _))

instance {parts : BlockParts} {statement literal : Node} :
    Suffices setting rest here never (takeDirective parts statement literal) := by
  refine .after fun directive => .ite (fun _ => ?_) fun _ => inferInstance
  refine .stay inferInstance fun strict => .after fun _ => ?_
  split <;> infer_instance

instance [Sated setting rest rules] {allowDirectives topLevel : Bool} {parts : BlockParts} :
    Suffices setting rest none always (takeStatement rules allowDirectives topLevel parts) := by
  refine .stay inferInstance fun before => .step fun statement => ?_
  split <;> infer_instance

instance [Sated setting rest rules] {allowDirectives topLevel : Bool} {close : Kind} :
    Suffices setting rest here never (blockParts rules allowDirectives topLevel close) :=
  inferInstanceAs (Suffices _ _ _ _ (loop _ _ >>= _))

instance [Sated setting (rest - 1) rules] {allowDirectives : Bool} :
    Suffices setting rest here always (block rules allowDirectives) :=
  inferInstanceAs (Suffices _ _ _ _ (Grammar.mark >>= _))

end Block

section Function

instance [Sated setting (rest - 1) rules] {inFunction inGenerator allowDirectives : Bool} :
    Suffices setting rest here always (enclosed rules inFunction inGenerator allowDirectives) :=
  inferInstanceAs (Suffices _ _ _ _ (get >>= _))

instance {head : FunctionHead} {strict : Bool} :
    Suffices setting rest here never (checkHead head strict) := by
  refine .stay inferInstance fun types => ?_
  split <;> infer_instance

instance [Sated setting rest rules] {head : FunctionHead} {isArrow : Bool} :
    Suffices setting rest here never (functionRest rules head isArrow) := by
  have rest {isExpression : Bool} {body : Node} : Suffices setting rest none never (do
      let useStrict := !isExpression && declaresStrict body
      if useStrict then
        match head.id with
        | some id => if id.isNamed "yield" then raise id.start .bindingYieldInStrict
        | none => pure ()
      let strict := (← isStrict) || useStrict
      if strict || isArrow then checkHead head strict
      return {
        id := head.id
        typeParameters := head.typeParameters
        params := head.params
        returnType := head.returnType
        body
        generator := head.generator
        isAsync := head.isAsync
        isExpression } : Parse FunctionForm) := by
    refine .ite (fun _ => ?_) fun _ => ?_
    · split <;> infer_instance
    · infer_instance
  unfold functionRest
  infer_instance

instance [Sated setting rest rules] {head : FunctionHead} {isArrow : Bool} :
    Suffices setting rest here never (functionBody rules head isArrow) := by
  refine .ite (fun _ => inferInstance) fun _ => .after fun annot => ?_
  split <;> infer_instance

instance [Sated setting (rest - 1) rules] {head : FunctionHead} {kind : MethodKind} :
    Suffices setting rest here always (method rules head kind) :=
  inferInstanceAs (Suffices _ _ _ _ (get >>= _))

instance [Sated setting (rest - 1) rules] {isAsync isStatement optionalId : Bool} :
    Suffices setting rest here always (functionTail rules mark isAsync isStatement optionalId) :=
  inferInstanceAs (Suffices _ _ _ _ (get >>= _))

instance [Sated setting rest rules] {expressions : List Node} {isAsync : Bool}
    {returnType : Option Node} :
    Suffices setting rest none never (arrowTail rules mark expressions isAsync returnType) :=
  inferInstanceAs (Suffices _ _ _ _ (toParameters _ >>= _))

end Function

section Sequence

instance [Sated setting (rest - 1) rules] {noIn : Bool}
    [∀ noIn, Suffices setting rest none always (rules (.assignment noIn false))] :
    Suffices setting rest none always (coverExpression rules noIn) := by
  refine .stay inferInstance fun mark => .step fun first => ?_
  refine .ifAt (.after fun gathered => ?_) inferInstance
  infer_instance

instance [Sated setting (rest - 1) rules] {noIn : Bool}
    [∀ noIn, Suffices setting rest none always (rules (.assignment noIn false))] :
    Suffices setting rest none always (expression rules noIn) :=
  inferInstanceAs (Suffices _ _ _ _ (Grammar.mark >>= _))

variable [Sated setting (rest - 1) rules]

instance : Suffices setting rest here always (parenExpression rules) :=
  inferInstanceAs (Suffices _ _ _ _ (expect _ >>= _))

instance : Suffices setting rest (some .ellipsis) always (spread rules) :=
  inferInstanceAs (Suffices _ _ _ _ (Grammar.mark >>= _))

end Sequence

section List

instance [Sated setting rest rules] {allowHole : Bool} :
    Suffices setting rest none never (plainListItem rules allowHole) :=
  inferInstanceAs (Suffices _ _ _ _ (atKind _ >>= _))

instance [Sated setting rest rules] :
    Suffices setting rest none always (plainListItem rules false) :=
  .stay inferInstance fun _ => .ite (fun absent => by cases absent) fun _ => inferInstance

instance [Sated setting rest rules] {allowHole : Bool} :
    Suffices setting rest none never (listItem rules allowHole) := by
  refine .stay inferInstance fun mark => .after fun item => ?_
  refine .stay inferInstance fun types => .stay inferInstance fun colon => ?_
  refine .ite (fun _ => ?_) fun _ => inferInstance
  split <;> infer_instance

instance [Sated setting rest rules] :
    Suffices setting rest none always (listItem rules false) := by
  refine .stay inferInstance fun mark => .step fun item => ?_
  refine .stay inferInstance fun types => .stay inferInstance fun colon => ?_
  refine .ite (fun _ => ?_) fun _ => inferInstance
  split <;> infer_instance

instance [Sated setting rest rules] {close : Kind} {allowHoles : Bool} :
    Suffices setting rest none never (listItems rules close allowHoles) := by
  -- A hole passes nothing, so that the first turn need not move on; every other passes a comma.
  refine .via (.loopFirst ?_ ?_ ?_) ?_
  · rintro ⟨items, pending⟩
    exact .after fun closed => .ite (fun _ => inferInstance) fun _ =>
      .ite (fun absent => by cases absent) fun _ => inferInstance
  · rintro ⟨items, pending⟩
    exact .after fun closed => .ite (fun _ => inferInstance) fun _ =>
      .ite (fun _ => inferInstance) fun absent => absurd rfl absent
  · rintro ⟨first, items, pending⟩
    refine .last fun _ => .ite (.give trivial) (.ite ?_ ?_)
    · exact .last fun _ => .last fun _ => .ite (.give trivial) (.last fun _ => .give rfl)
    · exact .last fun _ => .give rfl
  · rintro ⟨found, pending⟩
    infer_instance

instance [Sated setting rest rules] :
    Suffices setting rest none never (plainArguments rules) :=
  inferInstanceAs (Suffices _ _ _ _ (listItems _ _ _ >>= _))

instance : Suffices setting rest none never templateChunk :=
  inferInstanceAs (Suffices _ _ _ _ (Grammar.mark >>= _))

variable [Sated setting (rest - 1) rules]

instance : Suffices setting rest (some .bracketL) always (arrayLiteral rules) :=
  inferInstanceAs (Suffices _ _ _ _ (Grammar.mark >>= _))

instance : Suffices setting rest (some .backQuote) always (template rules) := by
  refine .stay inferInstance fun mark => .step fun _ => .after fun first => ?_
  refine .via (.turns ?_) ?_
  · rintro ⟨quasis, expressions, last⟩
    refine .ite (fun _ => inferInstance) fun _ => .step fun _ => .after fun inner => ?_
    refine .after fun _ => .after ?_
    rintro ⟨chunk, last⟩
    infer_instance
  · rintro ⟨quasis, expressions⟩
    infer_instance

end List

section Access

instance : Suffices setting rest here never asyncArrowFollows :=
  inferInstanceAs (Suffices _ _ _ _ (hasTypes >>= _))

instance [Sated setting rest rules] {maybeArrow : Bool} :
    Suffices setting rest none never (callArguments rules maybeArrow) := by
  refine .via (.turns ?_) ?_
  · rintro ⟨first, items, inner⟩
    infer_instance
  · rintro ⟨items, inner⟩
    infer_instance

variable [Sated setting (rest - 1) rules]

instance {base : Node} :
    Suffices setting rest (some .parenL) always (callTail rules mark base) := by
  unfold callTail
  infer_instance

instance {base : Node} :
    Suffices setting rest here Option.isSome (memberTail? rules mark base) := by
  refine .onKind fun current => ?_
  split <;> infer_instance

instance [Suffices setting rest none always (rules .atom)] :
    Suffices setting rest none always (memberChain rules) := by
  refine .stay inferInstance fun mark => .step fun base => .turns fun base => ?_
  exact .onSome (fun node => inferInstance) inferInstance

instance {base : Node} : Suffices setting rest none Turn.isMore (accessTurn rules mark base) := by
  refine .onKind fun current => ?_
  split
  · infer_instance
  · refine .step ?_
    rintro ⟨node, isArrow⟩
    infer_instance
  · exact .onSome (fun node => inferInstance) inferInstance

instance {base : Node} : Suffices setting rest none never (access rules mark base) :=
  inferInstanceAs (Suffices _ _ _ _ (loop _ _))

instance [Suffices setting rest none always (rules .atom)] :
    Suffices setting rest none always (accessChain rules) :=
  inferInstanceAs (Suffices _ _ _ _ (Grammar.mark >>= _))

end Access

section Operator

instance {left : Node} : Stays (checkExponentBase left) := by
  unfold checkExponentBase
  split <;> infer_instance

instance {left : Node} : Suffices setting rest here never (checkExponentBase left) := by
  unfold checkExponentBase
  split <;> infer_instance

section

variable [Sated setting (rest - 1) rules]

instance {current kind : Kind} [Is current.isFilled] {left : Node} {operator : String} {level : Nat}
    {noIn : Bool} : Suffices setting rest (some current) always
      (operation rules left mark kind operator level noIn) := by
  unfold operation
  exact .guardStay inferInstance fun _ => inferInstance

instance {left : Node} {level : Nat} {noIn : Bool} :
    Suffices setting rest here never (operators rules left mark level noIn) := by
  refine .turns fun left => .onKind fun current => ?_
  split
  · infer_instance
  · next precedence known =>
    have : Is current.isFilled :=
      ⟨Kind.isFilled_of (fun kind => kind.precedence?.isSome) (by rw [known]; rfl)⟩
    infer_instance

instance {current : Kind} [Is current.isFilled] :
    Suffices setting rest (some current) always (prefixed rules) :=
  inferInstanceAs (Suffices _ _ _ _ (Grammar.mark >>= _))

instance : Suffices setting rest here never (stepsAfter mark node) := by
  refine .turns fun operand => .onKind fun current => .stay inferInstance fun ends => ?_
  refine .ite (fun known => ?_) fun _ => inferInstance
  have : Is current.isFilled := ⟨Kind.isFilled_of Kind.isPostfixOp
    (Bool.and_eq_true_iff.mp known).1⟩
  infer_instance

instance [Suffices setting rest none always (rules .atom)] :
    Suffices setting rest none always (unary rules) := by
  refine .onKind fun current => .ite (fun known => ?_) fun _ => .stay inferInstance fun mark => ?_
  · have : Is current.isFilled := ⟨Kind.isFilled_of Kind.isPrefixOp known⟩
    infer_instance
  · exact .anywhere (.step fun operand => inferInstance)

instance {noIn : Bool} [Suffices setting rest none always (rules .unary)] :
    Suffices setting rest none always (binary rules noIn) :=
  inferInstanceAs (Suffices _ _ _ _ (Grammar.mark >>= _))

instance {noIn : Bool} [Suffices setting rest none always (rules .unary)] :
    Suffices setting rest none always (conditional rules noIn) :=
  inferInstanceAs (Suffices _ _ _ _ (Grammar.mark >>= _))

instance : Suffices setting rest (some .kwYield) always (yieldExpression rules) :=
  inferInstanceAs (Suffices _ _ _ _ (Grammar.mark >>= _))

instance : Suffices setting rest none never (parenItem rules node mark) := by
  refine .after fun annot => ?_
  split <;> infer_instance

instance : Suffices setting rest here never (checkGroupedTarget node) := by
  refine .ite (fun _ => ?_) fun _ => inferInstance
  split <;> infer_instance

end

instance {noIn : Bool} [Sated setting rest rules] :
    Suffices setting rest none never (assignmentTail rules mark node noIn) :=
  inferInstanceAs (Suffices _ _ _ _ (valueText >>= _))

instance {noIn inParens : Bool} [Sated setting (rest - 1) rules]
    [Suffices setting rest none always (rules .unary)] :
    Suffices setting rest none always (assignment rules noIn inParens) := by
  have tail : Suffices setting rest none always (do
      let mark ← Grammar.mark
      if (← atKind .parenL) || (← atKind .name) then
        modify fun state => { state with arrowAt := some mark.pos }
      let left ← conditional rules noIn
      let node ← if inParens then parenItem rules left.value mark else pure left.value
      if (← kind).isAssign then return { value := ← assignmentTail rules mark node noIn }
      else return { left with value := node } : Parse (Cover Node)) := by
    refine .stay inferInstance fun mark => .stay inferInstance fun paren =>
      .stay inferInstance fun name => .guard inferInstance fun _ => ?_
    infer_instance
  refine .nested (.test (.stay inferInstance fun state => .ite (fun _ => ?_) fun _ => ?_)
    (.stay inferInstance fun state => .ite (fun absent => by cases absent) fun _ => tail))
  · infer_instance
  · exact .anywhere tail

end Operator

section Parenthesis

instance [Sated setting rest rules] : Suffices setting rest none never (parenParts rules) := by
  refine .via (.turns ?_) fun parts => inferInstance
  rintro ⟨first, parts⟩
  infer_instance

instance {params : List Node} : Suffices setting rest none never (checkBareParameters params) := by
  unfold checkBareParameters
  repeat' split
  all_goals infer_instance

instance {parts : ParenParts} : Suffices setting rest none never (checkGrouped parts) := by
  have tail : Suffices setting rest none never
      (match parts.comma <|> parts.rest <|> parts.pending with
        | some pos => unexpectedAt pos
        | none => return : Parse Unit) := by
    split <;> infer_instance
  refine .ite (fun _ => ?_) fun _ => tail
  infer_instance

instance {items : List Node} {start stop : Mark} :
    Suffices setting rest none never (groupedExpression items start stop) := by
  unfold groupedExpression
  split <;> infer_instance

variable [Sated setting (rest - 1) rules] {maybeArrow : Bool}

instance : Suffices setting rest (some .parenL) always (plainParentheses rules mark maybeArrow) :=
  inferInstanceAs (Suffices _ _ _ _ (next >>= _))

instance : Suffices setting rest here always (annotatedArrow rules node mark) := by
  refine .step fun annot => .after fun _ => ?_
  infer_instance

instance : Stays closesNext := inferInstanceAs (Stays (lex _ >>= _))

instance : Suffices setting rest here never closesNext :=
  inferInstanceAs (Suffices _ _ _ _ (lex _ >>= _))

instance : Suffices setting rest (some .parenL) always (emptyArrow rules mark) :=
  inferInstanceAs (Suffices _ _ _ _ (next >>= _))

instance : Suffices setting rest none never (attempt (annotatedArrow rules node mark)) :=
  .attempt inferInstance (annotatedArrow_steps (Sated.lawful setting (rest - 1)))

instance :
    Suffices setting rest (some .parenL) always (typedParentheses rules mark maybeArrow) := by
  have tail (empty : Bool) : Suffices setting rest (some .parenL) always (do
      if empty then emptyArrow rules mark
      else
        let node ← plainParentheses rules mark maybeArrow
        if ← atKind .colon then
          let candidate ← duplicate node
          match ← attempt (annotatedArrow rules candidate mark) with
          | some arrow => return arrow
          | none => return node
        else return node : Parse Node) := by
    refine .ite (fun _ => inferInstance) fun _ => .step fun node =>
      .ifAt (.after fun candidate => .after fun arrow => ?_) inferInstance
    split <;> infer_instance
  exact .ite (fun _ => .stay inferInstance tail) fun _ => .stay inferInstance tail

instance : Suffices setting rest (some .parenL) always (parentheses rules mark maybeArrow) :=
  inferInstanceAs (Suffices _ _ _ _ (hasTypes >>= _))

end Parenthesis

section Object

variable {head : PropertyHead} {isPattern : Bool}

instance [Sated setting rest rules] :
    Suffices setting rest none never (valueProperty rules head isPattern) := by
  unfold valueProperty
  infer_instance

instance {name : String} : Suffices setting rest none never (checkShorthand node name) :=
  inferInstanceAs (Suffices _ _ _ _ (lex _ >>= _))

variable [Sated setting (rest - 1) rules]

instance : Suffices setting rest (some .at) always (decorator rules) :=
  inferInstanceAs (Suffices _ _ _ _ (Grammar.mark >>= _))

instance : Suffices setting rest here never (decoratorList rules) :=
  inferInstanceAs (Suffices _ _ _ _ (loop _ _))

instance : Suffices setting rest here always (propertyKey rules) :=
  inferInstanceAs (Suffices _ _ _ _ (eat _ >>= _))

instance : Suffices setting rest here always (methodProperty rules head) :=
  inferInstanceAs (Suffices _ _ _ _ (method _ _ _ >>= _))

instance {kind : MethodKind} :
    Suffices setting rest here always (accessorProperty rules head kind) :=
  inferInstanceAs (Suffices _ _ _ _ (propertyKey _ >>= _))

instance {name : String} :
    Suffices setting rest none never (shorthandProperty rules head name isPattern) := by
  unfold shorthandProperty
  refine .guard inferInstance fun _ => ?_
  infer_instance

instance : Suffices setting rest none never (plainPropertyTail rules head isPattern) := by
  have tail : Suffices setting rest none never
      (match head.plainName? with
        | none => unexpected
        | some name =>
          match accessorKind? name with
          | some kind => do
            if (← atKind .comma) || (← atKind .braceR) then
              shorthandProperty rules head name isPattern
            else if isPattern then unexpected
            else return { value := ← accessorProperty rules head kind }
          | none => shorthandProperty rules head name isPattern : Parse (Cover Node)) := by
    repeat' split
    all_goals infer_instance
  refine .stay inferInstance fun paren => .ite (fun _ => ?_) fun _ => inferInstance
  exact .guard inferInstance fun _ => inferInstance

instance : Suffices setting rest none never (propertyTail rules head isPattern) := by
  refine .after fun typeParameters => ?_
  split <;> infer_instance

instance {decorators : List Node} {generator : Bool} :
    Suffices setting rest none always (propertyRest rules mark decorators isPattern generator) := by
  refine .stay inferInstance fun word => .ite (fun _ => ?_) fun _ => inferInstance
  refine .guard inferInstance fun _ => .step fun word => .onKind fun current => ?_
  split <;> infer_instance

instance {decorators : List Node} :
    Suffices setting rest none always (property rules mark decorators isPattern) := by
  unfold property
  infer_instance

instance : Suffices setting rest (some .ellipsis) always (spreadProperty rules mark isPattern) :=
  inferInstanceAs (Suffices _ _ _ _ (next >>= _))

instance {parts : ObjectParts} {proto : Option Nat} :
    Suffices setting rest none never (parts.checkProto proto) := by
  unfold ObjectParts.checkProto
  split <;> infer_instance

instance {parts : ObjectParts} :
    Suffices setting rest none always (takeProperty rules isPattern parts) :=
  inferInstanceAs (Suffices _ _ _ _ (decoratorList _ >>= _))

instance : Suffices setting rest (some .braceL) always (object rules isPattern) := by
  refine .stay inferInstance fun mark => .step fun _ => .via (.turns ?_) fun parts => inferInstance
  rintro ⟨first, parts⟩
  infer_instance

instance : Suffices setting rest none always (binding rules) := by
  refine .onKind fun current => ?_
  split <;> infer_instance

end Object

section Element

instance : Suffices setting rest here always tagName := by
  refine .stay inferInstance fun mark => .onKind fun current => .ite (fun same => ?_) fun _ => ?_
  · rw [beq_iff_eq] at same
    subst same
    infer_instance
  · split
    · next keyword known =>
        have : Is current.isFilled := ⟨Kind.isFilled_of_keyword? known⟩
        infer_instance
    · infer_instance

instance : Suffices setting rest here always spacedName :=
  inferInstanceAs (Suffices _ _ _ _ (Grammar.mark >>= _))

instance : Suffices setting rest here always elementName :=
  inferInstanceAs (Suffices _ _ _ _ (Grammar.mark >>= _))

instance : Suffices setting rest here never emptyHole :=
  inferInstanceAs (Suffices _ _ _ _ (get >>= fun _ => finishAt _ _ _ _))

instance : Suffices setting rest here always (closingTail mark) :=
  inferInstanceAs (Suffices _ _ _ _ (elementName >>= _))

instance : Suffices setting rest (some .jsxText) always textChild :=
  inferInstanceAs (Suffices _ _ _ _ (valueText >>= _))

instance {opening closing : Node} :
    Suffices setting rest none never (checkClosing opening closing) := by
  unfold checkClosing
  infer_instance

section

variable [Sated setting (rest - 1) rules]

instance : Suffices setting rest (some .braceL) always (expressionHole rules) :=
  inferInstanceAs (Suffices _ _ _ _ (Grammar.mark >>= _))

end

instance [Sated setting rest rules] : Suffices setting rest none never (attributeValue rules) := by
  refine .onKind fun current => ?_
  split <;> infer_instance

variable [Sated setting (rest - 1) rules]

instance : Suffices setting rest here always (tagAttribute rules) :=
  inferInstanceAs (Suffices _ _ _ _ (Grammar.mark >>= _))

instance : Suffices setting rest here always (openingTail rules mark) :=
  inferInstanceAs (Suffices _ _ _ _ (elementName >>= _))

instance : Suffices setting rest here never (elementContent rules) := by
  refine .turns fun children => .onKind fun current => ?_
  split <;> infer_instance

instance : Suffices setting rest here always (element rules mark) := by
  refine .nested (.step ?_)
  rintro ⟨opening, selfClosing⟩
  infer_instance

end Element

section Class

variable {head : MemberHead} {parts : ClassParts}

instance : Stays takeDecorators where
  stays _ _ := by
    rintro _ _ ⟨⟩
    rfl

instance : Suffices setting rest here never takeDecorators :=
  inferInstanceAs (Suffices _ _ _ _ (get >>= _))

instance : Suffices setting rest here never isProperty :=
  inferInstanceAs (Suffices _ _ _ _ (hasTypes >>= _))

instance : Suffices setting rest none never (checkConstructor head parts) := by
  unfold checkConstructor
  infer_instance

instance {isCall : Bool} : Suffices setting rest none never (judgeKey head isCall parts) := by
  unfold judgeKey
  infer_instance

instance {isStatement optionalId : Bool} :
    Suffices setting rest here never (className? isStatement optionalId) :=
  inferInstanceAs (Suffices _ _ _ _ (atKind _ >>= _))

section

variable [Sated setting (rest - 1) rules]

instance {allowExport : Bool} :
    Suffices setting rest (some .at) always (leadingDecorators rules allowExport) :=
  inferInstanceAs (Suffices _ _ _ _ (loop _ _ >>= _))

instance : Suffices setting rest here never (classProperty rules head) :=
  inferInstanceAs (Suffices _ _ _ _ ( typeAnnotation? _ >>= _))

instance : Suffices setting rest here always (classMethod rules head) :=
  inferInstanceAs (Suffices _ _ _ _ (genericHead? _ >>= _))

instance : Suffices setting rest here always (head.withNextKey rules) :=
  inferInstanceAs (Suffices _ _ _ _ (propertyKey _ >>= _))

instance {decorators : List Node} :
    Suffices setting rest here always (memberStart rules mark decorators) := by
  refine .stay inferInstance fun static => .after fun generator => .step ?_
  rintro ⟨key, computed⟩
  infer_instance

instance : Suffices setting rest none never (passAsync rules head) := by
  unfold passAsync
  infer_instance

instance : Suffices setting rest none never (passAccessor rules head) := by
  unfold passAccessor
  split <;> infer_instance

instance : Suffices setting rest none always (takeMember rules parts) := by
  refine .stay inferInstance fun mark => .step fun head => .after fun property => ?_
  refine .ite (fun _ => inferInstance) fun _ => .after fun call => .ite (fun _ => ?_) fun _ => ?_
  · exact .after fun head => inferInstance
  · infer_instance

instance : Suffices setting rest here always (classMembers rules) := by
  refine .stay inferInstance fun mark => .step fun _ => ?_
  infer_instance

instance : Suffices setting rest here always (classBody rules) :=
  inferInstanceAs (Suffices _ _ _ _ (isStrict >>= _))

instance : Suffices setting rest here never (implementedInterfaces? rules) :=
  inferInstanceAs (Suffices _ _ _ _ (hasTypes >>= _))

end

instance {decorators : List Node} {isStatement optionalId : Bool} [Sated setting rest rules] :
    Suffices setting rest none never (classTail rules mark decorators isStatement optionalId) := by
  unfold classTail
  infer_instance

instance {decorators : List Node} {isStatement optionalId : Bool} [Sated setting (rest - 1) rules] :
    Suffices setting rest (some .kwClass) always
      (classTail rules mark decorators isStatement optionalId) := by
  unfold classTail
  infer_instance

end Class

section Primary

instance {kind : Kind} [Is kind.isFilled] :
    Suffices setting rest (some kind) always (tokenExpression mark form) :=
  inferInstanceAs (Suffices _ _ _ _ (next >>= _))

instance : Suffices setting rest (some .kwSuper) always (superExpression mark) := by
  refine .stay inferInstance fun context => .stay inferInstance fun state => ?_
  refine .guardStay inferInstance fun _ => .step fun _ => .onKind fun current => ?_
  split <;> infer_instance

instance {word : Node} {wanted : String} :
    Suffices setting rest here always (metaPropertyTail mark word wanted) :=
  inferInstanceAs (Suffices _ _ _ _ (identifier _ >>= _))

instance : Suffices setting rest (some .regexp) always regexpLiteral := by
  refine .stay inferInstance fun state => ?_
  split <;> infer_instance

section

variable [Sated setting rest rules] {id : Node} {maybeArrow : Bool}

instance : Suffices setting rest none never (awaitTail rules mark) := by
  unfold awaitTail
  infer_instance

instance : Suffices setting rest none never (nameOrArrow rules mark id maybeArrow) := by
  unfold nameOrArrow
  infer_instance

instance : Suffices setting rest none never (asyncOrName rules mark id maybeArrow) := by
  unfold asyncOrName
  infer_instance

end

variable [Sated setting (rest - 1) rules]

instance {maybeArrow : Bool} :
    Suffices setting rest here always (nameExpression rules mark maybeArrow) := by
  refine .stay inferInstance fun state => .stay inferInstance fun yields => ?_
  refine .stay inferInstance fun inner => .guardStay inferInstance fun _ => ?_
  refine .stay inferInstance fun state => .stay inferInstance fun allows => .step fun id => ?_
  split <;> infer_instance

instance : Suffices setting rest (some .kwDo) always (doExpression rules mark) :=
  inferInstanceAs (Suffices _ _ _ _ (next >>= _))

instance : Suffices setting rest here always (functionExpression rules) :=
  inferInstanceAs (Suffices _ _ _ _ (Grammar.mark >>= _))

instance : Suffices setting rest here always (newExpression rules) :=
  inferInstanceAs (Suffices _ _ _ _ (Grammar.mark >>= _))

instance : Suffices setting rest (some .at) always (classExpression rules) :=
  .ifKnown inferInstance

instance : Suffices setting rest (some .kwClass) always (classExpression rules) :=
  .ifAt inferInstance inferInstance

instance : Suffices setting rest (some .doubleColon) always (bindExpression rules mark) := by
  refine .step fun _ => .after fun callee => ?_
  split <;> infer_instance

instance : Suffices setting rest none always (plainPrimary rules) := by
  refine .stay inferInstance fun mark => .stay inferInstance fun state => .onKind fun current => ?_
  split <;> infer_instance

instance : Suffices setting rest none always (primary rules) := by
  refine .onKind fun current => ?_
  split <;> infer_instance

end Primary

end Grammar

end EcmaSyntax
