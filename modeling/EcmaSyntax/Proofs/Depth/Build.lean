import EcmaSyntax.Proofs.Depth.Basic

namespace EcmaSyntax

namespace Grammar

-- The rules are long, so that more instances are sought for one of them than usual.
set_option synthInstance.maxSize 1024

variable {α : Type} {setting : Setting} {rest : Nat} {here : Option Kind} {mark : Mark}
  {form : Form} {node : Node} {rules : Rules} {action : Parse α}

section Tokens

instance : Suffices setting rest here never rawText :=
  inferInstanceAs (Suffices _ _ _ _ (get >>= _))

instance (expected : Kind) [Is expected.isFilled] :
    Suffices setting rest here always (expect expected) :=
  inferInstanceAs (Suffices _ _ _ _ (eat expected >>= _))

instance (priority := low) (expected : Kind) :
    Suffices setting rest here never (expect expected) :=
  inferInstanceAs (Suffices _ _ _ _ (eat expected >>= _))

instance (word : String) : Suffices setting rest here id (eatWord word) :=
  inferInstanceAs (Suffices _ _ _ _ (atWord word >>= _))

instance (word : String) : Suffices setting rest here never (eatWord word) :=
  inferInstanceAs (Suffices _ _ _ _ (atWord word >>= _))

instance (word : String) : Suffices setting rest here always (expectWord word) :=
  inferInstanceAs (Suffices _ _ _ _ (eatWord word >>= _))

instance (bracket : String) : Suffices setting rest here always (expectAngle bracket) :=
  inferInstanceAs (Suffices _ _ _ _ (atAngle bracket >>= _))

instance : Suffices setting rest here never onNewLine :=
  inferInstanceAs (Suffices _ _ _ _ (get >>= _))

instance : Suffices setting rest here never mayEndStatement :=
  inferInstanceAs (Suffices _ _ _ _ (kind >>= _))

instance : Suffices setting rest here never endsStatement :=
  inferInstanceAs (Suffices _ _ _ _ (eat _ >>= _))

instance : Suffices setting rest here never endStatement :=
  inferInstanceAs (Suffices _ _ _ _ (endsStatement >>= _))

end Tokens

section Build

instance (stop : Nat) (stopLoc : Position) :
    Suffices setting rest here never (finishAt mark form stop stopLoc) :=
  inferInstanceAs (Suffices _ _ _ _ (freshId >>= _))

instance : Suffices setting rest here never (finish mark form) :=
  inferInstanceAs (Suffices _ _ _ _ (get >>= _))

instance (stop : Nat) (stopLoc : Position) :
    Suffices setting rest here never (refinishAt node stop stopLoc) :=
  inferInstanceAs (Suffices _ _ _ _ (attach _ _ _ >>= _))

instance : Suffices setting rest here never (refinish node) :=
  inferInstanceAs (Suffices _ _ _ _ (get >>= fun state =>
    refinishAt node state.lexer.lastStop state.lexer.lastStopLoc))

instance : Suffices setting rest here never (duplicate node) :=
  have (id : NodeId) : Suffices setting rest none never (modify fun state =>
    match state.attached? node.id with
    | some attached => state.setAttached id attached
    | none => state : Parse PUnit) := .easy (.plain) fun _ => ⟨_, _, rfl⟩
  inferInstanceAs (Suffices _ _ _ _ (freshId >>= _))

instance {liberal : Bool} : Suffices setting rest here always (identifier liberal) := by
  have tail {current : Kind} [Is current.isFilled] (mark : Mark) (name : String) :
      Suffices setting rest (some current) always (do
        if !liberal && name == "await" && (← get).inAsync then raise mark.pos .awaitInAsync
        next
        finish mark (.identifier name none false)) := inferInstance
  refine .stay inferInstance fun mark => .onKind fun current => .stay inferInstance fun name => ?_
  split
  · next same =>
      rw [beq_iff_eq] at same
      subst same
      exact .stay inferInstance fun _ => inferInstance
  · split
    · next keyword known =>
        have : Is current.isFilled := ⟨Kind.isFilled_of_keyword? known⟩
        infer_instance
    · infer_instance

instance {rawValue : Option RawValue} {kind : Kind} [Is kind.isFilled] :
    Suffices setting rest (some kind) always (literal form rawValue) :=
  inferInstanceAs (Suffices _ _ _ _ (Grammar.mark >>= _))

instance : Suffices setting rest (some .num) always numberLiteral :=
  inferInstanceAs (Suffices _ _ _ _ (valueNumber >>= _))

instance : Suffices setting rest (some .string) always stringLiteral :=
  inferInstanceAs (Suffices _ _ _ _ (valueText >>= _))

instance : Suffices setting rest here always propertyLabel := by
  refine .onKind fun current => ?_
  split <;> infer_instance

end Build

section Target

instance (isBinding : Bool) : Looks (targetRule isBinding) :=
  .bind inferInstance fun _ => .tell

instance : Suffices setting rest here never (castToParameter node) := by
  unfold castToParameter
  split <;> infer_instance

instance : Suffices setting rest here never (refuseMethod node) := by
  unfold refuseMethod
  split <;> infer_instance

instance : Suffices setting rest here never (checkRest node) := by
  unfold checkRest
  split <;> infer_instance

mutual

/-- A target is made without reading on. -/
theorem toTarget_suffices (isBinding : Bool) (node : Node) :
    Suffices setting rest none never (toTarget isBinding node) := by
  rw [toTarget]
  have form (types : Bool) := formToTarget_suffices isBinding (node.prepared types)
  infer_instance
termination_by (sizeOf node.form, 1)
decreasing_by
  rcases Nat.lt_or_eq_of_le (node.sizeOf_form_prepared types) with less | same
  · exact Prod.Lex.left _ _ less
  · rw [same]
    exact Prod.Lex.right _ (by decide)

theorem formToTarget_suffices (isBinding : Bool) (node : Node) :
    Suffices setting rest none never (formToTarget isBinding node) := by
  rw [formToTarget]
  split
  case h_5 properties annot same =>
    have smaller : sizeOf properties < sizeOf node.form := by
      rw [same]
      simp
      omega
    have each := propertiesToTargets_suffices isBinding properties
    infer_instance
  case h_6 method shorthand computed decorators key value same =>
    have smaller : sizeOf value.form < sizeOf node.form := by
      have := value.sizeOf_form_lt
      rw [same]
      simp
      omega
    have inner := toTarget_suffices isBinding value
    infer_instance
  case h_8 elements annot same =>
    have smaller : sizeOf elements < sizeOf node.form := by
      rw [same]
      simp
      omega
    have each := elementsToTargets_suffices isBinding elements
    infer_instance
  all_goals infer_instance
termination_by (sizeOf node.form, 0)
decreasing_by all_goals exact Prod.Lex.left _ _ ‹_›

theorem propertiesToTargets_suffices (isBinding : Bool) (properties : List Node) :
    Suffices setting rest none never (propertiesToTargets isBinding properties) := by
  cases properties with
  | nil =>
      rw [propertiesToTargets]
      infer_instance
  | cons property others =>
      rw [propertiesToTargets]
      have first := toTarget_suffices isBinding property
      have each := propertiesToTargets_suffices isBinding others
      infer_instance
termination_by (sizeOf properties, 0)
decreasing_by
  · have := property.sizeOf_form_lt
    exact Prod.Lex.left _ _ (by simp only [List.cons.sizeOf_spec]; omega)
  · exact Prod.Lex.left _ _ (by simp only [List.cons.sizeOf_spec]; omega)

theorem elementsToTargets_suffices (isBinding : Bool) (elements : List (Option Node)) :
    Suffices setting rest none never (elementsToTargets isBinding elements) := by
  rw [elementsToTargets]
  have each (types : Bool) (closing : Option Node) :=
    slotsToTargets_suffices isBinding types closing elements
  refine .stay inferInstance fun types => .guard inferInstance fun _ => ?_
  split
  · next last closes =>
      split
      · next argument same =>
          have smaller : sizeOf argument.form < sizeOf elements := by
            have inside := List.sizeOf_lt_of_mem (List.mem_of_getLast? closes)
            have form := last.sizeOf_form_lt
            have prepared := last.sizeOf_form_prepared types
            have below := argument.sizeOf_form_lt
            rw [same] at prepared
            simp at inside prepared
            omega
          have inner := toTarget_suffices isBinding argument
          infer_instance
      · exact each _ _
      · exact each _ _
  · exact each _ _
termination_by (sizeOf elements, 1)
decreasing_by
  · exact Prod.Lex.right _ (by decide)
  · exact Prod.Lex.left _ _ ‹_›

theorem slotsToTargets_suffices (isBinding types : Bool) (closing : Option Node)
    (elements : List (Option Node)) :
    Suffices setting rest none never (slotsToTargets isBinding types closing elements) := by
  match elements with
  | [] =>
      rw [slotsToTargets]
      infer_instance
  | none :: others =>
      rw [slotsToTargets]
      have each := slotsToTargets_suffices isBinding types closing others
      infer_instance
  | some node :: others =>
      rw [slotsToTargets]
      have target := formToTarget_suffices isBinding (node.prepared types)
      have each := slotsToTargets_suffices isBinding types closing others
      infer_instance
termination_by (sizeOf elements, 0)
decreasing_by
  · exact Prod.Lex.left _ _ (by simp only [List.cons.sizeOf_spec]; omega)
  · have := node.sizeOf_form_lt
    have := node.sizeOf_form_prepared types
    exact Prod.Lex.left _ _
      (by simp only [List.cons.sizeOf_spec, Option.some.sizeOf_spec]; omega)
  · exact Prod.Lex.left _ _ (by simp only [List.cons.sizeOf_spec]; omega)

end

instance (isBinding : Bool) : Suffices setting rest none never (toTarget isBinding node) :=
  toTarget_suffices isBinding node

instance (expressions : List Node) :
    Suffices setting rest none never (toParameters expressions) :=
  have : Suffices setting rest none never (elementsToTargets true (expressions.map some)) :=
    elementsToTargets_suffices true _
  inferInstanceAs (Suffices _ _ _ _ (elementsToTargets true _ >>= _))

instance {result : Except Refusal α} : Suffices setting rest here never (orRaise result) := by
  unfold orRaise
  split <;> infer_instance

instance {result : Except Refusal α} : Stays (orRaise result) := by
  unfold orRaise
  split <;> infer_instance

instance : Stays (checkAssigned node) := inferInstanceAs (Stays (targetRule _ >>= _))

instance : Suffices setting rest here never (checkAssigned node) :=
  inferInstanceAs (Suffices _ _ _ _ (targetRule _ >>= _))

instance : Suffices setting rest here never (checkBound node) :=
  inferInstanceAs (Suffices _ _ _ _ (targetRule _ >>= _))

instance : Suffices setting rest here never (checkBoundOnce node) :=
  inferInstanceAs (Suffices _ _ _ _ (targetRule _ >>= _))

instance {nodes : List Node} : Suffices setting rest none never (checkReferenced nodes) := by
  have (node : Node) : Suffices setting rest none never (match node.form with
      | .typeCastExpression _ _ true => raise node.start .unexpectedTypeCast
      | _ => return : Parse Unit) := by
    split <;> infer_instance
  exact inferInstanceAs (Suffices _ _ _ _ (hasTypes >>= _))

end Target

section Annotation

instance [Suffices setting rest none always action] :
    Suffices setting rest here always (withinType action) :=
  inferInstanceAs (Suffices _ _ _ _ (get >>= _))

variable [Sated setting (rest - 1) rules]

instance (introducer : Kind) [Is introducer.isFilled] :
    Suffices setting rest here always (typeAfter rules introducer) :=
  have : Suffices setting rest none always (do
      expect introducer
      rules.type) := inferInstance
  inferInstanceAs (Suffices _ _ _ _ (withinType _))

instance : Suffices setting rest here always ( typeAnnotation rules) :=
  inferInstanceAs (Suffices _ _ _ _ (Grammar.mark >>= _))

instance : Suffices setting rest here never ( typeAnnotation? rules) :=
  inferInstanceAs (Suffices _ _ _ _ (hasTypes >>= _))

instance (annot : Node) : Suffices setting rest here never (annotate node annot) :=
  inferInstanceAs (Suffices _ _ _ _ (refinish _))

instance : Suffices setting rest here always (annotatedIdentifier rules) :=
  inferInstanceAs (Suffices _ _ _ _ (identifier false >>= _))

instance : Suffices setting rest here Option.isSome existentialParam? :=
  inferInstanceAs (Suffices _ _ _ _ (atKind _ >>= _))

instance {item : Parse Node} [Suffices setting (rest - 1) none always item] :
    Suffices setting rest here always (bracketed item) := by
  have turns (items : List Node) : Suffices setting (rest - 1) none Turn.isMore (do
      if ← atAngle ">" then
        next
        return .done items.reverse
      let item ←
        match ← existentialParam? with
        | some param => pure param
        | none => item
      if !(← atAngle ">") then expect .comma
      return .more (item :: items) : Parse (Turn (List Node) (List Node))) := by
    have fewer : Suffices setting (rest - 1 - 1) none always item := .mono ‹_› (Nat.sub_le _ _)
    exact .ifAt inferInstance (.onSome (fun param => inferInstance) inferInstance)
  exact inferInstanceAs (Suffices _ _ _ _ (expectAngle _ >>= _))

instance : Suffices setting rest here always (typeParameters rules) :=
  inferInstanceAs (Suffices _ _ _ _ (Grammar.mark >>= _))

instance : Suffices setting rest here never (typeParameters? rules) :=
  inferInstanceAs (Suffices _ _ _ _ (atAngle _ >>= _))

instance : Suffices setting rest here never (genericHead? rules) :=
  inferInstanceAs (Suffices _ _ _ _ (hasTypes >>= _))

instance : Suffices setting rest here always (typeArguments rules) :=
  inferInstanceAs (Suffices _ _ _ _ (Grammar.mark >>= _))

instance : Suffices setting rest here never (typeArguments? rules) :=
  inferInstanceAs (Suffices _ _ _ _ (atAngle _ >>= _))

instance {item : Parse Node} [Suffices setting rest none always item] :
    Suffices setting rest none always (commaSeparated item) :=
  inferInstanceAs (Suffices _ _ _ _ (loop _ _))

end Annotation

section Object

variable [Sated setting (rest - 1) rules]

instance : Suffices setting rest here always (functionTypeParam rules) :=
  inferInstanceAs (Suffices _ _ _ _ (Grammar.mark >>= _))

instance : Suffices setting rest here never (functionTypeParams rules) :=
  inferInstanceAs (Suffices _ _ _ _ (loop _ _ >>= _))

instance : Suffices setting rest here always (signature rules mark) :=
  inferInstanceAs (Suffices _ _ _ _ (typeParameters? rules >>= _))

instance (typeParameters : Option Node) :
    Suffices setting rest here always (functionTypeTail rules mark typeParameters) :=
  inferInstanceAs (Suffices _ _ _ _ (functionTypeParams rules >>= _))

instance : Suffices setting rest here never endTypeMember :=
  inferInstanceAs (Suffices _ _ _ _ (eat _ >>= _))

instance (isStatic : Bool) : Suffices setting rest here always (typeIndexer rules mark isStatic) :=
  inferInstanceAs (Suffices _ _ _ _ (expect _ >>= _))

instance (isStatic : Bool) :
    Suffices setting rest here always (typeCallProperty rules mark isStatic) :=
  inferInstanceAs (Suffices _ _ _ _ (Grammar.mark >>= _))

instance (isStatic : Bool) : Suffices setting rest here always (typeProperty rules mark isStatic) :=
  inferInstanceAs (Suffices _ _ _ _ (propertyLabel >>= _))

instance (allowed : Bool) : Suffices setting rest here never (staticMark allowed) :=
  inferInstanceAs (Suffices _ _ _ _ (atWord _ >>= _))

instance (allowStatic : Bool) : Suffices setting rest here always (objectType rules allowStatic) :=
  inferInstanceAs (Suffices _ _ _ _ (Grammar.mark >>= _))

end Object

section Types

variable [Sated setting (rest - 1) rules]

instance (id : Node) : Suffices setting rest here never (genericType rules mark id) :=
  inferInstanceAs (Suffices _ _ _ _ (loop _ _ >>= _))

instance : Suffices setting rest here always (typeOfName rules mark) := by
  refine .step fun id => ?_
  split <;> infer_instance

instance : Suffices setting rest here always (tupleType rules) :=
  inferInstanceAs (Suffices _ _ _ _ (Grammar.mark >>= _))

instance : Suffices setting rest here never groupsType := by
  refine .onKind fun current => ?_
  split <;> infer_instance

instance : Suffices setting rest (some .parenL) always (groupedType rules mark) :=
  inferInstanceAs (Suffices _ _ _ _ (next >>= _))

instance {kind : Kind} [Is kind.isFilled] :
    Suffices setting rest (some kind) always (simpleType mark form) :=
  inferInstanceAs (Suffices _ _ _ _ (next >>= _))

instance : Suffices setting rest here always (primaryType rules) := by
  refine .stay inferInstance fun mark => .onKind fun current => ?_
  split <;> infer_instance

instance [Suffices setting rest none always (rules .primaryType)] :
    Suffices setting rest here always (arrayType rules) :=
  inferInstanceAs (Suffices _ _ _ _ (Grammar.mark >>= _))

instance [Suffices setting rest none always (rules .primaryType)] :
    Suffices setting rest here always (prefixType rules) :=
  inferInstanceAs (Suffices _ _ _ _ (Grammar.mark >>= _))

instance {operator : Kind} [Is operator.isFilled] {join : List Node → Form} {item : Parse Node}
    [Suffices setting rest none always item] :
    Suffices setting rest here always (joinedTypes operator join item) :=
  have : Suffices setting (rest - 1 - 1) none always item := .mono ‹_› (by omega)
  inferInstanceAs (Suffices _ _ _ _ (Grammar.mark >>= _))

instance [Suffices setting rest none always (rules .prefixType)] :
    Suffices setting rest here always (typeExpression rules) :=
  inferInstanceAs (Suffices _ _ _ _ (nested (withinType _)))

end Types

section Declaration

variable [Sated setting (rest - 1) rules]

instance (form : Node → Option Node → Form) :
    Suffices setting rest here always (typeReference rules form) :=
  inferInstanceAs (Suffices _ _ _ _ (Grammar.mark >>= _))

instance (allowStatic : Bool) (form : Node → Option Node → List Node → Node → Form) :
    Suffices setting rest here always (interfaceParts rules allowStatic form) :=
  inferInstanceAs (Suffices _ _ _ _ (identifier _ >>= _))

instance : Suffices setting rest here always (interfaceTail rules mark) :=
  inferInstanceAs (Suffices _ _ _ _ (interfaceParts _ _ _ >>= _))

instance : Suffices setting rest here always (typeAliasTail rules mark) :=
  inferInstanceAs (Suffices _ _ _ _ (identifier _ >>= _))

instance : Suffices setting rest (some .kwFunction) always (declaredFunction rules mark) :=
  inferInstanceAs (Suffices _ _ _ _ (next >>= _))

instance : Suffices setting rest (some .name) always (declaredModule rules mark) :=
  inferInstanceAs (Suffices _ _ _ _ (next >>= _))

instance : Suffices setting rest here always (declared rules mark) := by
  refine .onKind fun current => ?_
  split <;> infer_instance

end Declaration

end Grammar

end EcmaSyntax
