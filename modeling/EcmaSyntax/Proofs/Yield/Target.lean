import EcmaSyntax.Grammar.Target
import EcmaSyntax.Proofs.Yield.Build
import EcmaSyntax.Proofs.Yield.Expression

namespace EcmaSyntax

namespace Node

variable {law : Law} {node annot param : Node}

/-- A node stays lawful with a lawful annotation. -/
theorem Lawful.withAnnot? (lawful : node.Lawful law) (annotated : annot.Lawful law)
    (placed : node.withAnnot? annot = some param) : param.Lawful law := by
  have annotation := Grammar.Maybe.some annotated
  unfold Node.withAnnot? at placed
  split at placed
  case h_1 name former isOptional same =>
    cases placed
    exact .ofPlain rfl annotation
  case h_2 properties former isOptional same =>
    cases placed
    exact .ofPlain rfl ⟨(lawful.parts same rfl).1, annotation⟩
  case h_3 elements former isOptional same =>
    cases placed
    exact .ofPlain rfl ⟨(lawful.parts same rfl).1, annotation⟩
  case h_4 argument former isOptional same =>
    cases placed
    exact .ofPlain rfl ⟨(lawful.parts same rfl).1, annotation⟩
  case h_5 properties former same =>
    cases placed
    refine fun enclosures => (lawful enclosures).redressed same (.object ..) fun placed => ?_
    change (Form.objectExpression properties (some annot)).Placed _ _ _
    rw [Form.placed_iff_has rfl] at placed ⊢
    exact ⟨placed.1, Grammar.Maybe.some (annotated enclosures)⟩
  case h_6 elements former same =>
    cases placed
    exact .ofPlain rfl ⟨(lawful.parts same rfl).1, annotation⟩
  case h_7 left right former same =>
    cases placed
    exact .ofPlain rfl ⟨(lawful.parts same rfl).1, (lawful.parts same rfl).2.1, annotation⟩
  case h_8 operator left right former same =>
    cases placed
    refine fun enclosures => (lawful enclosures).redressed same (.assignment ..) fun placed => ?_
    change (Form.assignmentExpression operator left right (some annot)).Placed _ _ _
    rw [Form.placed_iff_has rfl] at placed ⊢
    exact ⟨placed.1, placed.2.1, Grammar.Maybe.some (annotated enclosures)⟩
  case h_9 => cases placed

/-- A lawful parameter may be marked as optional. -/
theorem Lawful.asOptional? (lawful : node.Lawful law)
    (placed : node.asOptional? = some param) : param.Lawful law := by
  unfold Node.asOptional? at placed
  split at placed
  case h_1 name annot former same =>
    cases placed
    have parts := lawful.parts same rfl
    exact .ofPlain rfl parts
  case h_2 properties annot former same =>
    cases placed
    have parts := lawful.parts same rfl
    exact .ofPlain rfl parts
  case h_3 elements annot former same =>
    cases placed
    have parts := lawful.parts same rfl
    exact .ofPlain rfl parts
  case h_4 argument annot former same =>
    cases placed
    have parts := lawful.parts same rfl
    exact .ofPlain rfl parts
  case h_5 => cases placed

/-- A lawful item is lawful without its type. -/
theorem Lawful.uncast (lawful : node.Lawful law) : node.uncast.Lawful law := by
  unfold Node.uncast
  split
  · next expression annot isItem same =>
      obtain ⟨inner, annotated⟩ := lawful.parts same rfl
      split
      · next param placed =>
          exact (inner.withAnnot? annotated placed).moved rfl (isUnlaid_of_withAnnot? placed)
      · exact lawful
  · exact lawful

/-- A lawful item is lawful with its type as an annotation. -/
theorem Lawful.prepared (lawful : node.Lawful law) (types : Bool) :
    (node.prepared types).Lawful law := by
  unfold Node.prepared
  split
  · exact lawful.uncast
  · exact lawful

/-- Only in a language with types a cast becomes a parameter. -/
theorem Covers.prepared {types : Bool} (covers : node.Covers law)
    (silent : law.untyped → types = false) : (node.prepared types).Covers law := by
  by_cases untyped : law.untyped
  · rwa [silent untyped]
  · exact .lawful ((covers.typed untyped).prepared types)

end Node

namespace Grammar

variable {law : Law} {given : Prop}

instance (node : Node) : Plain (castToParameter node) := by
  unfold castToParameter
  split <;> infer_instance

instance (property : Node) : Plain (refuseMethod property) := by
  unfold refuseMethod
  split <;> infer_instance

instance (argument : Node) : Plain (checkRest argument) := by
  unfold checkRest
  split <;> infer_instance

/-- Where a law speaks only of languages without types, there are none. -/
theorem hasTypes_silent : Yields law given hasTypes fun types => law.untyped → types = false :=
  (YieldsAt.plain.learnUntyped fun _ _ _ untyped => by
    rw [hasTypes, Gives.bind_iff, gives_read, gives_pure]
    exact untyped).weaken fun _ => And.right

mutual

/-- An expression that may become a pattern becomes a lawful target. The cases are those by which a
form becomes a target. -/
theorem toTarget_yields (isBinding : Bool) (node : Node) :
    Yields law (node.Covers law) (toTarget isBinding node) (Node.Lawful law) := by
  rw [toTarget]
  exact hasTypes_silent.bind fun types => .guard
    ((formToTarget_yields isBinding (node.prepared types)).ofGiven fun known =>
      known.1.prepared known.2)
termination_by (sizeOf node.form, 1)
decreasing_by
  rcases Nat.lt_or_eq_of_le (node.sizeOf_form_prepared types) with less | same
  · exact Prod.Lex.left _ _ less
  · rw [same]
    exact Prod.Lex.right _ (by decide)

theorem formToTarget_yields (isBinding : Bool) (node : Node) :
    Yields law (node.Covers law) (formToTarget isBinding node)
      (Node.Lawful law) := by
  rw [formToTarget]
  split
  · next same => exact .pure fun known => known.settled (same ▸ rfl)
  · next same => exact .pure fun known => known.settled (same ▸ rfl)
  · next same => exact .pure fun known => known.settled (same ▸ rfl)
  · next same => exact .pure fun known => known.settled (same ▸ rfl)
  · next properties annot same =>
      have smaller : sizeOf properties < sizeOf node.form := by
        rw [same]
        simp
        omega
      refine ((propertiesToTargets_yields isBinding properties).ofGiven fun known =>
        (known.parts same).1).bind fun _ => .pure fun ⟨known, targets⟩ => ?_
      exact .ofPlain rfl ⟨targets, (known.parts same).2⟩
  · next method shorthand computed decorators key value same =>
      have smaller : sizeOf value.form < sizeOf node.form := by
        have := value.sizeOf_form_lt
        rw [same]
        simp
        omega
      refine ((toTarget_yields isBinding value).ofGiven fun known =>
        (known.parts same).2.2).bind fun _ => .pure fun ⟨known, target⟩ => ?_
      exact .ofPlain rfl ⟨(known.parts same).1, (known.parts same).2.1, target⟩
  · next argument same =>
      refine .pure fun known => ?_
      have parts := (known.settled (same ▸ rfl)).parts same rfl
      exact .ofPlain rfl parts
  · next elements annot same =>
      have smaller : sizeOf elements < sizeOf node.form := by
        rw [same]
        simp
        omega
      refine ((elementsToTargets_yields isBinding elements).ofGiven fun known =>
        (known.parts same).1).bind fun _ => .pure fun ⟨known, targets⟩ => ?_
      exact .ofPlain rfl ⟨targets, (known.parts same).2⟩
  · next operator left right annot same =>
      refine .ite (fun _ => .pure fun known => ?_) fun _ => .raise
      have parts := (known.settled (same ▸ rfl)).parts same rfl
      exact .ofPlain rfl parts
  · next same =>
      exact .ite (fun _ => .raise) fun _ => .pure fun known => known.settled (same ▸ rfl)
  · exact .raise
termination_by (sizeOf node.form, 0)
decreasing_by all_goals exact Prod.Lex.left _ _ ‹_›

/-- The properties of an object become lawful targets. -/
theorem propertiesToTargets_yields (isBinding : Bool) (properties : List Node) :
    Yields law (AllCovers law properties) (propertiesToTargets isBinding properties)
      (AllLawful law) := by
  cases properties with
  | nil =>
      rw [propertiesToTargets]
      exact .pure fun _ => .nil
  | cons property rest =>
      rw [propertiesToTargets]
      refine .step fun _ => ((toTarget_yields isBinding property).ofGiven fun known =>
        known property List.mem_cons_self).bind fun _ => ?_
      refine ((propertiesToTargets_yields isBinding rest).ofGiven fun known node inside =>
        known.1 node (List.mem_cons_of_mem _ inside)).bind fun _ => .pure fun known => ?_
      exact .cons known.1.2 known.2
termination_by (sizeOf properties, 0)
decreasing_by
  · have := property.sizeOf_form_lt
    exact Prod.Lex.left _ _ (by simp only [List.cons.sizeOf_spec]; omega)
  · exact Prod.Lex.left _ _ (by simp only [List.cons.sizeOf_spec]; omega)

/-- The elements of an array become lawful targets. -/
theorem elementsToTargets_yields (isBinding : Bool) (elements : List (Option Node)) :
    Yields law (SlotsCovers law elements) (elementsToTargets isBinding elements)
      (SlotsLawful law) := by
  rw [elementsToTargets]
  refine hasTypes_silent.bind fun types => .guard ?_
  split
  · next last closes =>
      have ends : SlotsCovers law elements ∧ (law.untyped → types = false) →
          (last.prepared types).Covers law :=
        fun known => (known.1 last (List.mem_of_getLast? closes)).prepared known.2
      split
      · next argument same =>
          have smaller : sizeOf argument.form < sizeOf elements := by
            have inside := List.sizeOf_lt_of_mem (List.mem_of_getLast? closes)
            have form := last.sizeOf_form_lt
            have prepared := last.sizeOf_form_prepared types
            have below := argument.sizeOf_form_lt
            rw [same] at prepared
            simp at inside prepared
            omega
          refine ((toTarget_yields isBinding argument).ofGiven fun known =>
            (ends known).parts same).bind fun target => .step fun _ => ?_
          exact (slotsToTargets_yields isBinding types _ elements).ofGiven fun known =>
            ⟨.some (.ofPlain rfl ⟨known.2, Maybe.none⟩), known.1⟩
      · next same =>
          exact (slotsToTargets_yields isBinding types _ elements).ofGiven fun known =>
            ⟨.some ((ends known).settled (same ▸ rfl)), known⟩
      · exact (slotsToTargets_yields isBinding types _ elements).ofGiven fun known =>
          ⟨.none, known⟩
  · exact (slotsToTargets_yields isBinding types _ elements).ofGiven fun known => ⟨.none, known⟩
termination_by (sizeOf elements, 1)
decreasing_by
  · exact Prod.Lex.left _ _ ‹_›
  all_goals exact Prod.Lex.right _ (by decide)

/-- The items of a list become lawful targets, the last one also if it is spread. -/
theorem slotsToTargets_yields (isBinding types : Bool) (closing : Option Node)
    (elements : List (Option Node)) :
    Yields law
      (PartLawful law closing ∧ SlotsCovers law elements ∧ (law.untyped → types = false))
      (slotsToTargets isBinding types closing elements) (SlotsLawful law) := by
  match elements with
  | [] =>
      rw [slotsToTargets]
      exact .pure fun _ => nofun
  | none :: rest =>
      rw [slotsToTargets]
      refine .ite (fun _ => .pure fun known => .cons known.1 nofun) fun _ => ?_
      refine ((slotsToTargets_yields isBinding types closing rest).ofGiven fun known =>
        ⟨known.1, fun node inside => known.2.1 node (List.mem_cons_of_mem _ inside),
          known.2.2⟩).bind fun _ => .pure fun known => .cons .none known.2
  | some node :: rest =>
      rw [slotsToTargets]
      refine .ite (fun _ => .pure fun known => .cons known.1 nofun) fun _ => ?_
      refine ((formToTarget_yields isBinding (node.prepared types)).ofGiven fun known =>
        (known.2.1 node List.mem_cons_self).prepared known.2.2).bind fun target => ?_
      refine ((slotsToTargets_yields isBinding types closing rest).ofGiven fun known =>
        ⟨known.1.1, fun node inside => known.1.2.1 node (List.mem_cons_of_mem _ inside),
          known.1.2.2⟩).bind fun _ => .pure fun known => .cons (.some known.1.2) known.2
termination_by (sizeOf elements, 0)
decreasing_by
  · exact Prod.Lex.left _ _ (by simp only [List.cons.sizeOf_spec]; omega)
  · have := node.sizeOf_form_lt
    have := node.sizeOf_form_prepared types
    exact Prod.Lex.left _ _
      (by simp only [List.cons.sizeOf_spec, Option.some.sizeOf_spec]; omega)
  · exact Prod.Lex.left _ _ (by simp only [List.cons.sizeOf_spec]; omega)

end

/-- The elements of a list without its holes. -/
theorem toParameters_yields {expressions : List Node}
    (holds : given → AllCovers law expressions) :
    Yields law given (toParameters expressions) (AllLawful law) := by
  refine ((elementsToTargets_yields true _).ofGiven fun known => ?_).bind fun _ =>
    .pure fun known => known.2.nodes
  intro node inside
  simpa using holds known node (by simpa using inside)

section Place

/-- A target ends where the expression does that it is made of. -/
theorem formToTarget_stops (isBinding : Bool) (node : Node) :
    Ends (formToTarget isBinding node) fun target => target.stop = node.stop := by
  rw [formToTarget]
  split
  · exact .give rfl
  · exact .give rfl
  · exact .give rfl
  · exact .give rfl
  · exact .last fun _ => .give rfl
  · exact .last fun _ => .give rfl
  · exact .give rfl
  · exact .last fun _ => .give rfl
  · exact .ite (.give rfl) fun _ _ _ _ absent => by cases absent
  · exact .ite (fun _ _ _ _ absent => by cases absent) (.give rfl)
  · exact fun _ _ _ _ absent => by cases absent

/-- Where there are no types, the targets in a list end where the expressions do. -/
theorem slotsToTargets_stops (isBinding : Bool) (closing : Option Node)
    (elements : List (Option Node)) :
    Ends (slotsToTargets isBinding false closing elements) fun slots =>
      ∀ target, some target ∈ slots →
        some target = closing ∨ ∃ node, some node ∈ elements ∧ target.stop = node.stop := by
  induction elements with
  | nil =>
      rw [slotsToTargets]
      exact .give nofun
  | cons slot rest inductionHypothesis =>
      have ended : Ends (pure [closing] : Parse (List (Option Node))) fun slots =>
          ∀ target, some target ∈ slots →
            some target = closing ∨ ∃ node, some node ∈ slot :: rest ∧ target.stop = node.stop :=
        .give fun _ inside => .inl (List.mem_singleton.mp inside)
      have later : ∀ {target : Node}, (some target = closing ∨
          ∃ node, some node ∈ rest ∧ target.stop = node.stop) →
            some target = closing ∨ ∃ node, some node ∈ slot :: rest ∧ target.stop = node.stop :=
        Or.imp_right fun ⟨node, inside, same⟩ => ⟨node, List.mem_cons_of_mem _ inside, same⟩
      cases slot with
      | none =>
          rw [slotsToTargets]
          refine .ite ended (.bind inductionHypothesis fun slots known => .give ?_)
          intro target inside
          rcases List.mem_cons.mp inside with absent | inside
          · cases absent
          · exact later (known target inside)
      | some node =>
          rw [slotsToTargets]
          refine .ite ended (.bind (formToTarget_stops isBinding _) fun first same =>
            .bind inductionHypothesis fun slots known => .give ?_)
          intro target inside
          rcases List.mem_cons.mp inside with taken | inside
          · cases taken
            exact .inr ⟨node, List.mem_cons_self, same⟩
          · exact later (known target inside)

/-- Where there are no types, parameters end where the expressions do that they are made of. -/
theorem toParameters_stops {expressions : List Node} {setting : Setting} {state : State}
    (untyped : setting.flow = false) :
    Gives (toParameters expressions) setting state fun params _ =>
      ∀ param ∈ params, ∃ other ∈ expressions, param.stop = other.stop := by
  have slots : Gives (elementsToTargets true (expressions.map some)) setting state fun slots _ =>
      ∀ target, some target ∈ slots → ∃ other ∈ expressions, target.stop = other.stop := by
    have among : ∀ {closing : Option Node}, (∀ last ∈ closing, ∃ other ∈ expressions,
        last.stop = other.stop) → Ends (slotsToTargets true false closing (expressions.map some))
          fun slots => ∀ target, some target ∈ slots →
            ∃ other ∈ expressions, target.stop = other.stop := by
      intro closing ends
      refine (slotsToTargets_stops true closing _).mono fun slots known target inside => ?_
      rcases known target inside with last | ⟨node, member, same⟩
      · exact ends target last.symm
      · exact ⟨node, by simpa using member, same⟩
    rw [elementsToTargets, Gives.bind_iff, hasTypes, Gives.bind_iff, gives_read, gives_pure,
      untyped]
    refine gives_ite (fun absent => by cases absent) fun _ => ?_
    split
    · next last closes =>
        have inside : last ∈ expressions := by simpa using List.mem_of_getLast? closes
        split
        · refine Gives.last fun argument middle => Gives.last fun _ after => ?_
          refine among ?_ _ _
          rintro _ ⟨rfl⟩
          exact ⟨last, inside, rfl⟩
        · refine among ?_ _ _
          rintro _ ⟨rfl⟩
          exact ⟨last, inside, rfl⟩
        · exact among (by simp) _ _
    · exact among (by simp) _ _
  rw [toParameters, Gives.bind_iff]
  refine slots.mono fun slots _ known => gives_pure.mpr fun param inside => known param ?_
  simpa using inside

end Place

section Check

instance {α : Type} {result : Except Refusal α} : Plain (orRaise result) := by
  unfold orRaise
  split <;> infer_instance

/-- After a check its result is known. -/
theorem orRaise_yields {α : Type} {result : Except Refusal α} :
    Yields law given (orRaise result) fun value => result = .ok value := by
  unfold orRaise
  split
  · exact .pure fun _ => rfl
  · exact .raise

/-- A check goes by the rules for what binds names in code of a mode. -/
structure TargetRule.ForBinding (rule : TargetRule) (mode : Mode) : Prop where
  strict : rule.strict = mode.strict
  types : rule.types = mode.types
  isBinding : rule.isBinding = true

/-- A node has been checked to bind names in code of a mode. -/
structure Bound (mode : Mode) (node : Node) : Prop where
  bindable : mode.strict = true → node.Bindable
  names : node.NamesOnly mode.types

/-- What passes a check binds only what it may. -/
theorem Bound.ofCheck {rule : TargetRule} {mode : Mode} {names result : Option (List String)}
    (forBinding : rule.ForBinding mode) (passes : rule.check node names = .ok result) :
    Bound mode node := by
  have checked := rule.check_passes node passes
  exact ⟨fun strict => checked.1.bindable (forBinding.strict.trans strict),
    forBinding.types ▸ checked.2 forBinding.isBinding⟩

/-- A type changes nothing of what a parameter binds. -/
theorem Bound.retyped {mode : Mode} {param : Node} (bound : Bound mode node)
    (retyped : node.form.Retyped param.form) : Bound mode param where
  bindable strict := by
    rw [Node.Bindable, Node.boundNames_of_retyped retyped]
    exact bound.bindable strict
  names := bound.names.retyped retyped

/-- The rule for what is bound is that of the mode. -/
theorem targetRule_yields : Yields law given (targetRule true) fun rule =>
    rule.ForBinding law.mode :=
  isStrict_yields.bind fun _ => hasTypes_yields.bind fun _ => .pure fun known =>
    ⟨known.1.2, known.2, rfl⟩

/-- What has been checked binds only what it may. -/
theorem checkBound_yields : Yields law given (checkBound node) fun _ => Bound law.mode node :=
  targetRule_yields.bind fun _ => orRaise_yields.bind fun _ => .pure fun known =>
    .ofCheck known.1.2 known.2

/-- So does what has been checked for names that are bound twice. -/
theorem checkBoundOnce_yields :
    Yields law given (checkBoundOnce node) fun _ => Bound law.mode node :=
  targetRule_yields.bind fun _ => orRaise_yields.bind fun _ => .pure fun known =>
    .ofCheck known.1.2 known.2

end Check

section Assign

variable {setting : Setting} {state : State} {node : Node}

/-- Where there are no types, what an expression is turned into may be assigned to, or is made of an
assignment and stands in parentheses if that does. -/
theorem toTarget_targets (expression : node.IsExpression) (untyped : setting.flow = false) :
    Gives (toTarget false node) setting state fun target _ => target.isTarget = true ∨
      target.isDefaulted = true ∧
        (node.form.isAssignment = true ∧ target.isParenthesized = node.isParenthesized) := by
  have other : ∀ {pos problem} {setting : Setting} {state post},
      Gives (raise pos problem : Parse Node) setting state post := fun _ _ absent => by cases absent
  rw [toTarget, Gives.bind_iff, hasTypes, Gives.bind_iff, gives_read, gives_pure, untyped]
  refine gives_ite (fun absent => by cases absent) fun _ => ?_
  rw [Node.IsExpression] at expression
  rw [Node.prepared, if_neg Bool.false_ne_true, formToTarget]
  split
  · next same => exact gives_pure.mpr (.inl (by simp [Node.isTarget, Node.isReference, same]))
  · next same => exact gives_pure.mpr (.inl (by simp [Node.isTarget, same]))
  · next same => exact gives_pure.mpr (.inl (by simp [Node.isTarget, same]))
  · next same => simp [same, Form.isPart] at expression
  · exact Gives.last fun _ _ => gives_pure.mpr (.inl rfl)
  · next same => simp [same, Form.isPart] at expression
  · next same => simp [same, Form.isPart] at expression
  · exact Gives.last fun _ _ => gives_pure.mpr (.inl rfl)
  · next same =>
      refine gives_ite (fun _ => gives_pure.mpr (.inr ⟨rfl, ?_, rfl⟩)) fun _ => other
      rw [same]
      rfl
  · next same =>
      refine gives_ite (fun _ => other) fun _ => gives_pure.mpr (.inl ?_)
      simp [Node.isTarget, Node.isReference, same]
  · exact other

/-- Where there are no types, an expression that may be assigned to as it is refers to something. -/
theorem checkAssigned_refers (expression : node.IsExpression) (untyped : setting.flow = false) :
    Gives (checkAssigned node) setting state fun _ _ => node.isReference = true := by
  have checked : ∀ {rule : TargetRule} {result}, rule.types = false →
      rule.check node none = .ok result → node.isReference = true := by
    intro rule result types passes
    rw [TargetRule.check] at passes
    rw [Node.IsExpression] at expression
    unfold Node.isReference
    split at passes <;> simp_all [Form.isPart]
  simp only [checkAssigned, targetRule, isStrict, hasTypes, Gives.bind_iff, gives_get, gives_read,
    gives_pure]
  unfold orRaise
  split
  · next passes => exact gives_pure.mpr (checked untyped passes)
  · exact fun _ _ absent => by cases absent

end Assign

instance {isBinding : Bool} : Plain (targetRule isBinding) :=
  inferInstanceAs (Plain (isStrict >>= _))

instance {node : Node} : Plain (checkAssigned node) :=
  inferInstanceAs (Plain (targetRule _ >>= _))

theorem checkAssigned_still {node : Node} (setting : Setting) (state : State) :
    Gives (checkAssigned node) setting state fun _ after => after = state := by
  have : Looks (targetRule false) := .bind inferInstance fun _ => .tell
  refine gives_look fun rule => ?_
  rw [Gives.bind_iff]
  unfold orRaise
  split
  · exact gives_pure.mpr (gives_pure.mpr rfl)
  · exact fun _ _ absent => by cases absent

instance {nodes : List Node} : Plain (checkReferenced nodes) := by
  have (node : Node) : Plain (match node.form with
      | .typeCastExpression _ _ true => raise node.start .unexpectedTypeCast
      | _ => return ⟨⟩ : Parse PUnit) := by
    split <;> infer_instance
  exact inferInstanceAs (Plain (hasTypes >>= _))

end Grammar

end EcmaSyntax
