import EcmaSyntax.Grammar.Target
import EcmaSyntax.Proofs.Place.Build

namespace EcmaSyntax

namespace Node

variable {source : Source} {node expression annot : Node} {isItem : Bool}

/-- A cast ends with its type, which comes after what is cast. -/
theorem Everywhere.cast_within (sits : node.Sits source)
    (same : node.form = .typeCastExpression expression annot isItem) :
    node.start ≤ expression.start ∧ expression.stop ≤ annot.start ∧ annot.start ≤ annot.stop ∧
      annot.stop ≤ node.stop := by
  have consists : node.parts = [expression, annot] := by
    simp [parts, same, Form.parts, Form.fields]
  have around {part : Node} (inside : part ∈ node.parts) :=
    sits.here.around (by rw [same]; rfl) inside
  have ordered : (Form.typeCastExpression expression annot isItem).Ordered := same ▸ sits.here.cast
  have typed : annot ∈ node.parts := by simp [consists]
  exact ⟨(around (by simp [consists])).1, InRow.pair.mp ordered,
    (sits.within typed).here.ordered, (around typed).2⟩

/-- A parameter that is made of a cast lies in the cast. -/
theorem Everywhere.uncast_liesIn (sits : node.Sits source) : node.uncast.LiesIn node := by
  unfold uncast
  split
  · next expression annot isItem same =>
      obtain ⟨begins, ordered, -, ends⟩ := sits.cast_within same
      have inside : expression ∈ node.parts := by simp [parts, same, Form.parts, Form.fields]
      split
      · next param placed =>
          obtain ⟨takes, -⟩ := withAnnot?_takes placed (sits.within inside).here ordered
          exact ⟨takes.start ▸ begins, ends⟩
      · exact .refl _
  · exact .refl _

/-- An item that gives up its parentheses lies in its former place. -/
theorem Everywhere.prepared_liesIn {types : Bool} (sits : node.Sits source) :
    (node.prepared types).LiesIn node := by
  unfold prepared
  split
  · exact sits.uncast_liesIn
  · exact .refl _

end Node

namespace Grammar

variable {α β : Type} {setting : Setting} {hand : Hand} {first : Nat} {node : Node}
  {form : Form} {final : β → Load}

section Cast

/-- A cast gives way to the parameter that it stands for. -/
theorem castToParameter_places : PlacesAs setting { first := first, given := [node] }
    (castToParameter node) fun _ => { given := [node.uncast] } := by
  unfold castToParameter Node.uncast
  split
  · next expression annot isItem same =>
      refine .held fun known => ?_
      have sits := known.sits node List.mem_cons_self
      obtain ⟨-, ordered, typed, -⟩ := sits.cast_within same
      have consists : node.parts = [expression, annot] := by
        simp [Node.parts, same, Form.parts, Form.fields]
      have inner := sits.within (consists ▸ List.mem_cons_self)
      have annotated := sits.within (consists ▸ List.mem_cons_of_mem _ List.mem_cons_self)
      cases placed : expression.withAnnot? annot with
      | none =>
          exact .ite (fun _ => .stop (.unexpectedAt annotated.here.start)) fun some => absurd rfl some
      | some param =>
          refine .ite (fun none => absurd none (by simp)) fun _ => .takeApart [] (by rw [same]; rfl) ?_
          rw [consists]
          obtain ⟨takes, -⟩ := Node.withAnnot?_takes placed inner.here ordered
          have retaken := takes.ending annot.stop { param.loc with stop := annot.loc.stop }
          rw [← takes.id, ← takes.start]
          refine ⟨fun frame state holds => ?_, fun _ _ _ => attach_strays⟩
          have reached := (holds.sits annot (by simp)).2.stop
          refine (attach_holds retaken holds (Nat.le_trans ordered typed) annotated.here.stop reached
            (List.forall_mem_singleton.mpr ⟨?_, Nat.le_refl _⟩)).mono fun _ _ held => ⟨trivial, held⟩
          exact Nat.le_trans inner.here.ordered ordered
  · exact .pure

/-- Where there are types, casts give way to parameters first. -/
theorem prepare_places {types : Bool} {nodes : List Node} {action : Parse PUnit}
    {rest : PUnit → Parse β}
    (casts : PlacesAs setting { first := first, given := nodes } action
      fun _ => { given := nodes.map Node.uncast })
    (goesOn : PlacesAs setting { first := first, given := nodes.map (Node.prepared types) }
      (rest ⟨⟩) final) :
    PlacesAs setting { first := first, given := nodes }
      (if types = true then action >>= rest else rest ⟨⟩) final := by
  cases types with
  | true => exact .bind casts fun _ _ => goesOn
  | false =>
      have same : nodes.map (Node.prepared false) = nodes := List.map_id nodes
      rwa [same] at goesOn

/-- Items with types are made parameters in their places. -/
theorem castsToParameters_places {nodes : List Node} :
    PlacesAs setting { first := first, given := nodes } (nodes.forM castToParameter)
      fun _ => { given := nodes.map Node.uncast } := by
  induction nodes with
  | nil => exact .pure
  | cons node rest inductionHypothesis =>
      rw [List.forM_eq_forM, List.forM_cons, ← bind_pure (forM rest _)]
      exact .call rest castToParameter_places fun _ _ =>
        .call [node.uncast] inductionHypothesis fun _ _ => .pure

end Cast

section Turn

/-- Targets that lie each in the place of what they are made of. -/
def inPlaces (places targets : List Node) : Load where
  given := targets
  fact := List.Forall₂ Node.LiesIn targets places

@[simp] theorem inPlaces_eq {places targets : List Node} : inPlaces places targets =
    { given := targets, fact := List.Forall₂ Node.LiesIn targets places } := rfl

/-- A target lies in the place of what it is made of. -/
theorem inPlaces_one {target : Node} :
    (inPlaces [node] [target]).fact ↔ target.LiesIn node := by
  simp

/-- A method is refused in its place. -/
theorem refuseMethod_places (sits : node.Sits setting.source) :
    Places setting { first := first } (refuseMethod node) := by
  unfold refuseMethod
  split
  · next kind isAsync isMethod shorthand decorators key function same =>
      have inside : key ∈ node.parts := by simp [Node.parts, same, Form.parts, Form.fields]
      have seam := (sits.within inside).here.start
      exact .ite (fun _ => .raise seam) fun _ => .raise seam
  · exact .pure

/-- What may not be the rest of a list is refused in its place. -/
theorem checkRest_places (sits : node.Sits setting.source) :
    Places setting { first := first } (checkRest node) := by
  unfold checkRest
  split
  · exact .pure
  · exact .pure
  · exact .pure
  · exact .unexpectedAt sits.here.start

/-- A node may change its form if it still consists of the same nodes. -/
theorem takes_form (parts : form.parts = node.form.parts) (plain : node.form.decorators = [])
    (untagged : form.tags? = none) (cast : form.Ordered) :
    node.Takes [] { node with form := form } :=
  ⟨rfl, rfl, rfl, by simpa [Node.parts, parts] using List.Subperm.refl _, by simp [plain],
    by simp [untagged], cast⟩

/-- A decorator is no target. -/
theorem toTarget_refuses {isBinding : Bool} {load : Node → Load}
    (decorator : node.isDecorator = true) (seam : setting.source.Seam node.start) :
    PlacesAs setting hand (toTarget isBinding node) load := by
  unfold Node.isDecorator at decorator
  split at decorator
  · next expression same =>
      have casts : castToParameter node = pure ⟨⟩ := by
        unfold castToParameter
        simp only [same]
      have plain (types : Bool) : node.prepared types = node := by
        unfold Node.prepared Node.uncast
        simp [same]
      have refuses : PlacesAs setting hand (formToTarget isBinding node) load := by
        rw [formToTarget]
        split
        all_goals first
          | exact .raise seam
          | (rw [same] at *; contradiction)
      rw [toTarget]
      refine .step fun types => ?_
      rw [casts, plain types]
      exact .ite (fun _ => .value refuses) fun _ => refuses
  · cases decorator

/-- The nodes from which the targets of some slots are made: if the last one has become the rest
before, it comes apart. -/
def waiting (types : Bool) (closing : Option Node) (slots : List (Option Node)) : List Node :=
  ((if closing.isSome then slots.dropLast else slots).filterMap id).map (Node.prepared types) ++
    closing.toList

section Waiting

variable {types : Bool} {closing slot : Option Node} {rest : List (Option Node)}

/-- Without a rest, all items wait to become targets. -/
theorem waiting_none {slots : List (Option Node)} :
    waiting types none slots = (slots.filterMap id).map (Node.prepared types) :=
  List.append_nil _

/-- The rest of a list waits in the place of the last item. -/
theorem waiting_last (last : (rest.isEmpty && closing.isSome) = true) :
    waiting types closing (slot :: rest) = closing.toList := by
  cases closing <;> cases rest <;> simp_all [waiting]

/-- The items of a list wait one after another. -/
theorem waiting_cons (more : ¬(rest.isEmpty && closing.isSome) = true) :
    waiting types closing (slot :: rest) =
      (slot.map (Node.prepared types)).toList ++ waiting types closing rest := by
  cases closing <;> cases rest <;> cases slot <;> simp_all [waiting]

theorem waiting_more (more : ¬(rest.isEmpty && closing.isSome) = true) (closes : closing.isSome = true) :
    rest ≠ [] := by
  rintro rfl
  exact more (by simpa using closes)

end Waiting

mutual

/-- An expression becomes a target in its place. -/
theorem toTarget_places {first : Nat} {isBinding : Bool} (node : Node) :
    PlacesAs setting { first := first, given := [node] } (toTarget isBinding node)
      fun target => inPlaces [node] [target] := by
  rw [toTarget]
  refine .step fun types => .held fun known => prepare_places castToParameter_places ?_
  have lies : (node.prepared types).LiesIn node :=
    (known.sits node List.mem_cons_self).prepared_liesIn
  exact (formToTarget_places (node.prepared types)).forget fun target made =>
    inPlaces_one.mpr ((inPlaces_one.mp made).trans lies)
termination_by (sizeOf node.form, 1)
decreasing_by
  rcases Nat.lt_or_eq_of_le (node.sizeOf_form_prepared types) with less | same
  · exact Prod.Lex.left _ _ less
  · rw [same]
    exact Prod.Lex.right _ (by decide)

/-- So do the parts of an expression. -/
theorem formToTarget_places {first : Nat} {isBinding : Bool} (node : Node) :
    PlacesAs setting { first := first, given := [node] } (formToTarget isBinding node)
      fun target => inPlaces [node] [target] := by
  have stays : PlacesAs setting { first := first, given := [node] } (pure node : Parse Node)
      fun target => inPlaces [node] [target] :=
    .conclude (inPlaces_one.mpr (.refl _))
  have made (form : Form) : PlacesAs setting
      { first := first, given := [] ++ [{ node with form := form }] }
      (pure { node with form := form } : Parse Node) fun target => inPlaces [node] [target] :=
    .conclude (inPlaces_one.mpr ⟨Nat.le_refl _, Nat.le_refl _⟩)
  have reformed {form : Form} (parts : form.parts = node.form.parts)
      (plain : node.form.decorators = []) (untagged : form.tags? = none) (cast : form.Ordered) :
      PlacesAs setting { first := first, given := [node] }
        (pure { node with form := form } : Parse Node) fun target => inPlaces [node] [target] :=
    .replace [] (takes_form parts plain untagged cast) rfl (made form)
  refine .held fun known => ?_
  have sits := known.sits node List.mem_cons_self
  have seam := sits.here.start
  rw [formToTarget]
  split
  · exact stays
  · exact stays
  · exact stays
  · exact stays
  · next properties annot same =>
      have smaller : sizeOf properties < sizeOf node.form := by
        rw [same]
        simp
        omega
      have consists : node.parts = properties ++ annot.toList := by
        simp [Node.parts, same, Form.parts, Form.fields]
      have within (child : Node) (inside : child ∈ properties) :=
        sits.here.around (by rw [same]; rfl) (consists ▸ List.mem_append_left _ inside)
      have row : (Form.objectExpression properties annot).Ordered := same ▸ sits.here.cast
      exact .rebuild [] annot.toList properties (fun targets => .objectPattern targets annot false)
        (consists ▸ List.perm_append_comm) within (propertiesToTargets_places properties)
        (fun _ lie child inside =>
          have ⟨property, held, lies⟩ := Node.LiesIn.of_mem lie inside
          Nat.le_trans lies.stop (within property held).2)
        (fun _ => rfl) (by simp [Form.parts, Form.fields])
        (by simp [same, Form.decorators, List.Subperm.refl]) (fun _ lie => Node.LiesIn.row lie row) (fun _ _ => made _)
        (by rw [same]; rfl) fun _ => rfl
  · next method shorthand computed decorators key value same =>
      have smaller : sizeOf value.form < sizeOf node.form := by
        have := value.sizeOf_form_lt
        rw [same]
        simp
        omega
      have consists : node.parts = (decorators ++ [key]) ++ [value] := by
        simp [Node.parts, same, Form.parts, Form.fields]
      have inside : value ∈ node.parts := by simp [consists]
      have ordered : Form.Ordered (.objectProperty method shorthand computed decorators key value) :=
        same ▸ sits.here.cast
      rcases sits.here.inside.of_mem inside with decorator | within
      · exact .stop (.exchange [] [] [node] [] [] [] (toTarget_refuses decorator.2
          (sits.within inside).here.start) .rfl .rfl (by simp) (by simp) (by simp) (by simp)
          (by simp))
      · exact .rebuild [] (decorators ++ [key]) [value]
          (fun target => .objectProperty method shorthand computed decorators key target)
          (consists ▸ .refl _) (List.forall_mem_singleton.mpr within) (toTarget_places value)
          (fun target lie => List.forall_mem_singleton.mpr
            (Nat.le_trans (inPlaces_one.mp lie).stop within.2))
          (fun _ => rfl) (by simp [Form.parts, Form.fields])
          (by simp [same, Form.decorators, List.Subperm.refl])
          (fun target lie => ⟨ordered.1, Nat.le_trans ordered.2 (inPlaces_one.mp lie).start⟩)
          (fun _ _ => made _) (by rw [same]; rfl) fun _ => rfl
  · next argument same =>
      exact reformed (by rw [same]; rfl) (by rw [same]; rfl) rfl (.single argument)
  · next elements annot same =>
      have smaller : sizeOf elements < sizeOf node.form := by
        rw [same]
        simp
        omega
      have consists : node.parts = elements.filterMap id ++ annot.toList := by
        simp [Node.parts, same, Form.parts, Form.fields]
      have within (child : Node) (inside : child ∈ elements.filterMap id) :=
        sits.here.around (by rw [same]; rfl) (consists ▸ List.mem_append_left _ inside)
      have row : (Form.arrayExpression elements annot).Ordered := same ▸ sits.here.cast
      exact .rebuild [] annot.toList (elements.filterMap id)
        (fun targets => .arrayPattern targets annot false)
        (consists ▸ List.perm_append_comm) within (elementsToTargets_places elements)
        (fun _ lie child inside =>
          have ⟨element, held, lies⟩ := Node.LiesIn.of_mem lie inside
          Nat.le_trans lies.stop (within element held).2)
        (fun _ => rfl) (by simp [Form.parts, Form.fields])
        (by simp [same, Form.decorators, List.Subperm.refl]) (fun _ lie => Node.LiesIn.row lie row) (fun _ _ => made _)
        (by rw [same]; rfl) fun _ => rfl
  · next operator left right annot same =>
      have inside : left ∈ node.parts := by simp [Node.parts, same, Form.parts, Form.fields]
      have row : (Form.assignmentExpression operator left right annot).Ordered :=
        same ▸ sits.here.cast
      exact .ite (fun _ => reformed (by rw [same]; rfl) (by rw [same]; rfl) rfl row)
        fun _ => .raise (sits.within inside).here.stop
  · exact .ite (fun _ => .raise seam) fun _ => stays
  · exact .raise seam
termination_by (sizeOf node.form, 0)
decreasing_by all_goals exact Prod.Lex.left _ _ ‹_›

/-- The properties of an object become targets in their places. -/
theorem propertiesToTargets_places {first : Nat} {isBinding : Bool} (properties : List Node) :
    PlacesAs setting { first := first, given := properties }
      (propertiesToTargets isBinding properties) (inPlaces properties) := by
  match properties with
  | [] =>
      rw [propertiesToTargets]
      exact .pure
  | property :: rest =>
      rw [propertiesToTargets]
      refine .held fun known => .check (refuseMethod_places (known.sits property (by simp)))
        fun _ => ?_
      refine .call rest (toTarget_places property) fun target made => ?_
      refine .call [target] (propertiesToTargets_places rest) fun targets further => ?_
      exact .conclude (.cons (inPlaces_one.mp made.fact) further.fact)
termination_by (sizeOf properties, 0)
decreasing_by
  · have := property.sizeOf_form_lt
    exact Prod.Lex.left _ _ (by simp only [List.cons.sizeOf_spec]; omega)
  · exact Prod.Lex.left _ _ (by simp only [List.cons.sizeOf_spec]; omega)

/-- The elements of an array become targets in their places. -/
theorem elementsToTargets_places {first : Nat} {isBinding : Bool} (elements : List (Option Node)) :
    PlacesAs setting { first := first, given := elements.filterMap id }
      (elementsToTargets isBinding elements)
      fun targets => inPlaces (elements.filterMap id) (targets.filterMap id) := by
  rw [elementsToTargets]
  refine .step fun types => .held fun known => prepare_places castsToParameters_places ?_
  have lie : List.Forall₂ Node.LiesIn ((elements.filterMap id).map (Node.prepared types))
      (elements.filterMap id) :=
    List.forall₂_map_left_iff.mpr (List.forall₂_same.mpr fun element inside =>
      (known.sits element inside).prepared_liesIn)
  have plain : PlacesAs setting
      { first := first, given := (elements.filterMap id).map (Node.prepared types) }
      (slotsToTargets isBinding types none elements)
      fun targets => inPlaces (elements.filterMap id) (targets.filterMap id) := by
    rw [← waiting_none] at lie ⊢
    exact (slotsToTargets_places none elements nofun).forget fun _ made =>
      Node.LiesIn.trans_all made lie
  split
  · next last closes =>
      have parted : elements = elements.dropLast ++ [some last] := by
        obtain ⟨init, rfl⟩ := List.getLast?_eq_some_iff.mp closes
        simp
      have inside : last ∈ elements.filterMap id := by
        rw [parted]
        simp
      have whole : (elements.filterMap id).map (Node.prepared types) =
          (elements.dropLast.filterMap id).map (Node.prepared types) ++ [last.prepared types] := by
        conv_lhs => rw [parted]
        simp
      have filled : elements ≠ [] := by
        rw [parted]
        simp
      -- what closes the list stands in the place of its last element
      have closed (closing : Node) (lies : closing.LiesIn (last.prepared types)) :
          List.Forall₂ Node.LiesIn (waiting types (some closing) elements) (elements.filterMap id) := by
        rw [whole] at lie
        refine Node.LiesIn.trans_all (List.rel_append (R := Node.LiesIn)
          (List.forall₂_same.mpr fun node _ => .refl node) (.cons lies .nil)) lie
      split
      · next argument same =>
          have smaller : sizeOf argument.form < sizeOf elements := by
            have inside := List.sizeOf_lt_of_mem (List.mem_of_getLast? closes)
            have form := last.sizeOf_form_lt
            have prepared := last.sizeOf_form_prepared types
            have below := argument.sizeOf_form_lt
            rw [same] at prepared
            simp at inside prepared
            omega
          have consists : (last.prepared types).parts.Perm ([] ++ [argument]) := by
            simp [Node.parts, same, Form.parts, Form.fields]
          rw [whole]
          refine .held fun prepared => ?_
          have sits := prepared.sits (last.prepared types) (by simp)
          have within := sits.here.around (by rw [same]; rfl)
            (consists.mem_iff.mpr List.mem_cons_self)
          refine .rebuild ((elements.dropLast.filterMap id).map (Node.prepared types)) [] [argument]
            (fun target => .restElement target none false) consists
            (List.forall_mem_singleton.mpr within) (toTarget_places argument)
            (fun _ lie => List.forall_mem_singleton.mpr
              (Nat.le_trans (inPlaces_one.mp lie).stop within.2))
            (fun _ => rfl) (by simp [Form.parts, Form.fields])
            (by simp [same, Form.decorators, List.Subperm.refl]) (fun _ _ => InRow.single _)
            (fun target _ => .held fun rebuilt => ?_) (by rw [same]; rfl) (fun _ => rfl)
          have rest := rebuilt.sits _ (List.mem_append_right _ List.mem_cons_self)
          refine .check (checkRest_places (rest.within ?_)) fun _ =>
            (slotsToTargets_places (some _) elements fun _ => filled).forget fun _ made =>
              Node.LiesIn.trans_all made (closed _ ⟨Nat.le_refl _, Nat.le_refl _⟩)
          simp [Node.parts, Form.parts, Form.fields]
      · rw [whole]
        exact (slotsToTargets_places (some (last.prepared types)) elements fun _ => filled).forget
          fun _ made => Node.LiesIn.trans_all made (closed _ (.refl _))
      · exact plain
  · exact plain
termination_by (sizeOf elements, 1)
decreasing_by
  all_goals first
    | exact Prod.Lex.left _ _ ‹_›
    | exact Prod.Lex.right _ (by decide)

/-- The items of a list become targets in their places, the last one also if it is spread. -/
theorem slotsToTargets_places {first : Nat} {isBinding types : Bool} (closing : Option Node)
    (elements : List (Option Node)) (filled : closing.isSome = true → elements ≠ []) :
    PlacesAs setting { first := first, given := waiting types closing elements }
      (slotsToTargets isBinding types closing elements)
      fun targets => inPlaces (waiting types closing elements) (targets.filterMap id) := by
  have closed : PlacesAs setting { first := first, given := closing.toList }
      (pure [closing] : Parse (List (Option Node)))
      fun targets => inPlaces closing.toList (targets.filterMap id) := by
    cases closing with
    | none => exact .conclude (by simp)
    | some node => exact .conclude (by simpa using Node.LiesIn.refl node)
  match elements with
  | [] =>
      rw [slotsToTargets]
      cases closing with
      | none => exact .conclude .nil (by simp [waiting])
      | some node => exact absurd rfl (filled rfl)
  | none :: rest =>
      rw [slotsToTargets]
      refine .ite (fun last => waiting_last last ▸ closed) fun more => ?_
      rw [waiting_cons more]
      exact .bind (.last (slotsToTargets_places closing rest (waiting_more more)))
        fun targets made => .conclude made.fact
  | some node :: rest =>
      rw [slotsToTargets]
      refine .ite (fun last => waiting_last last ▸ closed) fun more => ?_
      rw [waiting_cons more]
      refine .call (waiting types closing rest) (formToTarget_places _) fun target made => ?_
      refine .call [target] (slotsToTargets_places closing rest (waiting_more more))
        fun targets further => ?_
      exact .conclude (.cons (inPlaces_one.mp made.fact) further.fact)
termination_by (sizeOf elements, 0)
decreasing_by
  · exact Prod.Lex.left _ _ (by simp only [List.cons.sizeOf_spec]; omega)
  · have := node.sizeOf_form_lt
    have := node.sizeOf_form_prepared types
    exact Prod.Lex.left _ _
      (by simp only [List.cons.sizeOf_spec, Option.some.sizeOf_spec]; omega)
  · exact Prod.Lex.left _ _ (by simp only [List.cons.sizeOf_spec]; omega)

end

/-- The items in parentheses become parameters in their places. -/
theorem toParameters_places {expressions : List Node} :
    PlacesAs setting { first := first, given := expressions } (toParameters expressions)
      (inPlaces expressions) := by
  have same : (expressions.map some).filterMap id = expressions := by simp
  have targets : PlacesAs setting { first := first, given := (expressions.map some).filterMap id }
      (elementsToTargets true (expressions.map some)) fun targets =>
        inPlaces ((expressions.map some).filterMap id) (targets.filterMap id) :=
    elementsToTargets_places (expressions.map some)
  rw [same] at targets
  exact .take targets fun targets made => .conclude made.fact

end Turn

section Check

/-- If a check fails, it does so at an offset of such a kind. -/
def Refuses {α : Type} (good : Nat → Prop) (result : Except Refusal α) : Prop :=
  ∀ refusal, result = .error refusal → good refusal.pos

variable {source : Source} {rule : TargetRule} {good : Nat → Prop}

theorem Refuses.ok {value : α} : Refuses good (.ok value) := nofun

theorem Refuses.error {refusal : Refusal} (known : good refusal.pos) :
    Refuses (α := α) good (.error refusal) := by
  rintro _ ⟨rfl⟩
  exact known

theorem Refuses.bind {result : Except Refusal α} {next : α → Except Refusal β}
    (begins : Refuses good result) (goesOn : ∀ value, Refuses good (next value)) :
    Refuses good (result >>= next) := by
  cases result with
  | ok value => exact goesOn value
  | error refusal => exact .error (begins refusal rfl)

theorem Refuses.ite {condition : Prop} [Decidable condition] {first second : Except Refusal α}
    (holds : condition → Refuses good first) (fails : ¬condition → Refuses good second) :
    Refuses good (if condition then first else second) := by
  split
  · exact holds ‹_›
  · exact fails ‹_›

/-- A name that may not be bound is refused in its place. -/
theorem TargetRule.checkName_refuses {pos : Nat} {name : String} {names : Option (List String)}
    (known : good pos) : Refuses good (rule.checkName pos name names) := by
  unfold TargetRule.checkName
  refine .ite (fun _ => .error known) fun _ => ?_
  split
  · exact .ok
  · exact .ite (fun _ => .error known) fun _ => .ok

mutual

/-- What is refused in a target starts at a seam. -/
theorem TargetRule.check_refuses (node : Node) {names : Option (List String)}
    (sits : node.Sits source) : Refuses source.Seam (rule.check node names) := by
  have seam := sits.here.start
  have within {form : Form} (same : node.form = form) {part : Node} (inside : part ∈ form.parts) :
      part.Sits source := sits.within (by rwa [Node.parts, same])
  rw [TargetRule.check]
  split
  · exact checkName_refuses seam
  · exact .ite (fun _ => .error seam) fun _ => .ok
  · next properties _ _ same =>
      exact TargetRule.checkProperties_refuses properties fun property inside =>
        within same (by simp [Form.parts, Form.fields, inside])
  · next elements _ _ same =>
      refine TargetRule.checkElements_refuses elements fun element inside => within same ?_
      exact Form.mem_parts.mpr ⟨("elements", .holes elements), by simp [Form.fields], inside⟩
  · next left _ _ same =>
      exact TargetRule.check_refuses left (within same (by simp [Form.parts, Form.fields]))
  · next argument same =>
      exact TargetRule.check_refuses argument (within same (by simp [Form.parts, Form.fields]))
  · next argument _ _ same =>
      exact TargetRule.check_refuses argument (within same (by simp [Form.parts, Form.fields]))
  · exact .ite (fun _ => .ok) fun _ => .error seam
  · exact .error seam
termination_by sizeOf node
decreasing_by
  all_goals
    have below := node.sizeOf_form_lt
    rw [‹node.form = _›] at below
    simp at below
    omega

/-- What is no target in an object is refused in its place. -/
theorem TargetRule.checkProperties_refuses (properties : List Node)
    {names : Option (List String)} (sits : ∀ property ∈ properties, property.Sits source) :
    Refuses source.Seam (rule.checkProperties properties names) := by
  match properties with
  | [] =>
      rw [TargetRule.checkProperties]
      exact .ok
  | property :: rest =>
      obtain ⟨first, others⟩ := List.forall_mem_cons.mp sits
      rw [TargetRule.checkProperties]
      split
      · next value same =>
          refine .bind (TargetRule.check_refuses value (first.within ?_)) fun _ =>
            TargetRule.checkProperties_refuses rest others
          simp [Node.parts, same, Form.parts, Form.fields]
      · exact .bind (TargetRule.check_refuses property first) fun _ =>
          TargetRule.checkProperties_refuses rest others
termination_by sizeOf properties
decreasing_by
  · have below := property.sizeOf_form_lt
    rw [‹property.form = _›] at below
    simp at below ⊢
    omega
  all_goals
    simp only [List.cons.sizeOf_spec]
    omega

/-- What is no target in an array is refused in its place. -/
theorem TargetRule.checkElements_refuses (elements : List (Option Node))
    {names : Option (List String)} (sits : ∀ element ∈ elements.filterMap id, element.Sits source) :
    Refuses source.Seam (rule.checkElements elements names) := by
  match elements with
  | [] =>
      rw [TargetRule.checkElements]
      exact .ok
  | none :: rest =>
      rw [TargetRule.checkElements]
      exact TargetRule.checkElements_refuses rest sits
  | some element :: rest =>
      obtain ⟨first, others⟩ := List.forall_mem_cons.mp sits
      rw [TargetRule.checkElements]
      exact .bind (TargetRule.check_refuses element first) fun _ =>
        TargetRule.checkElements_refuses rest others
termination_by sizeOf elements

end

/-- What is no target in a list is refused in its place. -/
theorem TargetRule.checkAll_refuses {targets : List Node} {names : Option (List String)}
    (sits : ∀ target ∈ targets, target.Sits source) :
    Refuses source.Seam (rule.checkAll targets names) := by
  unfold TargetRule.checkAll
  induction targets generalizing names with
  | nil => exact .ok
  | cons target rest inductionHypothesis =>
      obtain ⟨first, others⟩ := List.forall_mem_cons.mp sits
      rw [List.foldlM_cons]
      exact .bind (TargetRule.check_refuses target first) fun _ => inductionHypothesis others

instance {isBinding : Bool} : Reads (targetRule isBinding) :=
  inferInstanceAs (Reads (isStrict >>= _))

/-- A refusal in its place becomes a problem in its place. -/
theorem orRaise_places {result : Except Refusal α} {rest : α → Parse β}
    (refuses : Refuses setting.source.Seam result)
    (goesOn : ∀ value, PlacesAs setting hand (rest value) final) :
    PlacesAs setting hand (orRaise result >>= rest) final := by
  cases result with
  | ok value => exact .value (goesOn value)
  | error refusal => exact .raised (refuses refusal rfl)

/-- What may not be assigned to is refused in its place. -/
theorem checkAssigned_places (sits : node.Sits setting.source) :
    Places setting { first := first } (checkAssigned node) :=
  .step fun _ => orRaise_places (TargetRule.check_refuses node sits) fun _ => .pure

/-- What may not be bound is refused in its place. -/
theorem checkBound_places (sits : node.Sits setting.source) :
    Places setting { first := first } (checkBound node) :=
  .step fun _ => orRaise_places (TargetRule.check_refuses node sits) fun _ => .pure

/-- A name that is bound twice is refused in its place. -/
theorem checkBoundOnce_places (sits : node.Sits setting.source) :
    Places setting { first := first } (checkBoundOnce node) :=
  .step fun _ => orRaise_places (TargetRule.check_refuses node sits) fun _ => .pure

/-- A reference that no type may be for is refused in its place. -/
theorem checkReferenced_places {nodes : List Node} (sits : ∀ node ∈ nodes, node.Sits setting.source) :
    Places setting { first := first } (checkReferenced nodes) := by
  refine .step fun _ => .ite (fun _ => ?_) fun _ => .pure
  induction nodes with
  | nil => exact .pure
  | cons node rest inductionHypothesis =>
      obtain ⟨here, others⟩ := List.forall_mem_cons.mp sits
      refine .check ?_ fun _ => inductionHypothesis others
      dsimp only
      split
      · exact .raise here.here.start
      · exact .pure

end Check

end Grammar

end EcmaSyntax
