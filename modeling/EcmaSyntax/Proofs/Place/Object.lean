import EcmaSyntax.Grammar.Expression.Object
import EcmaSyntax.Proofs.Place.Function

namespace EcmaSyntax

namespace Grammar

variable {setting : Setting} {rules : Rules} {first : Nat} {mark : Mark} {node : Node}
  {isPattern : Bool} {passed : List Nat}

section Decorator

variable (placed : rules.Placed setting)

include placed

/-- A decorator is made in its place. -/
theorem decorator_places : PlacesAs setting { first := first } (decorator rules)
    fun node => { given := [node], fact := node.isDecorator = true } :=
  .onMark fun _ => .pass fun _ => .read (assignment_places placed) fun _ _ =>
    (PlacesAs.finishAs).forget fun _ formed => by simp [Node.isDecorator, formed.form]

/-- Decorators are kept until the node comes that they belong to. -/
theorem decoratorList_places : PlacesAs setting { first := first } (decoratorList rules)
    fun nodes => { loose := nodes, fact := InRow nodes } :=
  .loopAs (fun nodes => { loose := nodes, fact := InRow nodes.reverse })
    (fun nodes gathered => .step fun _ => .ite
      (fun _ => .read (decorator_places placed) fun node known => .setAside [] known.fact
        (.conclude (gathered.gather (known.apart node List.mem_cons_self))))
      fun _ => .conclude gathered) .nil

end Decorator

section Key

/-- A key, which is a single token unless it is computed. -/
def keyed (key : Node × Bool) : Load where
  given := [key.1]
  fact := key.2 = false → key.1.parts = []

@[simp] theorem keyed_eq {key : Node × Bool} :
    keyed key = { given := [key.1], fact := key.2 = false → key.1.parts = [] } := rfl

/-- The key of a property is made in its place. -/
theorem propertyKey_places (placed : rules.Placed setting) :
    PlacesAs setting { first := first } (propertyKey rules) keyed :=
  .step fun _ => .ite (fun _ => .read (assignment_places placed) fun _ _ => .step fun _ => .pure)
    fun _ => .bind propertyLabel_leaf fun _ made => .conclude fun _ => made.fact

/-- A key that is not computed starts with the current token. -/
theorem propertyKey_starts {state : State} : Gives (propertyKey rules) setting state fun key _ =>
    key.2 = false → key.1.start = state.lexer.start := by
  rw [propertyKey, Gives.bind_iff]
  refine eat_stays.mono fun taken after stays => gives_ite (fun _ => ?_) fun plain => ?_
  · exact Gives.last fun _ _ => Gives.last fun _ _ => gives_pure.mpr nofun
  · rw [Gives.bind_iff]
    exact (propertyLabel_starts setting after).mono fun _ _ start =>
      gives_pure.mpr fun _ => start.trans (stays (Bool.not_eq_true _ ▸ plain))

/-- A shorthand that is a reserved word is refused in its place. -/
theorem checkShorthand_places {name : String} (sits : node.Sits setting.source) :
    Places setting { first := first } (checkShorthand node name) :=
  .step fun _ => .step fun _ => .ite (fun _ => .raise sits.here.start) fun _ => .pure

end Key

section Property

variable {head : PropertyHead} {name : String} {kind : MethodKind}

/-- What has been read of a property: its decorators before its mark, and a key, which is a single
token at the mark unless more has been passed before it. -/
structure PropertyHead.Begun (head : PropertyHead) : Prop where
  decorators : RowBefore head.mark.pos head.decorators
  leaf : head.computed = false → head.key.parts = []
  start : head.generator = false → head.isAsync = false → head.computed = false →
    head.key.start = head.mark.pos

/-- A method takes the type parameters between its key and its own parameters. -/
theorem withTypeParameters_takes {typeParameters key : Node} {decorators : List Node}
    {kind : MethodKind} {method shorthand computed : Bool} {function : FunctionForm}
    (same : node.form = .objectMethod kind method shorthand computed decorators key function)
    (ordered : node.form.Ordered) (unnamed : function.id = none)
    (before : ∀ part ∈ decorators ++ [key], part.stop ≤ typeParameters.start)
    (after : ∀ part ∈ function.parts, typeParameters.stop ≤ part.start) :
    node.Takes [typeParameters] (withTypeParameters node typeParameters) ∧
      (withTypeParameters node typeParameters).stop = node.stop := by
  have row : InRow (decorators ++ [key] ++ function.children) :=
    (same ▸ ordered : Form.Ordered (.objectMethod ..))
  rcases node with ⟨id, form, start, stop, loc, extra⟩
  obtain rfl : form = _ := same
  refine ⟨⟨rfl, rfl, rfl, ?_, .refl _, List.nil_sublist _, ?_⟩,
    rfl⟩
  · classical
    refine List.subperm_iff_count.mpr fun part => ?_
    simp [withTypeParameters, Node.parts, Form.parts, Form.fields, FunctionForm.fields,
      List.count_cons]
    omega
  · let rest := function.params ++ function.returnType.toList ++ [function.body]
    have consists : function.children = function.typeParameters.toList ++ rest := by
      simp [FunctionForm.children, unnamed, rest]
    have among : rest.Sublist function.children := consists ▸ List.sublist_append_right _ _
    have longer : InRow (decorators ++ [key] ++ typeParameters :: rest) :=
      (row.sublist (among.append_left _)).insert before fun part inside =>
        after part (function.children_eq_parts ▸ among.subset inside)
    simpa [withTypeParameters, Form.Ordered, Form.children, FunctionForm.children, unnamed, rest]
      using longer

/-- After a parenthesis that has been seen, a property is a method. -/
theorem plainPropertyTail_atParen {β : Type} (next : Cover Node → Parse β) : (do
      if !(← atKind .parenL) then unexpected
      next (← plainPropertyTail rules head isPattern)) = (do
      if !(← atKind .parenL) then unexpected
      if isPattern then unexpected
      next { value := ← methodProperty rules head }) := by
  funext setting state
  have seen {γ : Type} (rest : Bool → Parse γ) : (atKind .parenL >>= rest) setting state =
      rest (state.lexer.kind == .parenL) setting state := rfl
  rw [seen, seen]
  cases atParen : state.lexer.kind == .parenL with
  | false => rfl
  | true =>
      simp only [plainPropertyTail, bind_assoc, Bool.not_true, Bool.false_eq_true, if_false]
      rw [seen, atParen]
      cases isPattern <;> simp

variable (placed : rules.Placed setting) (begun : head.Begun)

include placed begun

/-- A method with the key that has been read, and with a function that comes after some offsets. -/
structure MethodSince (head : PropertyHead) (passed : List Nat) (node : Node) : Prop where
  form : ∃ function, node.form =
    .objectMethod .plain true false head.computed head.decorators head.key function ∧
    function.id = none ∧ ∀ part ∈ function.parts, ∀ pos ∈ passed, pos ≤ part.start
  start : node.start = head.mark.pos
  ends : ∀ pos ∈ passed, pos ≤ node.stop

/-- A method of an object is made in its place. -/
theorem methodProperty_places :
    PlacesAs setting
      { first := head.mark.pos, given := [head.key], loose := head.decorators, past := passed }
      (methodProperty rules head)
      fun node => { given := [node], fact := MethodSince head passed node } := by
  have function {first : Nat} : PlacesAs setting { first := first }
      (method rules { generator := head.generator, isAsync := head.isAsync } .plain)
      (FunctionHead.named { generator := head.generator, isAsync := head.isAsync }) :=
    .last (method_places placed InRow.nil rfl)
  refine .read function fun function known => .held fun held =>
    (PlacesAs.finishAs ?_).forget fun node formed => ?_
  · exact begun.decorators.method (known.extend (.single head.key) known.fact.1) held.begins
  · exact ⟨⟨function, formed.form, known.fact.2, known.passed⟩, formed.start,
      fun pos inside => formed.past pos (by simpa using inside)⟩

/-- An accessor of an object is made in its place. -/
theorem accessorProperty_places :
    Places setting { first := head.mark.pos, given := [head.key], loose := head.decorators }
      (accessorProperty rules head kind) := by
  have function {first : Nat} : PlacesAs setting { first := first } (method rules {} kind)
      (FunctionHead.named {}) := .last (method_places placed InRow.nil rfl)
  refine .drop [] [head.key] (.read (propertyKey_places placed) fun (key, computed) _ =>
    .read function fun function known => .held fun held => .guard (fun _ => .raise held.first) ?_)
  exact .finish
    (begun.decorators.method (known.extend (.single key) known.fact.1) held.begins)

/-- A property with a value is made in its place. -/
theorem valueProperty_places :
    Places setting { first := head.mark.pos, given := [head.key], loose := head.decorators }
      (valueProperty rules head isPattern) := by
  have rest (value : Cover Node) (seams : Pending setting.source value.pending)
      (after : head.key.stop ≤ value.value.start) :
      Places setting {
          first := head.mark.pos, given := [head.key, value.value], loose := head.decorators } (do
        let node ← finish head.mark
          (.objectProperty false false head.computed head.decorators head.key value.value)
        return { value with value := node }) := by
    refine .held fun held => .bind (.finish ⟨?_, ?_⟩) fun _ _ => .conclude ⟨trivial, seams⟩
    · exact begun.decorators.append (.single head.key)
        (List.forall_mem_singleton.mpr (held.begins head.key List.mem_cons_self))
    · exact Nat.le_trans (held.sits head.key List.mem_cons_self).here.ordered after
  exact .ite
    (fun _ => .read (bindingElement_places placed) fun value known => .value (.last
      (rest ⟨value, none⟩ pending_none (known.after value List.mem_cons_self _ List.mem_cons_self))))
    fun _ => .read (placed.assignment false false) fun value known => .last
      (rest value known.fact.2 (known.after value.value (by simp) _ List.mem_cons_self))

/-- A shorthand is made in its place, with its default. -/
theorem shorthandProperty_places (leaf : head.key.parts = []) (start : head.key.start = head.mark.pos) :
    Places setting { first := head.mark.pos, given := [head.key], loose := head.decorators }
      (shorthandProperty rules head name isPattern) := by
  have rest (pending : Option Nat) (seams : Pending setting.source pending) :
      Places setting { first := head.mark.pos, given := [head.key], loose := head.decorators } (do
          let copy ← duplicate head.key
          let value ← withDefault rules head.mark copy
          let node ← finish head.mark
            (.objectProperty false true false head.decorators head.key value)
          return { value := node, pending } : Parse (Cover Node)) := by
    refine .call [] (.duplicate leaf) fun copy _ => .call [head.key]
      (withDefault_places placed head.mark) fun value made => .bind (.finish ⟨?_, ?_⟩)
        fun node _ => .conclude ⟨trivial, seams⟩
    · exact begun.decorators.append (.single head.key)
        (List.forall_mem_singleton.mpr (Nat.le_of_eq start.symm))
    · exact Nat.le_trans (Nat.le_of_eq start) (made.begins value List.mem_cons_self)
  unfold shorthandProperty
  refine .held fun known => .guard
    (fun _ => checkShorthand_places (known.sits head.key List.mem_cons_self)) ?_
  refine .onGet fun state sited => .step fun hasDefault => rest _ fun pos inside => ?_
  obtain ⟨-, same⟩ := Option.ite_none_right_eq_some.mp inside
  exact Option.some.inj same ▸ sited.posted.start

/-- What follows the key of a plain property is made in its place. -/
theorem plainPropertyTail_places :
    Places setting { first := head.mark.pos, given := [head.key], loose := head.decorators }
      (plainPropertyTail rules head isPattern) := by
  refine .step fun _ => .ite (fun _ => .guard (fun _ => .reads) ?_) fun plain => .step fun _ =>
    .ite (fun _ => valueProperty_places placed begun) fun _ => ?_
  · exact .bind (methodProperty_places placed begun) fun _ _ => .conclude ⟨trivial, pending_none⟩
  · obtain ⟨own, sync⟩ : head.generator = false ∧ head.isAsync = false := by
      simp only [Bool.or_eq_true, not_or, Bool.not_eq_true] at plain
      exact plain.1
    split
    · exact .unexpected
    · next name named =>
        have written : head.computed = false := by
          unfold PropertyHead.plainName? at named
          split at named <;> simp_all
        have shorthand : Places setting
            { first := head.mark.pos, given := [head.key], loose := head.decorators }
            (shorthandProperty rules head name isPattern) :=
          shorthandProperty_places placed begun (begun.leaf written) (begun.start own sync written)
        split
        · exact .step fun _ => .step fun _ => .ite (fun _ => shorthand)
            fun _ => .ite (fun _ => .unexpected) fun _ =>
              .bind (accessorProperty_places placed begun) fun _ _ => .conclude ⟨trivial, pending_none⟩
        · exact shorthand

/-- What follows the key of a property is made in its place. -/
theorem propertyTail_places :
    Places setting { first := head.mark.pos, given := [head.key], loose := head.decorators }
      (propertyTail rules head isPattern) := by
  refine .read (genericHead?_places placed) fun typeParameters? known => ?_
  split
  · next typeParameters =>
      have method : PlacesAs setting {
          first := head.mark.pos, given := [head.key], loose := head.decorators
          past := [typeParameters.stop] } (methodProperty rules head) _ :=
        methodProperty_places placed begun
      rw [plainPropertyTail_atParen]
      refine .remember (List.mem_append_right _ (List.mem_singleton_self typeParameters))
        (Nat.le_refl _) <| .step fun _ => .guard (fun _ => .reads) <| .guard (fun _ => .reads) <|
          .held fun held => .lendAt [typeParameters] [] .first method (fun property made => ?_)
            (List.forall_mem_singleton.mpr (held.begins head.key (by simp)))
      obtain ⟨⟨function, same, unnamed, after⟩, starts, ends⟩ := made.fact
      have before : ∀ part ∈ head.decorators ++ [head.key], part.stop ≤ typeParameters.start := by
        intro part inside
        rcases List.mem_append.mp inside with decorator | key
        · exact known.apart typeParameters (by simp) part decorator
        · exact known.after typeParameters (by simp) part key
      obtain ⟨takes, stop⟩ := withTypeParameters_takes same
        (made.sits property List.mem_cons_self).here.cast unnamed before
        fun part inside => after part inside _ List.mem_cons_self
      exact .replace [] takes stop (.conclude ⟨trivial, pending_none⟩) (List.forall_mem_singleton.mpr
        ⟨starts ▸ held.begins typeParameters (by simp), ends _ List.mem_cons_self⟩) (.swap ..)
  · exact .last (plainPropertyTail_places placed begun)

end Property

section Property

variable (placed : rules.Placed setting) {decorators : List Node}
  (before : RowBefore mark.pos decorators)

include placed before

/-- The key of a property has been read, which starts at the mark if nothing stands before it. -/
theorem keyedProperty_places {generator isAsync : Bool} (key : Node × Bool)
    (leaf : key.2 = false → key.1.parts = [])
    (start : generator = false → isAsync = false → key.2 = false → key.1.start = mark.pos) :
    Places setting { first := mark.pos, given := [key.1], loose := decorators }
      (propertyTail rules ⟨mark, decorators, key.1, key.2, generator, isAsync⟩ isPattern) :=
  have begun : PropertyHead.Begun ⟨mark, decorators, key.1, key.2, generator, isAsync⟩ :=
    ⟨before, leaf, start⟩
  propertyTail_places placed begun

/-- A generator in an object is made in its place. -/
theorem starredProperty_places :
    Places setting { first := mark.pos, loose := decorators }
      (propertyRest rules mark decorators isPattern true) :=
  .step fun _ => .ite (fun _ => .fail) fun _ => .read (propertyKey_places placed) fun key known =>
    .last (keyedProperty_places placed before key known.fact nofun)

/-- A property without a star is made in its place. -/
theorem bareProperty_places :
    PlacesHere setting { first := mark.pos, loose := decorators }
      (propertyRest rules mark decorators isPattern false) (Bears.load setting.source) := by
  refine .look fun _ => .ite (fun _ => .ite nofun fun _ => ?_) fun _ => ?_
  · refine .lend [] decorators (.knowing (fun start word => word.start = start) identifier_leaf
      (identifier_starts setting)) fun word known => .step fun _ => ?_
    have named : Places setting { first := mark.pos, given := [word], loose := decorators }
        (propertyTail rules ⟨mark, decorators, word, false, false, false⟩ isPattern) :=
      keyedProperty_places placed before (word, false) (fun _ => known.fact.1)
        fun _ _ _ => known.fact.2
    split
    · exact .last named
    · exact .last named
    · exact .last named
    · exact .last named
    · exact .last named
    · exact .drop [] [word] (.step fun generator => .read (propertyKey_places placed) fun key known =>
        .last (keyedProperty_places placed before key known.fact fun _ => nofun))
  · exact .lend [] decorators (.knowing (fun start key => key.2 = false → key.1.start = start)
      (propertyKey_places placed) fun _ => propertyKey_starts) fun key known =>
        .last (keyedProperty_places placed before key known.fact.1 fun _ _ => known.fact.2)

/-- A property is made in its place. -/
theorem property_places :
    PlacesHere setting { first := mark.pos, loose := decorators }
      (property rules mark decorators isPattern) (Bears.load setting.source) :=
  .ite (fun _ => .value (bareProperty_places placed before)) fun _ => .test (fun _ => eat_stays)
    (starredProperty_places placed before) (bareProperty_places placed before)

omit before in
/-- A spread in an object is made in its place. -/
theorem spreadProperty_places : Places setting { first := mark.pos }
    (spreadProperty rules mark isPattern) := by
  refine .step fun _ => .read (assignment_places placed) fun argument _ => ?_
  split
  · exact .finish
  · exact .finish

end Property

section Object

/-- The prototype of an object stands at a seam of the text. -/
theorem setsProto_seam (sits : node.Sits setting.source) :
    ∀ pos ∈ setsProto node, setting.source.Seam pos := by
  intro pos inside
  unfold setsProto at inside
  split at inside
  · next computed decorators key value same =>
      have member : key ∈ node.parts := by simp [Node.parts, same, Form.parts, Form.fields]
      split at inside
      · exact Option.some.inj inside ▸ (sits.within member).here.start
      · exact Option.some.inj inside ▸ (sits.within member).here.start
      · cases inside
  · cases inside

/-- What has been read of an object: its properties in a row, and perhaps a default. -/
instance : Bears ObjectParts where
  load source parts := (backward parts.properties).knowing (Pending source parts.pending)

/-- An object bears its properties, and where a default is pending. -/
@[simp] theorem load_object {source : Source} {parts : ObjectParts} : Bears.load source parts =
    (backward parts.properties).knowing (Pending source parts.pending) := rfl

/-- A second prototype is refused in its place. -/
theorem checkProto_places {parts : ObjectParts} {proto : Option Nat}
    (seams : ∀ pos ∈ proto, setting.source.Seam pos) :
    Places setting { first := first } (parts.checkProto proto) := by
  unfold ObjectParts.checkProto
  split
  · next pos => exact .ite (fun _ => .raise (seams pos rfl)) fun _ => .pure
  · exact .pure

variable (placed : rules.Placed setting)

include placed

/-- A property is added to those before it. -/
theorem takeProperty_places {parts : ObjectParts} (row : InRow parts.properties.reverse)
    (seams : Pending setting.source parts.pending) :
    Places setting { first := first, given := parts.properties }
      (takeProperty rules isPattern parts) := by
  refine .read (decoratorList_places placed) fun decorators decorated =>
    .markHere fun mark _ ended => .look fun _ => .ite (fun _ => ?_) fun _ => ?_
  all_goals
    have earlier : RowBefore mark.pos parts.properties.reverse :=
      ⟨row, fun other inside => ended other (by simp [List.mem_reverse.mp inside])⟩
  · exact .always (.dropLoose (.readAt .latest (spreadProperty_places placed) fun rest made =>
      .conclude ⟨earlier.gather (made.begins rest List.mem_cons_self), seams⟩))
  · have before : RowBefore mark.pos decorators :=
      ⟨decorated.fact, fun other inside => ended other (by simp [inside])⟩
    refine .lend parts.properties [] (property_places placed before) fun taken made => ?_
    have sits := made.sits taken.value (by simp)
    have proto : ∀ pos ∈ (if isPattern then none else setsProto taken.value),
        setting.source.Seam pos := by
      split
      · exact nofun
      · exact setsProto_seam sits
    exact .check (checkProto_places proto) fun _ => .conclude
      ⟨earlier.gather (made.begins taken.value (by simp)), seams_orElse seams made.fact.2⟩

/-- An object is made in its place, and so is a pattern that looks like one. -/
theorem object_places : Places setting { first := first } (object rules isPattern) := by
  have turn {first : Nat} (parts : ObjectParts) (row : InRow parts.properties.reverse)
      (seams : Pending setting.source parts.pending) :
      Places setting { first := first, given := parts.properties } (do
        return Turn.more (false, ← takeProperty rules isPattern parts) :
          Parse (Turn (Bool × ObjectParts) ObjectParts)) :=
    .bind (takeProperty_places placed row seams) fun _ made => .conclude ⟨trivial, made.fact⟩
  have empty : True ∧ InRow [] ∧ Pending setting.source none := ⟨trivial, .nil, pending_none⟩
  refine .onMark fun mark => .pass fun _ => .bind (.loop ?_ empty) fun parts made => ?_
  · rintro ⟨begins, parts⟩ ⟨-, row, seams⟩
    exact .step fun _ => .ite (fun _ => .conclude ⟨row, seams⟩) fun _ => .ite
      (fun _ => .step fun _ => .step fun _ => .ite (fun _ => .conclude ⟨row, seams⟩)
        fun _ => turn parts row seams) fun _ => turn parts row seams
  · obtain ⟨row, seams⟩ := made.fact
    have whole : InRow (parts.properties.reverse ++ []) := by rwa [List.append_nil]
    have finished : Places setting
        { first := mark.pos, given := parts.properties, past := [mark.pos] } (finish mark
          (if isPattern then .objectPattern parts.properties.reverse none false
          else .objectExpression parts.properties.reverse none)) := by
      split
      · exact .finish whole
      · exact .finish whole
    exact .take finished fun _ _ => .conclude ⟨trivial, seams⟩

/-- What binds names is made in its place. -/
theorem bindingRule_places : Places setting { first := first } (binding rules) := by
  refine .step fun _ => ?_
  split
  · exact .step fun _ => .step fun _ => .ite (fun _ => .unexpected) fun _ => identifier_places
  · exact identifier_places
  · exact .onMark fun _ => .pass fun _ => .read (bindingList_places placed) fun elements known =>
      .finish (by simpa [Form.Ordered, Form.children] using known.fact)
  · exact .bind (object_places placed) fun _ made => settle_places made.fact.2 .pure
  · exact .unexpected

end Object

end Grammar

end EcmaSyntax
