import EcmaSyntax.Grammar.Pattern
import EcmaSyntax.Proofs.Place.Target
import EcmaSyntax.Proofs.Place.Type
import EcmaSyntax.Proofs.Yield.Function

namespace EcmaSyntax

namespace Grammar

variable {setting : Setting} {rules : Rules} {hand : Hand} {first : Nat} {mark : Mark}
  {node : Node} {isArrow : Bool}

section Pattern

/-- A node may end with the last token that has been passed. -/
theorem refinish_places : Places setting { first := first, given := [node] } (refinish node) := by
  refine .held fun known => ?_
  have cast := (known.sits node List.mem_cons_self).here.cast
  exact .lastAt (.start List.mem_cons_self)
    ((PlacesAs.refinish (.refl cast)).forget fun _ _ => trivial)
    (known.begins node List.mem_cons_self)

/-- The rest of a list is made in its place. -/
theorem restElement_places : Places setting { first := first } restElement :=
  .onMark fun _ => .pass fun _ => .read identifier_places fun _ _ => .finish

variable (placed : rules.Placed setting)

include placed

/-- A default is made in its place. -/
theorem withDefault_places (mark : Mark) {left : Node} :
    Places setting { first := mark.pos, given := [left] } (withDefault rules mark left) :=
  .step fun _ => .ite (fun _ => .read (assignment_places placed) fun _ known =>
    .finish (known.extend (.single _) (.single _))) fun _ => .pure

/-- An element of a pattern is made in its place. -/
theorem bindingElement_places : Places setting { first := first } (bindingElement rules) :=
  .onMark fun mark => .read placed.binding fun _ _ => .last (withDefault_places placed mark)

/-- A parameter is made in its place, with its type. -/
theorem withParameterType_places {param : Node} :
    Places setting { first := first, given := [param] } (withParameterType rules param) := by
  refine .held fun held => .step fun _ => .ite (fun _ => .step fun isOptional => ?_) fun _ => .pure
  have typed (marked : Node) : Places setting { first := first, given := [marked] } (do
      if ← atKind .colon then annotate marked (← typeAnnotation rules)
      else if isOptional then refinish marked
      else return marked) :=
    .step fun _ => .ite (fun _ => .read (typeAnnotation_places placed) fun annot known =>
      annotate_places (known.after annot List.mem_cons_self marked List.mem_cons_self))
      fun _ => .ite (fun _ => refinish_places) fun _ => .pure
  refine .ite (fun _ => ?_) fun _ => .value (typed param)
  split
  · next marked same =>
      obtain ⟨takes, ends⟩ :=
        Node.asOptional?_takes same (held.sits param List.mem_cons_self).here.cast
      exact .value (.replace [] takes ends (typed marked))
  · exact .onGet fun state sited => .stop (.unexpectedAt sited.lastStart)

/-- Each element of a list starts after those before it, also once it has its type and its
default. -/
theorem bindingList_places {close : Kind} {allowHoles : Bool} :
    PlacesAs setting { first := first } (bindingList rules close allowHoles)
      fun elements => row (elements.filterMap id) := by
  have defaulted (left : Node) : Places setting { first := left.start, given := [left] }
      (withDefault rules (Mark.ofNode left) left) :=
    withDefault_places placed (Mark.ofNode left)
  refine .loopAs (fun gathered : Bool × List (Option Node) => backward (gathered.2.filterMap id))
    ?_ InRow.nil
  rintro ⟨begins, elements⟩ gathered
  have done : InRow (elements.reverse.filterMap id) := by simpa using gathered
  refine .step fun _ => .ite (fun _ => .conclude done) fun _ => .guard (fun _ => .reads) <|
    .step fun _ => .ite (fun _ => .conclude gathered) fun _ => .step fun _ => .ite
      (fun _ => .conclude done) fun _ => .step fun _ => .ite (fun _ => ?_) fun _ => ?_
  · refine .read restElement_places fun rest known => .callAt (elements.filterMap id)
      (.start (List.mem_append_right _ List.mem_cons_self)) (withParameterType_places placed)
      fun typed made => .step fun _ => .conclude ?_
    have longer : InRow (typed :: elements.filterMap id).reverse :=
      gathered.gather fun other inside => Nat.le_trans
        (known.after rest List.mem_cons_self other inside) (made.begins typed List.mem_cons_self)
    simpa using longer
  · refine .read (bindingElement_places placed) fun left known => .callAt (elements.filterMap id)
      (.start (List.mem_append_right _ List.mem_cons_self)) (withParameterType_places placed)
      fun typed made => .callAt (elements.filterMap id)
        (.start (List.mem_append_right _ List.mem_cons_self)) (defaulted typed)
        fun element more => .conclude ?_
    have longer : InRow (element :: elements.filterMap id).reverse :=
      gathered.gather fun other inside => Nat.le_trans
        (known.after left List.mem_cons_self other inside) <| Nat.le_trans
          (made.begins typed List.mem_cons_self) (more.begins element List.mem_cons_self)
    simpa using longer

/-- The parameters of a function are made in their places. -/
theorem parameters_places : PlacesAs setting { first := first } (parameters rules) row :=
  .step fun _ => .bind (bindingList_places placed) fun _ made => .conclude made.fact

end Pattern

section Block

variable {parts : BlockParts} {statement literal : Node}

theorem stringStatement?_form {condition : Prop} [Decidable condition]
    (found : (if condition then stringStatement? statement else none) = some literal) :
    statement.form = .expressionStatement literal := by
  rw [Option.ite_none_right_eq_some, stringStatement?] at found
  replace found := found.2
  split at found
  · next expression same =>
      split at found
      · split at found <;> cases found
        exact same
      · cases found
  · cases found

/-- A statement gives way to a directive in its place. -/
theorem toDirective_places (same : statement.form = .expressionStatement literal) :
    PlacesAs setting { first := first, given := [statement] } (toDirective statement literal)
      fun directive => { given := [directive], fact := directive.start = statement.start } := by
  refine .held fun known => ?_
  have sits := known.sits statement List.mem_cons_self
  have begins := known.begins statement List.mem_cons_self
  have consists : statement.parts = [literal] := by
    simp [Node.parts, same, Form.parts, Form.fields]
  have inside : literal ∈ statement.parts := consists ▸ List.mem_cons_self
  have within := sits.here.around (by rw [same]; rfl) inside
  have inner := (sits.within inside).here
  refine .step fun raw => .remember List.mem_cons_self (Nat.le_refl _) <|
    .remember List.mem_cons_self within.2 <| .takeApart [] (by rw [same]; rfl) ?_
  rw [consists]
  have contents (form : Form) (none : form.parts = []) :
      PlacesAs setting { first := literal.start, past := [literal.stop] }
        (finishAt (Mark.ofNode literal) form literal.stop literal.loc.stop) fun node =>
          { given := [node], fact := node.form = form ∧ node.start = literal.start ∧
            node.stop = literal.stop } :=
    .finishAt ⟨by simp [none], List.nil_subperm, form.ordered_of_leaf none, Nat.le_refl _,
      inner.start, inner.stop, inner.ordered, nofun, Form.tags?_of_leaf none ▸ nofun⟩
      List.mem_cons_self
  have directive (kept : Node) (starts : kept.start = literal.start)
      (stops : kept.stop = literal.stop) :
      PlacesAs setting { first := first, given := [kept], past := [statement.stop] }
        (finishAt (Mark.ofNode statement) (.directive kept) statement.stop statement.loc.stop)
        fun directive => { given := [directive], fact := directive.start = statement.start } := by
    have fills : Hand.Fills setting { first := first, given := [kept], past := [statement.stop] }
        (Mark.ofNode statement) (.directive kept) statement.stop :=
      ⟨by simp [Form.parts, Form.fields], List.nil_subperm, .single _, begins, sits.here.start,
        sits.here.stop, sits.here.ordered,
        List.forall_mem_singleton.mpr ⟨starts ▸ within.1, stops ▸ within.2⟩, nofun⟩
    exact (PlacesAs.finishAt fills List.mem_cons_self).forget fun _ made => made.2.1
  refine .readAt (.start List.mem_cons_self) (contents _ rfl) fun content made => ?_
  obtain ⟨-, starts, stops⟩ := made.fact
  let value := String.ofList (raw.drop 1).dropLast
  exact .drop [content] [literal] (.noteExtra [] content (fun extra =>
      { extra with raw := some (String.ofList raw), rawValue := some (.text value) })
    (.last (directive _ starts stops) (.refl _)))

/-- What has been read of a block comes in a row, its directives before its statements. -/
structure BlockParts.Rowed (source : Source) (parts : BlockParts) : Prop where
  row : InRow (parts.directives.reverse ++ parts.statements.reverse)
  past : parts.past = false → parts.statements = []
  octal : ∀ pos ∈ parts.octal, source.Seam pos

/-- What has been read of a block: directives, statements, and perhaps an escape. -/
instance : Bears BlockParts where
  load source parts := {
    given := parts.directives ++ parts.statements
    fact := parts.Rowed source }

@[simp] theorem load_block {source : Source} : Bears.load source parts = {
    given := parts.directives ++ parts.statements
    fact := parts.Rowed source } := rfl

/-- The directives and the statements of a block. -/
def body (parts : List Node × List Node) : Load := row (parts.1 ++ parts.2)

@[simp] theorem body_eq {parts : List Node × List Node} :
    body parts = { given := parts.1 ++ parts.2, fact := InRow (parts.1 ++ parts.2) } := rfl

/-- A directive takes the place of the statement that has been read last. -/
theorem takeDirective_places (same : statement.form = .expressionStatement literal)
    (rowed : parts.Rowed setting.source) (none : parts.statements = [])
    (after : ∀ other ∈ parts.directives ++ parts.statements, other.stop ≤ statement.start) :
    Places setting { first, given := statement :: (parts.directives ++ parts.statements) }
      (takeDirective parts statement literal) := by
  refine .call (parts.directives ++ parts.statements) (toDirective_places same) fun directive made => ?_
  have longer (before : Option Bool) : BlockParts.Rowed setting.source
      { parts with directives := directive :: parts.directives, before } := by
    refine ⟨?_, fun _ => none, rowed.octal⟩
    have row : InRow parts.directives.reverse := rowed.row.sublist (List.sublist_append_left _ _)
    rw [none, List.reverse_nil, List.append_nil]
    exact row.gather fun other inside =>
      Nat.le_trans (after other (List.mem_append_left _ inside)) (Nat.le_of_eq made.fact.symm)
  refine .ite (fun _ => .step fun _ => .step fun _ => ?_) fun _ => .conclude (longer _)
  split
  · next pos found => exact .raise (rowed.octal pos found)
  · exact .conclude (longer _)

variable (placed : rules.Placed setting)

include placed

/-- A statement is added to the block in its place. -/
theorem takeStatement_places {allowDirectives topLevel : Bool} (rowed : parts.Rowed setting.source) :
    Places setting { first, given := parts.directives ++ parts.statements }
      (takeStatement rules allowDirectives topLevel parts) := by
  refine .onGet fun state sited => .read (placed.statement true topLevel) fun statement known => ?_
  have escape : ∀ pos ∈ (if !parts.past && state.lexer.containsOctal && parts.octal.isNone then
      state.lexer.octalPosition else parts.octal), setting.source.Seam pos := by
    split
    · exact sited.octal
    · exact rowed.octal
  have after := known.after statement List.mem_cons_self
  split
  · next literal found =>
      have early : parts.past = false := by
        have allowed := (Option.ite_none_right_eq_some.mp found).1
        simpa using (Bool.and_eq_true_iff.mp allowed).2
      exact .last (takeDirective_places (stringStatement?_form found)
        ⟨rowed.row, rowed.past, escape⟩ (rowed.past early) after)
  · refine .conclude ⟨?_, nofun, escape⟩
    rw [List.reverse_cons, ← List.append_assoc]
    exact rowed.row.concat fun other inside => after other (by simpa using inside)

/-- The statements of a block are made in their places. -/
theorem blockParts_places {allowDirectives topLevel : Bool} {close : Kind} :
    PlacesAs setting { first := first } (blockParts rules allowDirectives topLevel close) body := by
  have none : BlockParts.Rowed setting.source {} := ⟨InRow.nil, fun _ => rfl, nofun⟩
  refine .bind (.loop (fun parts gathered => .step fun _ => .ite (fun _ => .conclude gathered)
    fun _ => .bind (takeStatement_places placed gathered) fun _ made => .conclude made.fact) none)
    fun parts made => .guard (fun _ => .reads) (.conclude made.fact.row)

/-- A block is made in its place. -/
theorem block_places {allowDirectives : Bool} :
    Places setting { first := first } (block rules allowDirectives) :=
  .onMark fun _ => .pass fun _ => .read (blockParts_places placed) fun _ known =>
    .finish known.fact

end Block

section Head

variable {head : FunctionHead} {body : Node} {isExpression : Bool}

/-- The nodes that a function consists of before its body. -/
def FunctionHead.parts (head : FunctionHead) : List Node :=
  head.id.toList ++ head.typeParameters.toList ++ head.params ++ head.returnType.toList

@[simp] theorem FunctionHead.parts_mk {id typeParameters returnType : Option Node}
    {generator isAsync : Bool} {params : List Node} :
    parts ⟨id, generator, isAsync, params, typeParameters, returnType⟩ =
      id.toList ++ typeParameters.toList ++ params ++ returnType.toList := rfl

/-- The parts of a function are those of its head, and its body. -/
theorem FunctionHead.function_parts :
    (head.function body isExpression).parts = head.parts ++ [body] := by
  simp [FunctionForm.parts, FunctionForm.fields, parts, function]

/-- What a function consists of comes in a row, and it has the name that was read before. -/
def FunctionHead.named (head : FunctionHead) (function : FunctionForm) : Load :=
  (row function.parts).knowing (function.id = head.id)

@[simp] theorem FunctionHead.named_eq {function : FunctionForm} :
    head.named function = (row function.parts).knowing (function.id = head.id) := rfl

/-- The name and the parameters of a function are refused in their places. -/
theorem checkHead_places {strict : Bool} (sits : ∀ node ∈ head.parts, node.Sits setting.source) :
    Places setting { first := first } (checkHead head strict) := by
  have params : ∀ node ∈ head.params, node.Sits setting.source := fun node inside =>
    sits node (by simp [FunctionHead.parts, inside])
  refine .step fun _ => ?_
  dsimp only
  split
  · next id same =>
      refine orRaise_places (TargetRule.check_refuses id (sits id ?_)) fun _ =>
        orRaise_places (TargetRule.checkAll_refuses params) fun _ => .pure
      simp [FunctionHead.parts, same]
  · exact orRaise_places (TargetRule.checkAll_refuses params) fun _ => .pure

/-- A function is put together of its head and its body. -/
theorem functionEnd_places (row : InRow (head.parts ++ [body])) :
    PlacesAs setting { first, given := head.parts ++ [body] }
      (functionEnd head isArrow isExpression body) head.named := by
  refine .held fun known => ?_
  have sits : ∀ node ∈ head.parts, node.Sits setting.source := fun node inside =>
    known.sits node (List.mem_append_left _ inside)
  have rest : PlacesAs setting { first, given := head.parts ++ [body] } (do
      let strict := (← isStrict) || (!isExpression && declaresStrict body)
      if strict || isArrow then checkHead head strict
      return head.function body isExpression) head.named :=
    .step fun _ => .guard (fun _ => checkHead_places sits)
      (.conclude ⟨by simpa [FunctionHead.function_parts] using row, rfl⟩
        (by simp [FunctionHead.function_parts]))
  refine .ite (fun _ => ?_) fun _ => rest
  split
  · next id same =>
      have inside : id ∈ head.parts := by simp [FunctionHead.parts, same]
      exact .guard (fun _ => .raise (sits id inside).here.start) rest
  · exact rest

variable (placed : rules.Placed setting)

include placed

/-- The body of a function is made in its place. -/
theorem enclosed_places {inFunction inGenerator allowDirectives : Bool} :
    Places setting { first := first } (enclosed rules inFunction inGenerator allowDirectives) := by
  rw [enclosed_eq]
  exact .within (block_places placed)

/-- A function is made in its place from its parameters or its arrow on. -/
theorem functionRest_places (row : InRow head.parts) :
    PlacesAs setting { first := first, given := head.parts } (functionRest rules head isArrow)
      head.named := by
  rw [functionRest_eq]
  refine .step fun _ => .read (.within (.ite (fun _ => assignment_places placed)
    fun _ => enclosed_places placed)) fun body known =>
      functionEnd_places (known.extend row (.single body))

/-- The body of a function is added to its head. -/
theorem functionBody_places (row : InRow head.parts) :
    PlacesAs setting { first := first, given := head.parts } (functionBody rules head isArrow)
      head.named := by
  refine .ite (fun _ => .value (functionRest_places placed row)) fun _ =>
    .read (typeAnnotation?_places placed) fun annot known => ?_
  split
  · next annot =>
      have typed : InRow { head with returnType := some annot }.parts :=
        (known.extend row (.single annot)).sublist (by simp [FunctionHead.parts])
      exact .value (.drop { head with returnType := some annot }.parts head.returnType.toList
        (functionRest_places placed typed) (by simp [FunctionHead.parts]))
  · exact .value (.last (functionRest_places placed row))

/-- The parameters of a method are read here. -/
theorem method_places {kind : MethodKind} (row : InRow head.parts) (untyped : head.returnType = none) :
    PlacesAs setting { first := first, given := head.parts } (method rules head kind) head.named := by
  rw [method_eq]
  refine .within (.read (parameters_places placed) fun params known => .drop
    { head with params := params }.parts head.params (functionBody_places placed ?_) ?_)
  · exact (known.extend row known.fact).sublist (by simp [FunctionHead.parts, untyped])
  classical
  simp [FunctionHead.parts, List.perm_iff_count]
  omega

/-- The parts of a function are made in their places. -/
theorem functionParts_places {isAsync isStatement optionalId : Bool} :
    Places setting { first := first } (functionParts rules isAsync isStatement optionalId) := by
  have rest (generator : Bool) (id : Option Node) : Places setting { first, given := id.toList } (do
      let typeParameters ← genericHead? rules
      let params ← parameters rules
      functionBody rules { id, generator, isAsync, params, typeParameters } false) :=
    .read (genericHead?_places placed) fun typeParameters begun =>
      .read (parameters_places placed) fun params known => .last ((functionBody_places placed
        (by simpa [FunctionHead.parts] using
          known.extend (begun.extend (.option id) (.option typeParameters)) known.fact)).forget
            fun _ made => made.1)
  have name : Places setting { first := first } (some <$> identifier false) := .map identifier_places
  exact .step fun generator => .step fun _ => .step fun _ => .guard (fun _ => .reads) <|
    .ite (fun _ => .bind name fun id _ => .last (rest generator id))
      fun _ => .value (.last (rest generator none))

omit placed in
/-- A function is made of its parts, whatever kind of node it is. -/
theorem finishFunction_places {function : FunctionForm} {form : Form}
    (same : form.parts = function.parts) (row : InRow function.parts)
    (ordered : form.Ordered = InRow function.children := by rfl)
    (plain : form.tags? = none := by rfl) :
    Places setting { first := mark.pos, given := function.parts } (finish mark form) :=
  .finish (by rwa [ordered, function.children_eq_parts]) rfl (by simp [same])
    (.inl function.parts_ne_nil) List.nil_subperm (plain ▸ nofun)

/-- A function is made in its place from its word on. -/
theorem functionTail_places {isAsync isStatement optionalId : Bool} :
    Places setting { first := mark.pos }
      (functionTail rules mark isAsync isStatement optionalId) := by
  rw [functionTail_eq]
  refine .take (.within (functionParts_places placed)) fun function made => ?_
  cases isStatement
  · exact .last (finishFunction_places rfl made.fact)
  · exact .last (finishFunction_places rfl made.fact)

/-- The parameters of an arrow function are made of what is in the parentheses before the arrow. -/
theorem arrowTail_places {expressions : List Node} {isAsync : Bool} {returnType : Option Node}
    (row : InRow (expressions ++ returnType.toList)) :
    Places setting { first := mark.pos, given := expressions ++ returnType.toList }
      (arrowTail rules mark expressions isAsync returnType) := by
  refine .call returnType.toList toParameters_places fun params made => ?_
  have typed : InRow (params ++ returnType.toList) := Node.LiesIn.row made.fact row
  exact .take (functionBody_places placed (by simpa [FunctionHead.parts] using typed))
    fun _ made => .last (finishFunction_places rfl made.fact.1)

end Head

end Grammar

end EcmaSyntax
