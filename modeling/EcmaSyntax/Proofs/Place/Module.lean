import EcmaSyntax.Grammar.Statement.Module
import EcmaSyntax.Proofs.Place.Class

namespace EcmaSyntax

namespace Grammar

variable {α : Type} {setting : Setting} {rules : Rules} {first : Nat} {mark : Mark} {node : Node}

section Items

/-- The nodes of items between two braces come in a row. -/
theorem bracedItems_places {item : Parse α} {node : α → Node}
    (items : ∀ {first}, PlacesAs setting { first := first } item fun value =>
      { given := [node value] }) :
    PlacesAs setting { first := first } (bracedItems item) fun values => row (values.map node) := by
  refine .step fun _ =>
    .loopAs (fun gathered : Bool × List α => backward (gathered.2.map node)) ?_ InRow.nil
  rintro ⟨begins, values⟩ gathered
  have done : InRow (values.reverse.map node) := by simpa [List.map_reverse] using gathered
  have taken : PlacesAs setting { first := first, given := values.map node }
      (do return .more (false, (← item) :: values) : Parse (Turn (Bool × List α) (List α)))
      (Turn.load (fun gathered => backward (gathered.2.map node))
        fun values => row (values.map node)) :=
    .read items fun value known =>
      .conclude (gathered.gather (known.after (node value) List.mem_cons_self))
  exact .step fun _ => .ite (fun _ => .conclude done) fun _ => .ite
    (fun _ => .step fun _ => .step fun _ => .ite (fun _ => .conclude done) fun _ => taken)
    fun _ => taken

end Items

section Decorated

/-- A class takes the decorators that have waited for it instead of its own ones. -/
theorem dress_places {heading : ClassForm} {decorators : List Node} (form : ClassForm → Form)
    (same : node.form = form heading) (parts : ∀ heading, (form heading).parts = heading.parts)
    (decorated : ∀ heading, (form heading).decorators = heading.decorators)
    (ordered : ∀ heading, (form heading).Ordered ↔ InRow heading.children)
    (plain : ∀ heading, (form heading).tags? = none) (waited : RowBefore first decorators) :
    PlacesAs setting { first := first, given := [node], loose := decorators }
      (pure (some { node with form := form { heading with decorators := decorators } }))
      (fun dressed => inPlaces [node] dressed.toList) := by
  let dressed : Node := { node with form := form { heading with decorators := decorators } }
  have consists : node.parts = heading.decorators ++ heading.undecorated := by
    rw [Node.parts, same, parts, ← heading.children_eq_parts, heading.children_eq]
  have consumes : dressed.parts = decorators ++ heading.undecorated := by
    rw [Node.parts, parts, ← ClassForm.children_eq_parts, ClassForm.children_eq]
    rfl
  refine .held fun known => .exchange [] [] [node] decorators [dressed] []
    (.conclude (inPlaces_one.mpr ⟨Nat.le_refl _, Nat.le_refl _⟩) (.refl _)) (.refl _) (.refl _)
    ?_ ?_ ?_ ?_ nofun
  · rw [List.append_nil, spans_cons, spans_nil, List.append_nil, spans_append, spans_cons, spans_nil,
      List.append_nil, spans_node, spans_node, consumes, consists, spans_append, spans_append]
    refine (List.subperm_cons _).mpr (List.perm_append_comm.subperm.trans ?_)
    exact ((List.sublist_append_right _ _).append_right _).subperm
  · have former : node.form.tags? = none := same ▸ plain heading
    have latter : dressed.form.tags? = none := plain _
    rw [List.append_nil, tags_cons, tags_nil, List.append_nil, tags_append, tags_cons, tags_nil,
      List.append_nil, tags_node former, tags_node latter, consumes, consists, tags_append,
      tags_append]
    refine List.perm_append_comm.subperm.trans ?_
    exact ((List.sublist_append_right _ _).append_right _).subperm
  · have sits := known.sits node List.mem_cons_self
    have own : node.form.parts.Perm (node.form.decorators ++ heading.undecorated) := by
      rw [same, decorated, ← same]
      exact consists ▸ .refl _
    have around {part : Node} (stays : part ∈ heading.undecorated) :
        node.start ≤ part.start ∧ part.stop ≤ node.stop := sits.here.inside.of_mem_rest own stays
    have row : InRow heading.undecorated := by
      have whole : InRow heading.children := (ordered heading).mp (same ▸ sits.here.cast)
      exact whole.sublist (heading.children_eq ▸ List.sublist_append_right _ _)
    have cast : dressed.form.Ordered := (ordered _).mpr <| by
      rw [ClassForm.children_eq]
      exact waited.append row fun part stays =>
        Nat.le_trans (known.begins node List.mem_cons_self) (around stays).1
    have within : dressed.form.LiesBetween node.start node.stop :=
      ⟨decorators, heading.undecorated, consumes ▸ .refl _, (decorated _).symm ▸ .refl _,
        fun part taken => (known.loose part taken).2, fun part => around⟩
    refine List.forall_mem_singleton.mpr ⟨Node.everywhere_iff.mpr ⟨⟨sits.here.start, sits.here.stop,
      sits.here.ordered, within, sits.here.parenthesis, cast⟩, fun part inside => ?_⟩, node,
      List.mem_cons_self, Nat.le_refl _⟩
    rcases List.mem_append.mp (consumes ▸ inside) with taken | stays
    · exact (known.loose part taken).1
    · exact sits.within (consists ▸ List.mem_append_right _ stays)
  · exact List.forall_mem_singleton.mpr (known.begins node List.mem_cons_self)

/-- An exported class is given its decorators in their places. -/
theorem giveDecorators_places {pos : Nat} {declaration : Option Node}
    (seam : setting.source.Seam pos) :
    PlacesAs setting { first := first, given := declaration.toList }
      (giveDecorators pos declaration) (fun given => inPlaces declaration.toList given.toList) := by
  refine .step fun _ => .ite
    (fun _ => .conclude (List.forall₂_same.mpr fun node _ => .refl node)) fun _ => ?_
  split
  · exact .raise seam
  · next node =>
      split
      · next heading same =>
          exact .call [node] takeDecorators_places fun decorators made => .last
            (dress_places .classDeclaration same (fun _ => rfl) (fun _ => rfl) (fun _ => .rfl)
              (fun _ => rfl) made.fact)
      · next heading same =>
          exact .call [node] takeDecorators_places fun decorators made => .last
            (dress_places .classExpression same (fun _ => rfl) (fun _ => rfl) (fun _ => .rfl)
              (fun _ => rfl) made.fact)
      · exact .raise seam

/-- After that no decorators wait, whatever is exported. -/
theorem giveDecorators_empties {pos : Nat} {declaration : Option Node} {state : State} :
    Gives (giveDecorators pos declaration) setting state fun _ after => after.decorators = [] := by
  have takes (next : List Node → Option Node) : Gives (do return next (← takeDecorators)) setting state
      fun _ after => after.decorators = [] := by
    simp only [takeDecorators, Gives.bind_iff, gives_get, gives_modify, gives_pure]
  unfold giveDecorators
  rw [Gives.bind_iff, gives_get]
  refine gives_ite (fun none => gives_pure.mpr (List.isEmpty_iff.mp none)) fun _ => ?_
  split
  · exact fun _ _ absent => by cases absent
  · split
    · exact takes _
    · exact takes _
    · exact fun _ _ absent => by cases absent

end Decorated

section Export

instance : Reads takesExportDefault := by
  have (current : Kind) : Reads (match current with
      | .name => return !(← atWord "type") && !(← atWord "async")
      | .kwDefault => do
        let ahead ← lex Lexer.lookahead
        return ahead.kind == .comma ||
          (ahead.kind == .name && ahead.value.text? == some "from")
      | _ => return false) := by
    split <;> infer_instance
  exact inferInstanceAs (Reads (kind >>= _))

instance : Reads allFollow := inferInstanceAs (Reads (atKind _ >>= _))

instance : Reads declarationFollows := inferInstanceAs (Reads (kind >>= _))

/-- The name of a module is made in its place. -/
theorem moduleName_places : Places setting { first := first } moduleName :=
  .step fun _ => .ite (fun _ => stringLiteral_leaf.ofLeaf) fun _ => .unexpected

/-- The source of an export is made in its place. -/
theorem exportSource_places {pos : Nat} {needed : Bool} (seam : setting.source.Seam pos) :
    Places setting { first := first } (exportSource pos needed) := by
  have rest (source : Option Node) : Places setting { first := first, given := source.toList } (do
      endStatement
      return source) := .step fun _ => .pure
  refine .step fun _ => .ite (fun _ => .read moduleName_places fun source _ => ?_) fun _ =>
    .ite (fun _ => .fail) fun _ => .value (rest none)
  have waiting {first : Nat} :
      PlacesAs setting { first := first } (giveDecorators pos none)
        fun given => inPlaces [] given.toList := .last (giveDecorators_places seam)
  exact .read waiting fun none? _ => .drop [source] none?.toList (.value (.last (rest (some source))))

/-- A name that is exported is made in its place. -/
theorem exportSpecifier_places : Places setting { first := first } exportSpecifier :=
  .onMark fun _ => .step fun _ => .read identifier_leaf fun localName name => .step fun _ => .ite
    (fun _ => .read identifier_places fun exported known => .bind
      (.finish (Nat.le_trans (name.sits localName List.mem_cons_self).here.ordered
        (known.after exported List.mem_cons_self localName List.mem_cons_self))) fun _ _ => .pure)
    fun _ => .call [] (.duplicate name.fact) fun _ made =>
      .bind (.finish (Nat.le_of_eq made.fact.symm)) fun _ _ => .pure

/-- The names that are exported are made in their places. -/
theorem exportSpecifiers_places :
    PlacesAs setting { first := first } exportSpecifiers row := by
  have items : PlacesAs setting { first := first } (bracedItems exportSpecifier)
      fun specifiers => row (specifiers.map Prod.fst) :=
    bracedItems_places (exportSpecifier_places.forget fun _ _ => trivial)
  exact .bind items fun _ made => .step fun _ => .guard (fun _ => .reads) (.conclude made.fact)

/-- What follows an exported default is made in its place. -/
theorem moreSpecifiers_places : PlacesAs setting { first := first } moreSpecifiers row :=
  .step fun _ => .ite (fun _ => exportSpecifiers_places) fun _ => .conclude .nil

/-- A name for all that is exported is made in its place. -/
theorem namespaceSpecifier_places : Places setting { first := mark.pos } (namespaceSpecifier mark) :=
  .read identifier_places fun _ _ => .finish

/-- The nodes that an export consists of come in a row. -/
instance : Bears ExportParts where
  load _ parts := row (parts.declaration.toList ++ parts.specifiers ++ parts.source.toList)

/-- The parts of an export bear its nodes in a row. -/
@[simp] theorem load_export {source : Source} {parts : ExportParts} : Bears.load source parts =
    row (parts.declaration.toList ++ parts.specifiers ++ parts.source.toList) := rfl

/-- A default that is exported from elsewhere is made in its place. -/
theorem exportDefaultFrom_places :
    Places setting { first := mark.pos } (exportDefaultFrom mark) := by
  refine .held fun known => .onMark fun specifierMark => .read identifier_places fun _ _ =>
    .bind .finish fun first _ => ?_
  have rest {pos : Nat} (others : List Node) (row : InRow (first :: others)) :
      Places setting { first := pos, given := first :: others } (do
        return ({ specifiers := first :: others, source := ← exportSource mark.pos true } :
          ExportParts)) :=
    .read (exportSource_places known.first) fun source last =>
      .conclude (last.extend row (.option source))
  exact .step fun _ => .ite
    (fun _ => .step fun _ => .markLater fun _ _ ended => .step fun _ => .step fun _ =>
      .readAt .latest namespaceSpecifier_places fun other made => .value (.last (rest [other]
        (InRow.pair.mpr (Nat.le_trans (ended first List.mem_cons_self)
          (made.begins other List.mem_cons_self))))))
    fun _ => .read moreSpecifiers_places fun others known =>
      .last (rest others (known.extend (.single first) known.fact))

/-- An export may be made of nothing, so that its first word has to be passed. -/
theorem exportNamed_places (parts : ExportParts)
    (row : InRow (parts.declaration.toList ++ parts.specifiers ++ parts.source.toList)) :
    Places setting {
        first := mark.pos, past := [mark.pos]
        given := parts.declaration.toList ++ parts.specifiers ++ parts.source.toList }
      (exportNamed mark parts) := by
  refine .held fun known => .call (parts.specifiers ++ parts.source.toList)
    (giveDecorators_places known.first) fun declaration made => .step fun _ => .finish ?_
  rw [List.append_assoc] at row
  have given : InRow (declaration.toList ++ (parts.specifiers ++ parts.source.toList)) :=
    Node.LiesIn.row made.fact row
  rwa [← List.append_assoc] at given

/-- An export of everything is made in its place. -/
theorem exportAll_places :
    Places setting { first := mark.pos, past := [mark.pos] } (exportAll mark) := by
  refine .held fun known => .markLater fun specifierMark _ _ => .step fun _ => .step fun _ => .ite
    (fun _ => .readAt .latest namespaceSpecifier_places fun specifier _ =>
      .read moreSpecifiers_places fun others more => .read (exportSource_places known.first)
        fun source last => ?_)
    fun _ => .read (exportSource_places known.first) fun source? _ => ?_
  · exact .last (exportNamed_places { specifiers := specifier :: others, source }
      (last.extend (more.extend (.single specifier) more.fact) (.option source)))
  · split
    · exact .finish
    · exact .unexpected

variable (placed : rules.Placed setting)

include placed

/-- An export of types is made in its place. -/
theorem exportType_places :
    Places setting { first := mark.pos } (exportType rules mark) :=
  .held fun known => .markLater fun _ _ _ => .step fun _ => .step fun _ => .ite
    (fun _ => .read exportSpecifiers_places fun specifiers named =>
      .read (exportSource_places known.first) fun source last =>
        .conclude (last.extend named.fact (.option source)))
    fun _ => .readAt .latest (typeAliasTail_places placed) fun declaration _ =>
      .conclude (.single declaration)

/-- An exported declaration is made in its place. -/
theorem exportDeclared_places :
    Places setting { first := mark.pos } (exportDeclared rules mark) :=
  .step fun _ => .step fun _ => .ite (fun _ => exportType_places placed)
    fun _ => .read (placed.statement true false) fun declaration _ => .conclude (.single declaration)

/-- What is exported as the default is made in its place. -/
theorem exportedDefault_places : Places setting { first := first } (exportedDefault rules) :=
  .onMark fun _ => .step fun _ => .ite (fun _ => functionTail_places placed) fun _ => .step fun _ =>
    .ite (fun _ => .last (classTail_places placed .nil)) fun _ =>
      .read (assignment_places placed) fun _ _ => .step fun _ => .pure

/-- An export of a default is made in its place. -/
theorem exportDefault_places : Places setting { first := mark.pos } (exportDefault rules mark) := by
  refine .read (exportedDefault_places placed) fun declaration _ => .held fun known => ?_
  have gives : PlacesAs setting { first := mark.pos, given := [declaration] }
      (giveDecorators mark.pos (some declaration)) (fun given => inPlaces [declaration] given.toList) :=
    .last (giveDecorators_places known.first)
  refine .take gives fun given made => ?_
  cases given with
  | none => cases made.fact
  | some node => exact .finish

/-- Every export is made in its place. -/
theorem exportStatement_places :
    Places setting { first := mark.pos } (exportStatement rules mark) :=
  .held fun known => .pass fun _ => .step fun _ => .ite (fun _ => .last exportAll_places) fun _ =>
    .step fun _ => .ite
      (fun _ => .call [] exportDefaultFrom_places fun parts made =>
        .last (exportNamed_places parts made.fact))
      fun _ => .step fun _ => .ite (fun _ => .last (exportDefault_places placed)) fun _ =>
        .step fun _ => .ite
          (fun _ => .call [] (exportDeclared_places placed) fun parts made =>
            .last (exportNamed_places parts made.fact))
          fun _ => .read exportSpecifiers_places fun specifiers named =>
            .read (exportSource_places known.first) fun source last =>
              .last (exportNamed_places { specifiers, source }
                (last.extend named.fact (.option source)))

section Empties

variable {state : State}

omit placed in
/-- After an export of names no decorators wait. -/
theorem exportNamed_empties {parts : ExportParts} :
    Gives (exportNamed mark parts) setting state fun _ after => after.decorators = [] :=
  Gives.bind_iff.mpr <| giveDecorators_empties.mono fun _ _ empty =>
    gives_look fun _ => finish_aside.mono fun _ _ aside => aside.decorators.trans empty

omit placed in
theorem exportSource_empties {pos : Nat} :
    Gives (exportSource pos true) setting state fun _ after => after.decorators = [] := by
  refine Gives.last fun taken _ => gives_ite (fun _ => ?_) fun _ => ?_
  · refine Gives.last fun _ _ => Gives.bind_iff.mpr <|
      giveDecorators_empties.mono fun _ after empty => ?_
    have ends {source : Option Node} : Gives (do endStatement; return source) setting after
        fun _ last => last.decorators = [] :=
      (Reads.decorators setting after).mono fun _ _ same => same.trans empty
    simpa only [pure_bind] using ends
  · exact fun _ _ absent => by cases absent

omit placed in
/-- After an export of everything no decorators wait. -/
theorem exportAll_empties :
    Gives (exportAll mark) setting state fun _ after => after.decorators = [] := by
  refine Gives.last fun _ _ => Gives.last fun _ _ => Gives.last fun _ _ =>
    gives_ite (fun _ => ?_) fun _ => ?_
  · exact Gives.last fun _ _ => Gives.last fun _ _ => Gives.last fun _ _ => exportNamed_empties
  · refine Gives.bind_iff.mpr <| exportSource_empties.mono fun source? _ empty => ?_
    split
    · exact finish_aside.mono fun _ _ aside => aside.decorators.trans empty
    · exact fun _ _ absent => by cases absent

omit placed in
/-- After an export of a default no decorators wait. -/
theorem exportDefault_empties :
    Gives (exportDefault rules mark) setting state fun _ after => after.decorators = [] :=
  Gives.last fun _ _ => Gives.bind_iff.mpr <| giveDecorators_empties.mono fun _ _ empty =>
    finish_aside.mono fun _ _ aside => aside.decorators.trans empty

omit placed in
/-- The decorators that wait belong to the class that is exported. -/
theorem exportStatement_empties :
    Gives (exportStatement rules mark) setting state fun _ after => after.decorators = [] := by
  have named (parts : Parse ExportParts) (state : State) : Gives (do exportNamed mark (← parts))
      setting state fun _ after => after.decorators = [] := Gives.last fun _ _ => exportNamed_empties
  refine Gives.last fun _ _ => Gives.last fun _ _ => gives_ite (fun _ => exportAll_empties) fun _ => ?_
  refine Gives.last fun _ _ => gives_ite (fun _ => named _ _) fun _ => ?_
  refine Gives.last fun _ _ => gives_ite (fun _ => exportDefault_empties) fun _ => ?_
  refine Gives.last fun _ _ => gives_ite (fun _ => named _ _) fun _ => ?_
  exact Gives.last fun _ _ => Gives.last fun _ _ => exportNamed_empties

end Empties

end Export

section Import

instance : Reads importWord? := inferInstanceAs (Reads (atKind _ >>= _))

instance : Reads importKind := by
  have (word : Option BindingKind) : Reads (match word with
      | none => return .value
      | some word => do
        let ahead ← lex Lexer.lookahead
        let speaks :=
          match ahead.kind with
          | .name => ahead.value.text? != some "from"
          | .braceL => true
          | .star => true
          | _ => false
        if speaks then
          next
          return word
        else
          return .value : Parse BindingKind) := by
    split <;> infer_instance
  exact inferInstanceAs (Reads (importWord? >>= _))

/-- A name that is imported is made in its place. -/
theorem importedName_places : Places setting { first := first } importedName :=
  .read identifier_places fun localName known => .check
    (checkBound_places (known.sits localName List.mem_cons_self)) fun _ => .pure

/-- A name that is imported under another one is made in its place. -/
theorem importSpecifier_places : Places setting { first := first } importSpecifier := by
  have rest (mark : Mark) (imported localName : Node) (ordered : imported.start ≤ localName.start) :
      Places setting { first := mark.pos, given := [imported, localName] } (do
        checkBound localName
        finish mark (.importSpecifier imported localName)) :=
    .held fun known => .check (checkBound_places (known.sits localName (by simp)))
      fun _ => .finish ordered
  exact .onMark fun mark => .read identifier_leaf fun imported name => .step fun _ => .ite
    (fun _ => .read identifier_places fun localName known => .last (rest mark imported localName
      (Nat.le_trans (name.sits imported List.mem_cons_self).here.ordered
        (known.after localName List.mem_cons_self imported List.mem_cons_self))))
    fun _ => .call [] (.duplicate name.fact) fun copy made =>
      .last (rest mark imported copy (Nat.le_of_eq made.fact.symm))

/-- A group of imported names is made in its place. -/
theorem importGroup_places : PlacesAs setting { first := first } importGroup row := by
  have braced : PlacesAs setting { first := first } (bracedItems importSpecifier)
      fun specifiers => row (specifiers.map id) := bracedItems_places importSpecifier_places
  simp only [List.map_id] at braced
  exact .step fun _ => .ite (fun _ => .onMark fun _ => .step fun _ => .step fun _ =>
    .read importedName_places fun _ _ => .bind .finish fun node _ => .conclude (.single node))
    fun _ => braced

/-- All that is imported is made in its place. -/
theorem importSpecifiers_places : PlacesAs setting { first := first } importSpecifiers row :=
  .step fun _ => .ite
    (fun _ => .onMark fun _ => .read importedName_places fun _ _ => .bind .finish fun node _ =>
      .step fun _ => .ite (fun _ => .read importGroup_places fun _ known =>
        .conclude (known.extend (.single node) known.fact)) fun _ => .conclude (.single node))
    fun _ => importGroup_places

/-- An import is made in its place. -/
theorem importStatement_places : Places setting { first := mark.pos } (importStatement mark) := by
  have rest (specifiers : List Node) (kind : Option BindingKind) (row : InRow specifiers) :
      Places setting { first := mark.pos, given := specifiers } (do
        let source ← moduleName
        endStatement
        finish mark (.importDeclaration specifiers source kind)) :=
    .read moduleName_places fun source known => .step fun _ =>
      .finish (known.extend row (.single source))
  have named (kind : Option BindingKind) : Places setting { first := mark.pos } (do
      let specifiers ← importSpecifiers
      expectWord "from"
      let source ← moduleName
      endStatement
      finish mark (.importDeclaration specifiers source kind)) :=
    .read importSpecifiers_places fun specifiers known => .step fun _ =>
      .last (rest specifiers kind known.fact)
  exact .step fun _ => .step fun _ => .ite (fun _ => .value (.last (rest [] none .nil))) fun _ =>
    .step fun _ => .ite (fun _ => .step fun kind => named kind) fun _ => .value (named none)

end Import

end Grammar

end EcmaSyntax
