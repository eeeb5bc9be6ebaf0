import EcmaSyntax.Grammar.Statement.Module
import EcmaSyntax.Proofs.Yield.Class

namespace EcmaSyntax

namespace Grammar

variable {law : Law} {enclosures : List Enclosure} {given : Prop} {rules : Rules} {mark : Mark}
  {node : Node}

/-- Items in braces are good if each of them is. -/
theorem bracedItems_yields {α : Type} {item : Parse α} {good : α → Prop}
    (items : ∀ {given}, Yields law given item good) :
    Yields law given (bracedItems item) fun items => ∀ item ∈ items, good item := by
  refine .step fun _ => .loop (fun gathered => ∀ item ∈ gathered.2, good item) (fun _ => nofun) ?_
  rintro ⟨first, gathered⟩
  have reversed : (∀ item ∈ gathered, good item) → ∀ item ∈ gathered.reverse, good item :=
    fun all item inside => all item (List.mem_reverse.mp inside)
  refine .step fun _ => .ite (fun _ => .done fun known => reversed known.2) fun _ => ?_
  have ends : Yields law (given ∧ ∀ item ∈ gathered, good item) (do
      return .more (false, (← item) :: gathered))
      (Turned (fun gathered => ∀ item ∈ gathered.2, good item)
        fun items : List α => ∀ item ∈ items, good item) :=
    items.bind fun _ => .more fun known => List.forall_mem_cons.mpr ⟨known.2, known.1.2⟩
  exact .ite
    (fun _ => .step fun _ => .step fun _ => .ite (fun _ => .done fun known => reversed known.2)
      fun _ => ends)
    fun _ => ends

section Export

/-- A declaration or class follows the law if its decorators are lawful that it is given. -/
theorem giveDecorators_yields {pos : Nat} {declaration : Option Node}
    (declared : given → Maybe (Node.Follows law enclosures) declaration) :
    Yields law given (giveDecorators pos declaration) (Maybe (Node.Follows law enclosures)) := by
  refine .step fun _ => .ite (fun _ => .pure declared) fun _ => ?_
  split
  · exact .raise
  · next node =>
      split
      · next heading same =>
          exact takeDecorators_yields.bind fun _ => .pure fun known => .some <|
            (declared known.1 node rfl).decorated same (.declaration ..) rfl rfl known.2
      · next heading same =>
          exact takeDecorators_yields.bind fun _ => .pure fun known => .some <|
            (declared known.1 node rfl).decorated same (.expression ..) rfl rfl known.2
      · exact .raise

/-- No declaration takes the decorators that wait. -/
theorem giveNoDecorators_yields {pos : Nat} :
    Yields law given (giveDecorators pos none) fun _ => True :=
  (giveDecorators_yields fun _ => (.none : Maybe (Node.Enclosed law) none)).weaken
    fun _ _ => trivial

theorem moduleName_yields : Yields law given moduleName (Node.Lawful law) :=
  .step fun _ => .ite (fun _ => stringLiteral_yields.lawful) fun _ => .unexpected

/-- The source of an export is lawful. -/
theorem exportSource_yields {pos : Nat} {needed : Bool} :
    Yields law given (exportSource pos needed) (PartLawful law) := by
  have rest : ∀ {given : Prop} (source : Option Node), (given → PartLawful law source) →
      Yields law given (do
        endStatement
        return source) (PartLawful law) := fun _ holds => .step fun _ => .pure holds
  refine .step fun _ => .ite (fun _ => ?_) fun _ => .ite (fun _ => .fail) fun _ => ?_
  · exact moduleName_yields.bind fun source => giveNoDecorators_yields.bind fun _ =>
      .value (rest (some source) fun known => .some known.1.2)
  · exact .value (rest none fun _ => .none)

theorem exportSpecifier_yields :
    Yields law given exportSpecifier fun specifier => specifier.1.Lawful law := by
  refine .step fun mark => .step fun isDefault => identifier_yields.lawful.bind fun localName =>
    .step fun _ => .choose (Node.Lawful law) (.ite (fun _ => identifier_yields.lawful)
      fun _ => duplicate_yields And.right) fun exported => ?_
  exact .bind (finish_lawful rfl fun known => ⟨known.1.2, known.2⟩) fun _ => .pure And.right

/-- The names that are exported are lawful. -/
theorem exportSpecifiers_yields :
    Yields law given exportSpecifiers (AllLawful law) := by
  refine (bracedItems_yields exportSpecifier_yields).bind fun specifiers => .step fun _ =>
    .guard (.pure fun known node inside => ?_)
  obtain ⟨specifier, member, rfl⟩ := List.mem_map.mp inside
  exact known.2 specifier member

theorem moreSpecifiers_yields :
    Yields law given moreSpecifiers (AllLawful law) :=
  .step fun _ => .ite (fun _ => exportSpecifiers_yields) fun _ => .pure fun _ => .nil

theorem namespaceSpecifier_yields :
    Yields law given (namespaceSpecifier mark) (Node.Lawful law) :=
  identifier_yields.lawful.bind fun _ => finish_lawful rfl And.right

/-- What an export consists of follows the law. -/
structure ExportParts.Follows (law : Law) (enclosures : List Enclosure) (parts : ExportParts) :
    Prop where
  declaration : Maybe (Node.Follows law enclosures) parts.declaration
  specifiers : AllLawful law parts.specifiers
  source : PartLawful law parts.source

instance : Plain takesExportDefault := by
  refine Plain.after fun _ => ?_
  split <;> infer_instance

instance : Plain allFollow := inferInstanceAs (Plain (atKind _ >>= _))

instance : Plain declarationFollows := inferInstanceAs (Plain (kind >>= _))

/-- A default that is exported from elsewhere is lawful. -/
theorem exportDefaultFrom_yields :
    Yields law given (exportDefaultFrom mark) (ExportParts.Follows law enclosures) := by
  refine .step fun specifierMark => identifier_yields.lawful.bind fun exported =>
    .bind (finish_lawful rfl And.right) fun first => .step fun follow => ?_
  have rest : ∀ {given : Prop} (others : List Node), (given → first.Lawful law) →
      (given → AllLawful law others) → Yields law given (do
        return ({ specifiers := first :: others, source := ← exportSource mark.pos true } :
          ExportParts)) (ExportParts.Follows law enclosures) := fun others begins all =>
    exportSource_yields.bind fun _ => .pure fun known =>
      ⟨.none, .cons (begins known.1) (all known.1), known.2⟩
  refine .ite (fun _ => .step fun _ => .step fun _ => .step fun _ => .step fun _ => ?_) fun _ => ?_
  · exact namespaceSpecifier_yields.bind fun others =>
      .value (rest [others] (fun known => known.1.2) fun known => .cons known.2 .nil)
  · exact moreSpecifiers_yields.bind fun others => rest others (fun known => known.1.2) And.right

/-- An export of names follows the law. -/
theorem exportNamed_yields {parts : ExportParts} (holds : given → parts.Follows law enclosures) :
    Yields law given (exportNamed mark parts) (Node.Follows law enclosures) :=
  (giveDecorators_yields fun known => (holds known).declaration).bind fun _ => .step fun _ =>
    finish_follows rfl fun known =>
      ⟨known.2, fun node inside => (holds known.1).specifiers node inside enclosures,
        fun node inside => (holds known.1).source node inside enclosures⟩

/-- An export of everything follows the law. -/
theorem exportAll_yields :
    Yields law given (exportAll mark) (Node.Follows law enclosures) := by
  refine .step fun _ => .step fun _ => .step fun _ => .ite (fun _ => ?_) fun _ => ?_
  · exact namespaceSpecifier_yields.bind fun _ => moreSpecifiers_yields.bind fun _ =>
      exportSource_yields.bind fun _ => exportNamed_yields fun ⟨⟨⟨_, first⟩, others⟩, source⟩ =>
        ⟨.none, .cons first others, source⟩
  · refine exportSource_yields.bind fun source => ?_
    split
    · exact finish_follows rfl fun known => known.2 _ rfl enclosures
    · exact .unexpected

variable (lawful : rules.Lawful law)

include lawful

/-- An export of types follows the law. -/
theorem exportType_yields :
    Yields law given (exportType rules mark) (ExportParts.Follows law enclosures) := by
  refine .step fun _ => .step fun _ => .step fun _ => .ite (fun _ => ?_) fun _ => ?_
  · exact exportSpecifiers_yields.bind fun _ => exportSource_yields.bind fun _ =>
      .pure fun known => ⟨.none, known.1.2, known.2⟩
  · exact (typeAliasTail_yields lawful).bind fun _ =>
      .pure fun known => ⟨.some (known.2 enclosures), .nil, .none⟩

/-- What is exported as the default is lawful. -/
theorem exportedDefault_yields :
    Yields law given (exportedDefault rules) (Node.Lawful law) :=
  .step fun _ => .step fun _ => .ite (fun _ => (functionTail_plain lawful).lawful) fun _ =>
    .step fun _ => .ite (fun _ => (classTail_yields lawful fun _ => .nil).lawful) fun _ =>
      (assignment_yields lawful).bind fun _ => .step fun _ => .pure And.right

/-- An export of a default follows the law. -/
theorem exportDefault_yields :
    Yields law given (exportDefault rules mark) (Node.Follows law enclosures) := by
  refine (exportedDefault_yields lawful).bind fun declaration =>
    (giveDecorators_yields fun known => .some (known.2 enclosures)).bind fun decorated =>
      finish_follows rfl fun known => ?_
  cases decorated with
  | none => exact known.1.2 enclosures
  | some node => exact known.2 node rfl

/-- An exported declaration follows the law in its place. -/
theorem exportDeclared_yields :
    YieldsIn law enclosures given (exportDeclared rules mark)
      (ExportParts.Follows law enclosures) :=
  .step fun _ => .step fun _ => .ite (fun _ => .ofAnywhere (exportType_yields lawful)) fun _ =>
    (statement_yields lawful).bind fun _ => .pure fun known => ⟨.some known.2, .nil, .none⟩

/-- An export after its first word follows the law in its place. -/
theorem exportRest_yields :
    YieldsIn law enclosures given (do
      if ← atKind .star then exportAll mark
      else if ← takesExportDefault then exportNamed mark (← exportDefaultFrom mark)
      else if ← eat .kwDefault then exportDefault rules mark
      else if ← declarationFollows then exportNamed mark (← exportDeclared rules mark)
      else
        let specifiers ← exportSpecifiers
        exportNamed mark { specifiers, source := ← exportSource mark.pos false })
      (Node.Follows law enclosures) := by
  refine .step fun _ => .ite (fun _ => .ofAnywhere exportAll_yields) fun _ => ?_
  refine .step fun _ => .ite (fun _ => .ofAnywhere (exportDefaultFrom_yields.bind fun _ =>
    exportNamed_yields And.right)) fun _ => ?_
  refine .step fun _ => .ite (fun _ => .ofAnywhere (exportDefault_yields lawful)) fun _ => ?_
  refine .step fun _ => .ite (fun _ => (exportDeclared_yields lawful).bind fun _ =>
    .ofAnywhere (exportNamed_yields And.right)) fun _ => ?_
  exact .ofAnywhere (exportSpecifiers_yields.bind fun _ => exportSource_yields.bind fun _ =>
    exportNamed_yields fun known => ⟨.none, known.1.2, known.2⟩)

end Export

section Import

/-- A name that an import binds may be bound. -/
theorem importedName_yields : Yields law given importedName fun node =>
    node.Lawful law ∧ Bound law.mode node :=
  identifier_yields.lawful.bind fun _ => checkBound_yields.bind fun _ => .pure fun known =>
    ⟨known.1.2, known.2⟩

theorem importSpecifier_yields :
    Yields law given importSpecifier (Node.Lawful law) := by
  refine .step fun mark => identifier_yields.lawful.bind fun imported => .step fun _ =>
    .choose (Node.Lawful law) (.ite (fun _ => identifier_yields.lawful)
      fun _ => duplicate_yields And.right) fun localName => ?_
  exact checkBound_yields.bind fun _ => .lawful (finish_permitted rfl
    (fun known => Form.permitted_of_binds rfl known.2.bindable nofun)
    fun known => ⟨known.1.1.2, known.1.2⟩)

theorem importGroup_yields : Yields law given importGroup (AllLawful law) := by
  refine .step fun _ => .ite (fun _ => .step fun mark => .step fun _ => .step fun _ => ?_)
    fun _ => bracedItems_yields importSpecifier_yields
  exact importedName_yields.bind fun _ => .bind (.lawful (finish_permitted rfl
    (fun known => Form.permitted_of_binds rfl known.2.2.bindable nofun)
    fun known => known.2.1)) fun _ => .pure fun known => .cons known.2 .nil

/-- All that is imported is lawful. -/
theorem importSpecifiers_yields :
    Yields law given importSpecifiers (AllLawful law) := by
  refine .step fun _ => .ite (fun _ => .step fun mark => ?_) fun _ => importGroup_yields
  refine importedName_yields.bind fun _ => .bind (.lawful (finish_permitted rfl
    (fun known => Form.permitted_of_binds rfl known.2.2.bindable nofun)
    fun known => known.2.1)) fun first => .step fun _ => .ite (fun _ => ?_)
      fun _ => .pure fun known => .cons known.2 .nil
  exact importGroup_yields.bind fun _ => .pure fun known => .cons known.1.2 known.2

instance : Plain importWord? := inferInstanceAs (Plain (atKind _ >>= _))

instance : Plain importKind := by
  refine Plain.after fun word => ?_
  split <;> infer_instance

/-- An import is lawful. -/
theorem importStatement_yields :
    Yields law given (importStatement mark) (Node.Lawful law) := by
  have rest : ∀ {given : Prop} (specifiers : List Node) (kind : Option BindingKind),
      (given → AllLawful law specifiers) → Yields law given (do
        let source ← moduleName
        endStatement
        finish mark (.importDeclaration specifiers source kind)) (Node.Lawful law) :=
    fun _ _ all => moduleName_yields.bind fun _ => .step fun _ =>
      finish_lawful rfl fun known => ⟨all known.1, known.2⟩
  refine .step fun _ => .step fun _ => .ite (fun _ => .value (rest [] none fun _ => .nil)) fun _ =>
    .step fun _ => .choose (fun _ => True) (.ite (fun _ => .plain) fun _ => .plain) fun kind => ?_
  exact importSpecifiers_yields.bind fun specifiers => .step fun _ =>
    .value (rest specifiers kind And.right)

end Import

end Grammar

end EcmaSyntax
