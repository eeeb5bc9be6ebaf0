import EcmaSyntax.Grammar.Target

namespace EcmaSyntax

mutual

/-- The names that a node binds where it stands as a target, in source order. -/
def Node.boundNames : Node → List String
  | ⟨_, form, _, _, _, _⟩ => form.boundNames

/-- The names that a form binds; a property binds those of its value. -/
def Form.boundNames : Form → List String
  | .identifier name _ _ => [name]
  | .objectPattern properties _ _ => boundInAll properties
  | .objectProperty _ _ _ _ _ value => value.boundNames
  | .restProperty argument => argument.boundNames
  | .arrayPattern elements _ _ => boundInSlots elements
  | .restElement argument _ _ => argument.boundNames
  | .assignmentPattern left _ _ => left.boundNames
  | _ => []

/-- The names that nodes bind. -/
def boundInAll : List Node → List String
  | [] => []
  | node :: rest => node.boundNames ++ boundInAll rest

/-- The names that the elements of a list bind that are no holes. -/
def boundInSlots : List (Option Node) → List String
  | [] => []
  | slot :: rest => boundInSlot slot ++ boundInSlots rest

/-- The names that an element of a list binds. -/
def boundInSlot : Option Node → List String
  | none => []
  | some node => node.boundNames

end

/-- A node binds no name that may not be bound in strict code. -/
def Node.Bindable (node : Node) : Prop := ∀ name ∈ node.boundNames, Word.isUnbindable name = false

/-- A node binds no word that is reserved in strict code. -/
def Node.Unreserved (node : Node) : Prop :=
  ∀ name ∈ node.boundNames, Word.isStrictReserved name = false

/-- The names that a node binds are those of its form. -/
theorem Node.boundNames_eq (node : Node) : node.boundNames = node.form.boundNames := by
  cases node
  rfl

/-- What a pattern takes a property for: the value of one with a key, or the property itself. -/
def Node.judged (property : Node) : Node :=
  match property.form with
  | .objectProperty _ _ _ _ _ value => value
  | _ => property

/-- Nothing stands in a node but names where something is bound. A cast of a type may stand there
in a language with types. -/
inductive Node.NamesOnly (types : Bool) : Node → Prop
  | identifier {node : Node} {name : String} {annot : Option Node} {isOptional : Bool}
      (same : node.form = .identifier name annot isOptional) : NamesOnly types node
  | objectPattern {node : Node} {properties : List Node} {annot : Option Node} {isOptional : Bool}
      (same : node.form = .objectPattern properties annot isOptional)
      (each : ∀ property ∈ properties, NamesOnly types property.judged) : NamesOnly types node
  | restProperty {node argument : Node} (same : node.form = .restProperty argument)
      (inner : NamesOnly types argument) : NamesOnly types node
  | arrayPattern {node : Node} {elements : List (Option Node)} {annot : Option Node}
      {isOptional : Bool} (same : node.form = .arrayPattern elements annot isOptional)
      (each : ∀ element, some element ∈ elements → NamesOnly types element) : NamesOnly types node
  | restElement {node argument : Node} {annot : Option Node} {isOptional : Bool}
      (same : node.form = .restElement argument annot isOptional)
      (inner : NamesOnly types argument) : NamesOnly types node
  | assignmentPattern {node left right : Node} {annot : Option Node}
      (same : node.form = .assignmentPattern left right annot)
      (target : NamesOnly types left) : NamesOnly types node
  | cast {node expression annot : Node} {isItem : Bool}
      (same : node.form = .typeCastExpression expression annot isItem)
      (known : types = true) : NamesOnly types node

/-- A node may be assigned to, or may be bound where only names may stand; members may only be
assigned to. Each property of a pattern stands for its value or for itself, and a cast of a type may
stand for a target in a language with types. -/
inductive Node.IsTarget (isBinding types : Bool) : Node → Prop
  | identifier {node : Node} {name : String} {annot : Option Node} {isOptional : Bool}
      (same : node.form = .identifier name annot isOptional) : IsTarget isBinding types node
  | member {node object property : Node} {computed : Bool}
      (same : node.form = .memberExpression object property computed)
      (assigned : isBinding = false) : IsTarget isBinding types node
  | objectPattern {node : Node} {properties : List Node} {annot : Option Node} {isOptional : Bool}
      (same : node.form = .objectPattern properties annot isOptional)
      (each : ∀ property ∈ properties, IsTarget isBinding types property.judged) :
      IsTarget isBinding types node
  | arrayPattern {node : Node} {elements : List (Option Node)} {annot : Option Node}
      {isOptional : Bool} (same : node.form = .arrayPattern elements annot isOptional)
      (each : ∀ element, some element ∈ elements → IsTarget isBinding types element) :
      IsTarget isBinding types node
  | assignmentPattern {node left right : Node} {annot : Option Node}
      (same : node.form = .assignmentPattern left right annot)
      (target : IsTarget isBinding types left) : IsTarget isBinding types node
  | restProperty {node argument : Node} (same : node.form = .restProperty argument)
      (inner : IsTarget isBinding types argument) : IsTarget isBinding types node
  | restElement {node argument : Node} {annot : Option Node} {isOptional : Bool}
      (same : node.form = .restElement argument annot isOptional)
      (inner : IsTarget isBinding types argument) : IsTarget isBinding types node
  | cast {node expression annot : Node} {isItem : Bool}
      (same : node.form = .typeCastExpression expression annot isItem)
      (known : types = true) : IsTarget isBinding types node

namespace Node.IsTarget

variable {isBinding types : Bool} {node : Node}

/-- What may be bound consists of names only. -/
theorem namesOnly (target : node.IsTarget true types) : node.NamesOnly types := by
  induction target with
  | identifier same => exact .identifier same
  | member same assigned => cases assigned
  | objectPattern same _ each => exact .objectPattern same each
  | arrayPattern same _ each => exact .arrayPattern same each
  | assignmentPattern same _ inner => exact .assignmentPattern same inner
  | restProperty same _ inner => exact .restProperty same inner
  | restElement same _ inner => exact .restElement same inner
  | cast same known => exact .cast same known

/-- A member may be assigned to, but binds nothing. -/
theorem member_iff {object property : Node} {computed : Bool}
    (same : node.form = .memberExpression object property computed) :
    node.IsTarget isBinding types ↔ isBinding = false := by
  refine ⟨fun target => ?_, .member same⟩
  cases target <;> simp_all

/-- An expression with a type is a target where there are types. -/
theorem cast_iff {expression annot : Node} {isItem : Bool}
    (same : node.form = .typeCastExpression expression annot isItem) :
    node.IsTarget isBinding types ↔ types = true := by
  refine ⟨fun target => ?_, .cast same⟩
  cases target <;> simp_all

/-- A pattern of an object is a target if its properties are. -/
theorem objectPattern_iff {properties : List Node} {annot : Option Node} {isOptional : Bool}
    (same : node.form = .objectPattern properties annot isOptional) :
    node.IsTarget isBinding types ↔
      ∀ property ∈ properties, property.judged.IsTarget isBinding types := by
  refine ⟨fun target => ?_, .objectPattern same⟩
  cases target <;> simp_all

/-- A pattern of an array is a target if its elements are. -/
theorem arrayPattern_iff {elements : List (Option Node)} {annot : Option Node} {isOptional : Bool}
    (same : node.form = .arrayPattern elements annot isOptional) :
    node.IsTarget isBinding types ↔
      ∀ element, some element ∈ elements → element.IsTarget isBinding types := by
  refine ⟨fun target => ?_, .arrayPattern same⟩
  cases target <;> simp_all

/-- A target may have a default. -/
theorem assignmentPattern_iff {left right : Node} {annot : Option Node}
    (same : node.form = .assignmentPattern left right annot) :
    node.IsTarget isBinding types ↔ left.IsTarget isBinding types := by
  refine ⟨fun target => ?_, .assignmentPattern same⟩
  cases target <;> simp_all

/-- The rest of an object is a target if what takes it is. -/
theorem restProperty_iff {argument : Node} (same : node.form = .restProperty argument) :
    node.IsTarget isBinding types ↔ argument.IsTarget isBinding types := by
  refine ⟨fun target => ?_, .restProperty same⟩
  cases target <;> simp_all

/-- The rest of an array is a target if what takes it is. -/
theorem restElement_iff {argument : Node} {annot : Option Node} {isOptional : Bool}
    (same : node.form = .restElement argument annot isOptional) :
    node.IsTarget isBinding types ↔ argument.IsTarget isBinding types := by
  refine ⟨fun target => ?_, .restElement same⟩
  cases target <;> simp_all

end Node.IsTarget

namespace Grammar

/-- Names pass a check: in strict code each of them may be bound, and if the names bound before
them count, they are added to those, and all are different if those were. -/
structure TargetRule.Passes (rule : TargetRule) (found : List String)
    (names result : Option (List String)) : Prop where
  bindable : rule.strict = true → ∀ name ∈ found, Word.isUnbindable name = false
  grown : result = names.map (found.reverse ++ ·)
  distinct : ∀ bound ∈ names, bound.Nodup → (found.reverse ++ bound).Nodup

variable {rule : TargetRule} {stands further : Prop} {found more : List String}
  {names middle result : Option (List String)} {node : Node}

/-- Names may be taken: in strict code each of them may be bound, and if the names taken before
them count, they differ from those and from each other. -/
structure TargetRule.Admits (rule : TargetRule) (found : List String)
    (names : Option (List String)) : Prop where
  bindable : rule.strict = true → ∀ name ∈ found, Word.isUnbindable name = false
  distinct : ∀ bound ∈ names, found.Nodup ∧ ∀ name ∈ found, name ∉ bound

/-- What is judged may stand there, and its names are taken and added to those before them. -/
structure TargetRule.Takes (rule : TargetRule) (stands : Prop) (found : List String)
    (names result : Option (List String)) : Prop where
  stands : stands
  admits : rule.Admits found names
  grown : result = names.map (found.reverse ++ ·)

namespace TargetRule

/-- What has no names changes nothing. -/
theorem takes_nil_iff : rule.Takes stands [] names result ↔ stands ∧ result = names := by
  constructor
  · rintro ⟨holds, -, rfl⟩
    exact ⟨holds, by simp⟩
  · rintro ⟨holds, rfl⟩
    exact ⟨holds, ⟨fun _ => List.forall_mem_nil _, fun _ _ => ⟨.nil, List.forall_mem_nil _⟩⟩,
      by simp⟩

/-- Two lists of names are admitted together if the second is after the first. -/
theorem admits_append_iff :
    rule.Admits (found ++ more) names ↔
      rule.Admits found names ∧ rule.Admits more (names.map (found.reverse ++ ·)) := by
  constructor
  · rintro ⟨bindable, distinct⟩
    refine ⟨⟨fun strict => (List.forall_mem_append.mp (bindable strict)).1, fun bound known => ?_⟩,
      ⟨fun strict => (List.forall_mem_append.mp (bindable strict)).2, fun grown known => ?_⟩⟩
    · obtain ⟨nodup, new⟩ := distinct bound known
      exact ⟨(List.nodup_append.mp nodup).1, (List.forall_mem_append.mp new).1⟩
    · obtain ⟨bound, held, rfl⟩ := Option.map_eq_some_iff.mp known
      obtain ⟨nodup, new⟩ := distinct bound held
      obtain ⟨-, later, apart⟩ := List.nodup_append.mp nodup
      refine ⟨later, fun name inside => ?_⟩
      rw [List.mem_append, List.mem_reverse, not_or]
      exact ⟨fun earlier => apart name earlier name inside rfl,
        new name (List.mem_append_right _ inside)⟩
  · rintro ⟨first, second⟩
    refine ⟨fun strict => List.forall_mem_append.mpr
      ⟨first.bindable strict, second.bindable strict⟩, fun bound known => ?_⟩
    obtain ⟨nodup, new⟩ := first.distinct bound known
    obtain ⟨later, apart⟩ := second.distinct _ (Option.map_eq_some_iff.mpr ⟨bound, known, rfl⟩)
    simp only [List.mem_append, List.mem_reverse, not_or] at apart
    refine ⟨List.nodup_append.mpr ⟨nodup, later, fun name earlier other inside same => ?_⟩,
      List.forall_mem_append.mpr ⟨new, fun name inside => (apart name inside).2⟩⟩
    exact (apart other inside).1 (same ▸ earlier)

/-- Two things that are taken in a row are taken together. -/
theorem takes_append_iff :
    (∃ middle, rule.Takes stands found names middle ∧ rule.Takes further more middle result) ↔
      rule.Takes (stands ∧ further) (found ++ more) names result := by
  constructor
  · rintro ⟨_, ⟨holds, admits, rfl⟩, ⟨goesOn, admitsMore, rfl⟩⟩
    refine ⟨⟨holds, goesOn⟩, admits_append_iff.mpr ⟨admits, admitsMore⟩, ?_⟩
    simp [Function.comp_def]
  · rintro ⟨⟨holds, goesOn⟩, admits, rfl⟩
    obtain ⟨first, second⟩ := admits_append_iff.mp admits
    refine ⟨_, ⟨holds, first, rfl⟩, ⟨goesOn, second, ?_⟩⟩
    simp [Function.comp_def]

/-- Names that are taken pass the check. -/
theorem Takes.passes (takes : rule.Takes stands found names result) :
    rule.Passes found names result := by
  refine ⟨takes.admits.bindable, takes.grown, fun bound known nodup => ?_⟩
  obtain ⟨distinct, new⟩ := takes.admits.distinct bound known
  refine List.nodup_append.mpr ⟨(List.reverse_perm found).nodup_iff.mpr distinct, nodup, ?_⟩
  intro name inside other earlier same
  exact new name (List.mem_reverse.mp inside) (same ▸ earlier)

end TargetRule

/-- Two checks in a row pass if both do. -/
theorem bind_eq_ok_iff {α β : Type} {first : Except Refusal α} {next : α → Except Refusal β}
    {last : β} :
    first >>= next = .ok last ↔ ∃ middle, first = .ok middle ∧ next middle = .ok last := by
  cases first <;> simp [bind, Except.bind]

/-- The check of a name takes it if it may be bound. -/
theorem TargetRule.checkName_eq_ok_iff {pos : Nat} {name : String} :
    rule.checkName pos name names = .ok result ↔ rule.Takes True [name] names result := by
  have takes : rule.Takes True [name] names result ↔
      ((rule.strict = true → Word.isUnbindable name = false) ∧ ∀ bound ∈ names, name ∉ bound) ∧
        result = names.map (name :: ·) := by
    constructor
    · rintro ⟨-, ⟨bindable, distinct⟩, grown⟩
      exact ⟨⟨fun strict => bindable strict name List.mem_cons_self, fun bound known =>
        (distinct bound known).2 name List.mem_cons_self⟩, grown⟩
    · rintro ⟨⟨bindable, distinct⟩, grown⟩
      exact ⟨trivial, ⟨fun strict => by simpa using bindable strict, fun bound known =>
        ⟨by simp, by simpa using distinct bound known⟩⟩, grown⟩
  rw [takes, TargetRule.checkName.eq_def, @eq_comm _ result]
  cases names with
  | none => split <;> simp_all
  | some bound => repeat' split <;> simp_all

mutual

/-- A node passes a check if and only if it is a target and its names are taken. -/
theorem TargetRule.check_eq_ok_iff (node : Node) {names result : Option (List String)} :
    rule.check node names = .ok result ↔
      rule.Takes (node.IsTarget rule.isBinding rule.types) node.boundNames names result := by
  rw [Node.boundNames_eq, TargetRule.check]
  split
  case h_1 name annot isOptional same =>
    rw [same, eq_true (Node.IsTarget.identifier same)]
    exact checkName_eq_ok_iff
  case h_2 object property computed same =>
    rw [same, show (Form.memberExpression object property computed).boundNames = [] from rfl,
      takes_nil_iff, Node.IsTarget.member_iff same, @eq_comm _ result]
    cases rule.isBinding <;> simp
  case h_3 properties annot isOptional same =>
    rw [same, propext (Node.IsTarget.objectPattern_iff same)]
    exact checkProperties_eq_ok_iff properties
  case h_4 elements annot isOptional same =>
    rw [same, propext (Node.IsTarget.arrayPattern_iff same)]
    exact checkElements_eq_ok_iff elements
  case h_5 left right annot same =>
    rw [same, propext (Node.IsTarget.assignmentPattern_iff same)]
    exact check_eq_ok_iff left
  case h_6 argument same =>
    rw [same, propext (Node.IsTarget.restProperty_iff same)]
    exact check_eq_ok_iff argument
  case h_7 argument annot isOptional same =>
    rw [same, propext (Node.IsTarget.restElement_iff same)]
    exact check_eq_ok_iff argument
  case h_8 expression annot isItem same =>
    rw [same, show (Form.typeCastExpression expression annot isItem).boundNames = [] from rfl,
      takes_nil_iff, Node.IsTarget.cast_iff same, @eq_comm _ result]
    cases rule.types <;> simp
  case h_9 name member objects arrays assignment property element cast =>
    constructor
    · intro passes
      cases passes
    rintro ⟨target, -, -⟩
    cases target with
    | identifier same => exact (name _ _ _ same).elim
    | member same => exact (member _ _ _ same).elim
    | objectPattern same => exact (objects _ _ _ same).elim
    | arrayPattern same => exact (arrays _ _ _ same).elim
    | assignmentPattern same => exact (assignment _ _ _ same).elim
    | restProperty same => exact (property _ same).elim
    | restElement same => exact (element _ _ _ same).elim
    | cast same => exact (cast _ _ _ same).elim
termination_by sizeOf node
decreasing_by
  all_goals
    have below := node.sizeOf_form_lt
    rw [‹node.form = _›] at below
    simp at below
    omega

/-- Properties pass if and only if what each of them stands for is a target and the names of all of
them are taken. -/
theorem TargetRule.checkProperties_eq_ok_iff (properties : List Node)
    {names result : Option (List String)} :
    rule.checkProperties properties names = .ok result ↔
      rule.Takes (∀ property ∈ properties, property.judged.IsTarget rule.isBinding rule.types)
        (boundInAll properties) names result := by
  match properties with
  | [] =>
      rw [TargetRule.checkProperties, boundInAll, takes_nil_iff, @eq_comm _ result]
      simp
  | property :: rest =>
      -- A property is checked as what it stands for, and binds the same names.
      have judges {judged : Node} (value : property.judged = judged)
          (bound : property.boundNames = judged.boundNames)
          (smaller : sizeOf judged < 1 + sizeOf property + sizeOf rest) :
          ((do rule.checkProperties rest (← rule.check judged names)) = .ok result) ↔
            rule.Takes (∀ inner ∈ property :: rest,
              inner.judged.IsTarget rule.isBinding rule.types)
              (boundInAll (property :: rest)) names result := by
        simp only [bind_eq_ok_iff, check_eq_ok_iff judged, checkProperties_eq_ok_iff rest,
          takes_append_iff, List.forall_mem_cons, boundInAll, value, bound]
      rw [TargetRule.checkProperties]
      split
      · next value same =>
          refine judges (by rw [Node.judged, same]) ?_ ?_
          · rw [Node.boundNames_eq, same, Form.boundNames]
          · have below := property.sizeOf_form_lt
            rw [same] at below
            simp at below
            omega
      · next other =>
          refine judges ?_ rfl (by omega)
          rw [Node.judged]
          split
          · next same => exact absurd same (other _ _ _ _ _ _)
          · rfl
termination_by sizeOf properties
decreasing_by
  all_goals
    simp only [List.cons.sizeOf_spec]
    omega

/-- Elements pass if and only if those that are no holes are targets and the names of all of them
are taken. -/
theorem TargetRule.checkElements_eq_ok_iff (elements : List (Option Node))
    {names result : Option (List String)} :
    rule.checkElements elements names = .ok result ↔
      rule.Takes (∀ element, some element ∈ elements →
        element.IsTarget rule.isBinding rule.types) (boundInSlots elements) names result := by
  match elements with
  | [] =>
      rw [TargetRule.checkElements, boundInSlots, takes_nil_iff, @eq_comm _ result]
      simp
  | none :: rest =>
      rw [TargetRule.checkElements, checkElements_eq_ok_iff rest, boundInSlots, boundInSlot]
      simp
  | some element :: rest =>
      rw [TargetRule.checkElements]
      simp only [bind_eq_ok_iff, check_eq_ok_iff element, checkElements_eq_ok_iff rest,
        takes_append_iff, List.mem_cons, Option.some.injEq, forall_eq_or_imp, boundInSlots,
        boundInSlot]
termination_by sizeOf elements

end

/-- A node that passes a check binds names that do. Nothing else stands in it where something is
bound. -/
theorem TargetRule.check_passes (node : Node) {names result : Option (List String)}
    (passes : rule.check node names = .ok result) : rule.Passes node.boundNames names result ∧
      (rule.isBinding = true → node.NamesOnly rule.types) := by
  have takes := (check_eq_ok_iff node).mp passes
  exact ⟨takes.passes, fun binding => (binding ▸ takes.stands).namesOnly⟩

/-- Targets pass a check together if and only if each of them is one and the names of all of them
are taken. -/
theorem TargetRule.checkAll_eq_ok_iff {targets : List Node} :
    rule.checkAll targets names = .ok result ↔
      rule.Takes (∀ target ∈ targets, target.IsTarget rule.isBinding rule.types)
        (targets.flatMap Node.boundNames) names result := by
  unfold TargetRule.checkAll
  induction targets generalizing names with
  | nil =>
      rw [List.flatMap_nil, takes_nil_iff, @eq_comm _ result]
      simp [pure, Except.pure]
  | cons target rest inductionHypothesis =>
      rw [List.foldlM_cons, List.flatMap_cons]
      simp only [bind_eq_ok_iff, check_eq_ok_iff, inductionHypothesis, takes_append_iff,
        List.forall_mem_cons]

/-- Targets that pass a check together bind names that do. -/
theorem TargetRule.checkAll_passes {targets : List Node}
    (passes : rule.checkAll targets names = .ok result) :
    rule.Passes (targets.flatMap Node.boundNames) names result ∧
      (rule.isBinding = true → ∀ target ∈ targets, target.NamesOnly rule.types) := by
  have takes := checkAll_eq_ok_iff.mp passes
  exact ⟨takes.passes, fun binding target inside => (binding ▸ takes.stands target inside).namesOnly⟩

end Grammar

end EcmaSyntax
