import EcmaSyntax.Proofs.Tree.Binding

namespace EcmaSyntax

/-- The node is the rest of a list, a name. -/
def Node.RestName (node : Node) : Prop :=
  ∃ argument annot isOptional, node.form = .restElement argument annot isOptional ∧
    argument.isIdentifier = true

mutual

/-- A node is a name, or a pattern of such nodes. The last element of a list may be the rest. -/
inductive Node.Pattern : Node → Prop
  | identifier {node : Node} {name : String} {annot : Option Node} {isOptional : Bool}
      (same : node.form = .identifier name annot isOptional) : Pattern node
  | objectPattern {node : Node} {properties : List Node} {annot : Option Node} {isOptional : Bool}
      (same : node.form = .objectPattern properties annot isOptional)
      (each : ∀ property ∈ properties, PatternMember property) : Pattern node
  | arrayPattern {node : Node} {items : List (Option Node)} {closing annot : Option Node}
      {isOptional : Bool}
      (same : node.form = .arrayPattern (items ++ closing.toList.map some) annot isOptional)
      (each : ∀ item, some item ∈ items → Pattern item) (closes : ∀ rest ∈ closing, rest.RestName) :
      Pattern node
  | assignmentPattern {node left right : Node} {annot : Option Node}
      (same : node.form = .assignmentPattern left right annot) (target : Pattern left) :
      Pattern node

/-- A member of an object pattern is a property with a pattern, or the rest of the object. What
this one is given to may be any expression. -/
inductive Node.PatternMember : Node → Prop
  | objectProperty {node key value : Node} {method shorthand computed : Bool}
      {decorators : List Node}
      (same : node.form = .objectProperty method shorthand computed decorators key value)
      (target : Node.Pattern value) : PatternMember node
  | restProperty {node argument : Node} (same : node.form = .restProperty argument) :
      PatternMember node

end

/-- Nodes are patterns, but for the last one, which may be the rest. -/
def PatternList (nodes : List Node) : Prop :=
  ∃ items, ∃ closing : Option Node, nodes = items ++ closing.toList ∧
    (∀ item ∈ items, item.Pattern) ∧ ∀ rest ∈ closing, rest.RestName

/-- The elements of a list that are no holes are patterns, but for the last one, which may be the
rest. -/
def PatternSlots (slots : List (Option Node)) : Prop :=
  ∃ items, ∃ closing : Option Node, slots = items ++ closing.toList.map some ∧
    (∀ item, some item ∈ items → item.Pattern) ∧ ∀ rest ∈ closing, rest.RestName

theorem PatternList.nil : PatternList [] := ⟨[], none, rfl, nofun, nofun⟩

theorem PatternSlots.nodes {slots : List (Option Node)} (patterns : PatternSlots slots) :
    PatternList (slots.filterMap id) := by
  obtain ⟨items, closing, rfl, each, closes⟩ := patterns
  refine ⟨items.filterMap id, closing, ?_, fun item inside => ?_, closes⟩
  · cases closing <;> simp
  · obtain ⟨slot, member, same⟩ := List.mem_filterMap.mp inside
    exact each item (same ▸ member)

/-- A form is another one with another type, or with another mark of an optional parameter. -/
inductive Form.Retyped : Form → Form → Prop
  | refl (form : Form) : Retyped form form
  | identifier (name : String) (annot other : Option Node) (isOptional marked : Bool) :
    Retyped (.identifier name annot isOptional) (.identifier name other marked)
  | objectPattern (properties : List Node) (annot other : Option Node) (isOptional marked : Bool) :
    Retyped (.objectPattern properties annot isOptional) (.objectPattern properties other marked)
  | arrayPattern (elements : List (Option Node)) (annot other : Option Node)
    (isOptional marked : Bool) :
    Retyped (.arrayPattern elements annot isOptional) (.arrayPattern elements other marked)
  | restElement (argument : Node) (annot other : Option Node) (isOptional marked : Bool) :
    Retyped (.restElement argument annot isOptional) (.restElement argument other marked)
  | objectExpression (properties : List Node) (annot other : Option Node) :
    Retyped (.objectExpression properties annot) (.objectExpression properties other)
  | arrayExpression (elements : List (Option Node)) (annot other : Option Node) :
    Retyped (.arrayExpression elements annot) (.arrayExpression elements other)
  | assignmentPattern (left right : Node) (annot other : Option Node) :
    Retyped (.assignmentPattern left right annot) (.assignmentPattern left right other)
  | assignmentExpression (operator : String) (left right : Node) (annot other : Option Node) :
    Retyped (.assignmentExpression operator left right annot)
      (.assignmentExpression operator left right other)

namespace Node

variable {node annot param : Node} {types : Bool}

/-- A parameter with a type has the form that it had. -/
theorem retyped_of_withAnnot? (placed : node.withAnnot? annot = some param) :
    node.form.Retyped param.form := by
  unfold withAnnot? at placed
  split at placed <;> cases placed
  all_goals
    rw [‹node.form = _›]
    constructor

/-- An optional parameter has the form that it had. -/
theorem retyped_of_asOptional? (placed : node.asOptional? = some param) :
    node.form.Retyped param.form := by
  unfold asOptional? at placed
  split at placed <;> cases placed
  all_goals
    rw [‹node.form = _›]
    constructor

/-- A type adds no name to those that a node binds. -/
theorem boundNames_of_retyped (retyped : node.form.Retyped param.form) :
    param.boundNames = node.boundNames := by
  rw [boundNames_eq, boundNames_eq node]
  generalize node.form = form, param.form = other at retyped ⊢
  cases retyped <;> rfl

/-- The name of a rest may get a type. -/
theorem RestName.retyped (rest : node.RestName) (retyped : node.form.Retyped param.form) :
    param.RestName := by
  obtain ⟨argument, annot, isOptional, same, name⟩ := rest
  rw [same] at retyped
  generalize other : param.form = form at retyped
  cases retyped <;> exact ⟨_, _, _, other, name⟩

/-- A pattern may get a type. -/
theorem Pattern.retyped (pattern : node.Pattern) (retyped : node.form.Retyped param.form) :
    param.Pattern := by
  generalize other : param.form = form at retyped
  cases pattern with
  | identifier same =>
      rw [same] at retyped
      cases retyped <;> exact .identifier other
  | objectPattern same each =>
      rw [same] at retyped
      cases retyped <;> exact .objectPattern other each
  | arrayPattern same each closes =>
      rw [same] at retyped
      cases retyped <;> exact .arrayPattern other each closes
  | assignmentPattern same target =>
      rw [same] at retyped
      cases retyped <;> exact .assignmentPattern other target

/-- A pattern of names only may get a type. -/
theorem NamesOnly.retyped (names : node.NamesOnly types)
    (retyped : node.form.Retyped param.form) : param.NamesOnly types := by
  generalize other : param.form = form at retyped
  cases names with
  | identifier same =>
      rw [same] at retyped
      cases retyped <;> exact .identifier other
  | objectPattern same each =>
      rw [same] at retyped
      cases retyped <;> exact .objectPattern other each
  | restProperty same inner =>
      rw [same] at retyped
      cases retyped
      exact .restProperty other inner
  | arrayPattern same each =>
      rw [same] at retyped
      cases retyped <;> exact .arrayPattern other each
  | restElement same inner =>
      rw [same] at retyped
      cases retyped <;> exact .restElement other inner
  | assignmentPattern same target =>
      rw [same] at retyped
      cases retyped <;> exact .assignmentPattern other target
  | cast same known =>
      rw [same] at retyped
      cases retyped
      exact .cast other known

/-- Whether a node is a pattern does not depend on how and where it was written. -/
theorem Pattern.congr (pattern : node.Pattern) (same : param.form = node.form) : param.Pattern :=
  pattern.retyped (same ▸ .refl _)

/-- A name is a pattern. -/
theorem Pattern.ofIdentifier (identifier : node.isIdentifier = true) : node.Pattern := by
  obtain ⟨name, named⟩ := Option.isSome_iff_exists.mp identifier
  unfold name? at named
  split at named
  · next same => exact .identifier same
  · cases named

end Node

end EcmaSyntax
