import EcmaSyntax.Tree.Field

namespace EcmaSyntax

namespace Field

/-- The weight of a field bounds the size of each node in it. -/
noncomputable def weight : Field → Nat
  | .child node => sizeOf node
  | .children nodes => sizeOf nodes - 1
  | .holes nodes => sizeOf nodes
  | _ => 0

theorem weight_child (node : Node) : (child node).weight = sizeOf node := rfl

theorem weight_children (nodes : List Node) : (children nodes).weight = sizeOf nodes - 1 := rfl

theorem weight_holes (nodes : List (Option Node)) : (holes nodes).weight = sizeOf nodes := rfl

theorem weight_text (value : String) : (text value).weight = 0 := rfl

theorem weight_flag (value : Bool) : (flag value).weight = 0 := rfl

theorem weight_number (value : Float) : (number value).weight = 0 := rfl

theorem weight_template (raw cooked : String) : (template raw cooked).weight = 0 := rfl

/-- A node weighs no more than its field. -/
theorem sizeOf_le_weight {field : Field} {node : Node} (member : node ∈ field.nodes) :
    sizeOf node ≤ field.weight := by
  cases field with
  | child held =>
      simp only [nodes, List.mem_singleton] at member
      simp [weight, member]
  | children held =>
      have := List.sizeOf_lt_of_mem (show node ∈ held from member)
      simp only [weight]
      omega
  | holes held =>
      obtain ⟨slot, inside, same⟩ :=
        List.mem_filterMap.mp (show node ∈ held.filterMap id from member)
      have smaller := List.sizeOf_lt_of_mem inside
      simp only [id] at same
      subst same
      simp at smaller
      simp only [weight]
      omega
  | _ => simp [nodes] at member

theorem weight_ofOption (part : Option Node) : (ofOption part).weight = sizeOf part - 1 := by
  cases part <;> simp [ofOption, weight]

/-- The weight of a list of fields is the sum of their weights. -/
noncomputable def total : List (String × Field) → Nat
  | [] => 0
  | field :: rest => field.2.weight + total rest

theorem total_nil : total [] = 0 := rfl

theorem total_cons (name : String) (field : Field) (rest : List (String × Field)) :
    total ((name, field) :: rest) = field.weight + total rest := rfl

/-- The weights of two lists of fields add up. -/
theorem total_append (first second : List (String × Field)) :
    total (first ++ second) = total first + total second := by
  induction first with
  | nil => exact (Nat.zero_add _).symm
  | cons field rest inductionHypothesis =>
      rcases field with ⟨name, field⟩
      rw [List.cons_append, total_cons, total_cons, inductionHypothesis, Nat.add_assoc]

/-- A field weighs no more than all of them. -/
theorem weight_le_total {fields : List (String × Field)} {field : String × Field}
    (member : field ∈ fields) : field.2.weight ≤ total fields := by
  induction fields with
  | nil => simp at member
  | cons first rest inductionHypothesis =>
      rw [show total (first :: rest) = first.2.weight + total rest from total_cons _ _ _]
      rcases List.mem_cons.mp member with same | inside
      · simp [same]
      · have := inductionHypothesis inside
        omega

end Field

namespace Form

theorem total_fieldIf (name : String) (part : Option Node) :
    Field.total (fieldIf name part) = sizeOf part - 1 := by
  cases part <;> simp [fieldIf, Field.total, Field.weight]

theorem total_listIf (name : String) (nodes : List Node) :
    Field.total (listIf name nodes) = sizeOf nodes - 1 := by
  cases nodes <;> simp [listIf, Field.total, Field.weight]

theorem total_flagIf (name : String) (value : Bool) :
    Field.total (flagIf name value) = 0 := by
  cases value <;> simp [flagIf, Field.total, Field.weight]

theorem total_textIf (name : String) (value : Option String) :
    Field.total (textIf name value) = 0 := by
  cases value <;> simp [textIf, Field.total, Field.weight]

end Form

/-- The fields of a function weigh less than the function. -/
theorem FunctionForm.total_fields (function : FunctionForm) :
    Field.total function.fields < sizeOf function := by
  cases function
  simp only [fields, Field.total_append, Field.total_cons, Field.total_nil, Field.weight_child,
    Field.weight_children, Field.weight_flag, Field.weight_ofOption, Form.total_fieldIf,
    FunctionForm.mk.sizeOf_spec]
  omega

/-- The fields of a class weigh less than the class. -/
theorem ClassForm.total_fields (heading : ClassForm) :
    Field.total heading.fields < sizeOf heading := by
  rcases heading with ⟨_, _, _, _, _, implemented, _⟩
  cases implemented <;>
    simp only [fields, Field.total_append, Field.total_cons, Field.total_nil,
      Field.weight_child, Field.weight_children, Field.weight_ofOption, Form.total_fieldIf,
      Form.total_listIf, ClassForm.mk.sizeOf_spec,
      Option.none.sizeOf_spec, Option.some.sizeOf_spec] <;>
    omega

namespace Form

/-- The fields of a form weigh less than the form. -/
theorem total_fields (form : Form) : Field.total form.fields < sizeOf form := by
  cases form <;> delta fields <;> dsimp only
  case functionDeclaration function =>
    have := function.total_fields
    rw [functionDeclaration.sizeOf_spec]
    omega
  case functionExpression function =>
    have := function.total_fields
    rw [functionExpression.sizeOf_spec]
    omega
  case arrowFunctionExpression function =>
    have := function.total_fields
    rw [arrowFunctionExpression.sizeOf_spec]
    omega
  case objectMethod function =>
    have := function.total_fields
    simp only [Field.total_append, Field.total_cons, Field.total_nil, Field.weight_child,
      Field.weight_text, Field.weight_flag, total_listIf, objectMethod.sizeOf_spec]
    omega
  case classMethod function =>
    have := function.total_fields
    simp only [Field.total_append, Field.total_cons, Field.total_nil, Field.weight_child,
      Field.weight_text, Field.weight_flag, total_listIf, classMethod.sizeOf_spec]
    omega
  case classDeclaration heading =>
    have := heading.total_fields
    rw [classDeclaration.sizeOf_spec]
    omega
  case classExpression heading =>
    have := heading.total_fields
    rw [classExpression.sizeOf_spec]
    omega
  all_goals
    simp [Field.total_append, Field.total_cons, Field.total_nil, Field.weight_child,
      Field.weight_children, Field.weight_holes, Field.weight_text, Field.weight_flag,
      Field.weight_number, Field.weight_template, Field.weight_ofOption, total_fieldIf,
      total_listIf, total_flagIf, total_textIf]
  all_goals omega

/-- The nodes in the fields of a form are smaller than the form. -/
theorem fields_below (form : Form) {field : String × Field} {node : Node}
    (member : field ∈ form.fields) (inside : node ∈ field.2.nodes) :
    sizeOf node < sizeOf form := by
  have first := Field.sizeOf_le_weight inside
  have second := Field.weight_le_total member
  have third := form.total_fields
  omega

/-- The children of a form are smaller than the form. -/
theorem children_below (form : Form) {node : Node} (member : node ∈ form.children) :
    sizeOf node < sizeOf form := by
  obtain ⟨field, held, inside⟩ := mem_parts.mp (mem_parts_of_mem_children member)
  exact form.fields_below held inside

end Form

namespace Node

/-- A form is smaller than its node. -/
theorem sizeOf_form_lt (node : Node) : sizeOf node.form < sizeOf node := by
  cases node
  simp
  omega

/-- The children of a node are smaller than the node. -/
theorem sizeOf_lt_of_mem_children {node child : Node} (member : child ∈ node.children) :
    sizeOf child < sizeOf node :=
  Nat.lt_trans (node.form.children_below member) node.sizeOf_form_lt

/-- A node and all nodes below it, each before its children. -/
def walk (node : Node) : List Node :=
  node :: node.children.attach.flatMap fun child => walk child.1
termination_by sizeOf node
decreasing_by exact sizeOf_lt_of_mem_children child.2

/-- A walk visits a node and then walks each of its children in turn. -/
theorem walk_eq (node : Node) : node.walk = node :: node.children.flatMap walk := by
  rw [walk]
  simp

end Node

end EcmaSyntax
