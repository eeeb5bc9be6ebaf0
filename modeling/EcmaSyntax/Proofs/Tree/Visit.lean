import EcmaSyntax.Proofs.Tree.Nesting
import EcmaSyntax.Proofs.Tree.Permitted
import EcmaSyntax.Proofs.Value
import EcmaSyntax.Tree.Json
import Mathlib.Data.List.Flatten
import Mathlib.Data.List.Perm.Basic

namespace EcmaSyntax

section Walk

variable {good : Node → Prop} {node inner : Node} {quasis expressions : List Node}

/-- If a template alternates, none of its parts is left over. -/
theorem Form.interleave_perm (alternates : quasis.length = expressions.length + 1) :
    (interleave quasis expressions).Perm (quasis ++ expressions) := by
  induction expressions generalizing quasis with
  | nil =>
      obtain ⟨quasi, rfl⟩ := List.length_eq_one_iff.mp alternates
      exact .rfl
  | cons expression rest inductionHypothesis =>
      obtain ⟨quasi, others, rfl⟩ := List.exists_cons_of_length_eq_add_one alternates
      have known := inductionHypothesis (Nat.succ.inj alternates)
      exact ((known.cons expression).trans List.perm_middle.symm).cons quasi

/-- The children of a form are the nodes in its fields. -/
theorem Form.children_perm {form : Form} (alternates : form.Alternates) :
    form.children.Perm form.parts := by
  cases same : form.isTemplate with
  | false => rw [children_eq_parts same]
  | true =>
      cases form <;> cases same
      simpa [children, parts, fields] using interleave_perm alternates

/-- An item of lists put together is in one of them, and what follows it there comes first of what
follows it. -/
theorem exists_mem_of_flatMap_eq {α β : Type} {items : List α} {expand : α → List β}
    {before after : List β} {inner : β} (split : items.flatMap expand = before ++ inner :: after) :
    ∃ item ∈ items, ∃ former latter,
      expand item = former ++ inner :: latter ∧ latter <+: after := by
  induction items generalizing before with
  | nil => simp at split
  | cons item rest inductionHypothesis =>
      rw [List.flatMap_cons, List.append_eq_append_iff] at split
      rcases split with ⟨later, rfl, others⟩ | ⟨latter, whole, others⟩
      · obtain ⟨found, member, known⟩ := inductionHypothesis others
        exact ⟨found, List.mem_cons_of_mem _ member, known⟩
      · cases latter with
        | nil =>
            have begins : rest.flatMap expand = [] ++ inner :: after := others.symm
            obtain ⟨found, member, known⟩ := inductionHypothesis begins
            exact ⟨found, List.mem_cons_of_mem _ member, known⟩
        | cons first latter =>
            obtain ⟨rfl, rfl⟩ := List.cons.inj others
            exact ⟨item, List.mem_cons_self, before, latter, whole, List.prefix_append _ _⟩

namespace Node

/-- A node and all nodes below it, field by field. -/
def fieldwise (node : Node) : List Node :=
  node :: node.parts.attach.flatMap fun part => fieldwise part.1
termination_by sizeOf node
decreasing_by exact sizeOf_part_lt part.2

/-- A walk along the fields visits a node and then what is in its parts. -/
theorem fieldwise_eq (node : Node) : node.fieldwise = node :: node.parts.flatMap fieldwise := by
  rw [fieldwise]
  simp

/-- If all templates in a tree alternate, a walk visits all of its nodes. -/
theorem walk_perm (all : node.Everywhere fun inner => inner.form.Alternates) :
    node.walk.Perm node.fieldwise := by
  induction all with
  | @intro node here _ inductionHypothesis =>
      rw [walk_eq, fieldwise_eq]
      have below : (node.parts.flatMap walk).Perm (node.parts.flatMap fieldwise) :=
        List.Perm.flatMap_left _ fun part inside => by
          obtain ⟨field, held, member⟩ := Form.mem_parts.mp inside
          exact inductionHypothesis field held part member
      exact (((Form.children_perm here).flatMap_right _).trans below).cons node

/-- What holds everywhere in a tree holds everywhere below each node that a walk visits. -/
theorem Everywhere.visited (all : node.Everywhere good) (inside : inner ∈ node.walk) :
    inner.Everywhere good := by
  induction all with
  | @intro node here below inductionHypothesis =>
      rw [walk_eq, List.mem_cons, List.mem_flatMap] at inside
      rcases inside with rfl | ⟨child, member, inside⟩
      · exact .intro here below
      · obtain ⟨field, held, member⟩ := Form.mem_parts.mp (Form.mem_parts_of_mem_children member)
        exact inductionHypothesis field held child member inside

/-- A walk goes through all that is below a node right after it has visited the node. -/
theorem walk_split (node : Node) {before after : List Node}
    (split : node.walk = before ++ inner :: after) : inner.children.flatMap walk <+: after := by
  rw [walk_eq] at split
  cases before with
  | nil =>
      obtain ⟨rfl, rfl⟩ := List.cons.inj split
      exact List.prefix_rfl
  | cons first before =>
      obtain ⟨child, member, former, latter, within, part⟩ :=
        exists_mem_of_flatMap_eq (List.cons.inj split).2
      exact (walk_split child within).trans part
termination_by sizeOf node
decreasing_by exact sizeOf_lt_of_mem_children member

/-- What follows from a condition on forms holds everywhere where the condition does. -/
theorem Throughout.everywhere {condition : Mode → Form → Prop} {mode : Mode}
    (throughout : node.Throughout condition mode)
    (implies : ∀ mode (inner : Node), condition mode inner.form → good inner) :
    node.Everywhere good := by
  induction throughout with
  | intro inner holds enters inside inductionHypothesis =>
      exact .intro (implies _ _ holds) inductionHypothesis

end Node

end Walk

namespace Json

/-- The name of the type of an object. -/
def typeName? (value : Json) : Option String :=
  match value.member? "type" with
  | some (.string name) => some name
  | _ => none

/-- An object is a node if it has a type, and not that of a comment. -/
def isNode (value : Json) : Bool :=
  value.typeName?.any fun name => name != "CommentBlock" && name != "CommentLine"

mutual

/-- The nodes among a value and the values within it, each before those within it. -/
def nodes : Json → List Json
  | .array items => itemNodes items
  | .object members =>
    (if isNode (.object members) then [.object members] else []) ++ memberNodes members
  | _ => []

def itemNodes : List Json → List Json
  | [] => []
  | item :: rest => nodes item ++ itemNodes rest

def memberNodes : List (String × Json) → List Json
  | [] => []
  | (_, value) :: rest => nodes value ++ memberNodes rest

end

section Nodes

variable {items : List Json} {members first second : List (String × Json)} {name : String}

theorem itemNodes_eq : itemNodes items = items.flatMap nodes := by
  induction items with
  | nil => rfl
  | cons item rest inductionHypothesis => rw [itemNodes, inductionHypothesis, List.flatMap_cons]

theorem memberNodes_eq : memberNodes members = members.flatMap fun member => member.2.nodes := by
  induction members with
  | nil => rfl
  | cons member rest inductionHypothesis =>
      rw [memberNodes, inductionHypothesis, List.flatMap_cons]

@[simp] theorem nodes_null : nodes .null = [] := by simp [nodes]

@[simp] theorem nodes_bool (value : Bool) : nodes (.bool value) = [] := by simp [nodes]

@[simp] theorem nodes_nat (value : Nat) : nodes (.nat value) = [] := by simp [nat, nodes]

@[simp] theorem nodes_string (value : String) : nodes (.string value) = [] := by simp [nodes]

@[simp] theorem nodes_array : nodes (.array items) = items.flatMap nodes := by
  rw [nodes, itemNodes_eq]

/-- The nodes in an object are itself, if it is one, and those in its members. -/
@[simp] theorem nodes_object : nodes (.object members) =
    (if isNode (.object members) then [.object members] else []) ++
      members.flatMap fun member => member.2.nodes := by
  rw [nodes, memberNodes_eq]

theorem nodes_ofFloat (value : Float) : (ofFloat value).nodes = [] := by
  rw [ofFloat]
  split <;> simp [nodes]

/-- A member is not the type of its object, and its value is no node and holds none. -/
structure Apart (member : String × Json) : Prop where
  name : member.1 ≠ "type"
  value : member.2.nodes = []

/-- Members that hold no nodes contribute none. -/
theorem flatMap_nodes_of_apart (apart : ∀ member ∈ members, Apart member) :
    members.flatMap (fun member => member.2.nodes) = [] :=
  List.flatMap_eq_nil_iff.mpr fun member inside => (apart member inside).value

/-- An object of such members is no node and holds none. -/
theorem nodes_object_of_apart (apart : ∀ member ∈ members, Apart member) :
    nodes (.object members) = [] := by
  have untyped : isNode (.object members) = false := by
    rw [isNode, typeName?, member?,
      lastUnder_eq_none fun member inside => (apart member inside).name]
    rfl
  rw [nodes_object, untyped, flatMap_nodes_of_apart apart]
  rfl

end Nodes

end Json

@[simp] theorem Location.nodes_toJson (location : Location) : location.toJson.nodes = [] := by
  simp [toJson, Position.toJson, Json.isNode, Json.typeName?, Json.member?, Json.lastUnder]

@[simp] theorem Comment.nodes_toJson (comment : Comment) : comment.toJson.nodes = [] := by
  cases same : comment.isBlock <;>
    simp [toJson, same, Json.isNode, Json.typeName?, Json.member?, Json.lastUnder]

section Members

open Json (Apart)

variable {style : TreeStyle} {name : String} {member : String × Json}

/-- Comments hold no nodes. -/
theorem commentMember_plain {comments : Option (List Comment)}
    (inside : member ∈ commentMember name comments) : member.1 = name ∧ member.2.nodes = [] := by
  cases comments with
  | none => simp [commentMember] at inside
  | some comments =>
      rw [commentMember, List.mem_singleton] at inside
      subst inside
      exact ⟨rfl, by simp [List.flatMap_map]⟩

/-- The members for comments have their names and hold no nodes. -/
theorem Attached.members_plain {attached : Attached} (inside : member ∈ attached.members) :
    member.1 ∈ ["leadingComments", "trailingComments", "innerComments"] ∧
      member.2.nodes = [] := by
  simp only [members, List.mem_append] at inside
  rcases inside with (leading | trailing) | inner
  · have ⟨same, plain⟩ := commentMember_plain leading
    exact ⟨by simp [same], plain⟩
  · have ⟨same, plain⟩ := commentMember_plain trailing
    exact ⟨by simp [same], plain⟩
  · have ⟨same, plain⟩ := commentMember_plain inner
    exact ⟨by simp [same], plain⟩

/-- The members for the comments of a node hold no nodes. -/
theorem TreeStyle.commentMembers_plain {id : NodeId} (inside : member ∈ style.commentMembers id) :
    member.1 ∈ ["leadingComments", "trailingComments", "innerComments"] ∧
      member.2.nodes = [] := by
  unfold commentMembers at inside
  split at inside
  · exact Attached.members_plain inside
  · simp at inside

/-- The members for comments stand apart from the type of a node. -/
theorem TreeStyle.commentMembers_apart {id : NodeId} (inside : member ∈ style.commentMembers id) :
    Apart member := by
  have ⟨among, plain⟩ := commentMembers_plain inside
  exact ⟨fun same => by simp [same] at among, plain⟩

/-- Numbers are written as values that are no nodes and hold none. -/
def TreeStyle.Plain (style : TreeStyle) : Prop := ∀ value, (style.number value).nodes = []

/-- The member for what is noted beside a node stands apart from its type. -/
theorem TreeStyle.extraMember_apart (plain : style.Plain) {extra : Option Extra}
    (inside : member ∈ style.extraMember extra) : Apart member := by
  have raw : ∀ value : RawValue, (style.rawValue value).nodes = [] := by
    rintro (value | value)
    · exact Json.nodes_string value
    · exact plain value
  cases extra with
  | none => simp [extraMember] at inside
  | some extra =>
      rw [extraMember, List.mem_singleton] at inside
      subst inside
      refine ⟨by simp, Json.nodes_object_of_apart fun member known => ?_⟩
      obtain ⟨entry, listed, same⟩ := List.mem_filterMap.mp known
      obtain ⟨json, held, rfl⟩ := Option.map_eq_some_iff.mp same
      have plainly : entry.1 ≠ "type" ∧ ∀ json ∈ entry.2, json.nodes = [] := by
        simp only [List.mem_cons, List.not_mem_nil, or_false] at listed
        rcases listed with rfl | rfl | rfl | rfl | rfl <;>
          simp [raw, or_imp, forall_and]
      exact ⟨plainly.1, plainly.2 json held⟩

end Members

section Fields

variable {style : TreeStyle} {node : Node} {name : String} {first rest : List (String × Field)}

/-- None of some fields is the type of its node. -/
def Field.Untyped (fields : List (String × Field)) : Prop := ∀ field ∈ fields, field.1 ≠ "type"

@[simp] theorem Field.untyped_nil : Untyped [] := by simp [Untyped]

/-- No field is named for the type if neither the first nor another one is. -/
@[simp] theorem Field.untyped_cons {field : Field} :
    Untyped ((name, field) :: rest) ↔ name ≠ "type" ∧ Untyped rest := by
  simp [Untyped]

@[simp] theorem Field.untyped_append :
    Untyped (first ++ rest) ↔ Untyped first ∧ Untyped rest := by
  simp [Untyped, or_imp, forall_and]

@[simp] theorem Form.untyped_fieldIf {part : Option Node} (other : name ≠ "type") :
    Field.Untyped (fieldIf name part) := by
  cases part <;> simp [fieldIf, other]

@[simp] theorem Form.untyped_listIf {nodes : List Node} (other : name ≠ "type") :
    Field.Untyped (listIf name nodes) := by
  cases nodes <;> simp [listIf, other]

@[simp] theorem Form.untyped_flagIf {value : Bool} (other : name ≠ "type") :
    Field.Untyped (flagIf name value) := by
  cases value <;> simp [flagIf, other]

@[simp] theorem Form.untyped_textIf {value : Option String} (other : name ≠ "type") :
    Field.Untyped (textIf name value) := by
  cases value <;> simp [textIf, other]

/-- No field of a function is named for the type. -/
@[simp] theorem FunctionForm.untyped_fields (function : FunctionForm) :
    Field.Untyped function.fields := by
  simp [fields]

/-- No field of a class is named for the type. -/
@[simp] theorem ClassForm.untyped_fields (heading : ClassForm) : Field.Untyped heading.fields := by
  rcases heading with ⟨decorators, id, typeParameters, superClass, superTypes, implemented, body⟩
  cases implemented <;> simp [fields]

/-- No field of any form is named for the type. -/
theorem Form.untyped_fields (form : Form) : Field.Untyped form.fields := by
  cases form <;> delta fields <;> simp

/-- No node is called a comment. -/
theorem Form.typeName_ne (form : Form) :
    form.typeName ≠ "CommentBlock" ∧ form.typeName ≠ "CommentLine" := by
  cases form <;> simp [typeName]

/-- A hole is written as null. -/
theorem Field.toJson_holes {number : Float → Json} {slots : List (Option Node)}
    {write : Node → Json} : ((holes slots).toJson number fun child _ => write child) =
      .array (slots.map fun slot => Json.orNull (slot.map write)) := by
  have written := List.attach_map_val (l := slots) (f := fun slot => Json.orNull (slot.map write))
  rw [toJson, ← written]
  refine congrArg Json.array (List.map_congr_left fun slot _ => ?_)
  split <;> simp [*, Json.orNull]

/-- The nodes in what is written of a field are those of the nodes in it. -/
theorem Field.nodes_toJson (plain : style.Plain) {field : Field} {write : Node → Json} :
    (field.toJson style.number fun child _ => write child).nodes =
      field.nodes.flatMap fun child => (write child).nodes := by
  cases field with
  | child node => simp [toJson, nodes]
  | children held => simp [toJson, nodes, List.flatMap_map]
  | holes slots =>
      rw [toJson_holes, Json.nodes_array, List.flatMap_map, nodes_holes]
      induction slots with
      | nil => rfl
      | cons slot rest inductionHypothesis =>
          cases slot <;> simpa [Json.orNull] using inductionHypothesis
  | template raw cooked =>
      simp [toJson, nodes, Json.isNode, Json.typeName?, Json.member?, Json.lastUnder]
  | number value => simpa [toJson, nodes] using plain value
  | _ => simp [toJson, nodes]

namespace Node

/-- The members for the fields of a node. -/
def members (style : TreeStyle) (node : Node) : List (String × Json) :=
  node.form.fields.map fun field =>
    (field.1, field.2.toJson style.number fun child _ => child.toJson style)

/-- A node is written with its type first, then its place, its fields and its comments. -/
theorem toJson_eq (style : TreeStyle) (node : Node) : node.toJson style =
    .object ([("type", .string node.form.typeName), ("start", .nat node.start),
      ("end", .nat node.stop), ("loc", node.loc.toJson)] ++ node.members style ++
      style.extraMember node.extra ++ style.commentMembers node.id) := by
  have written := List.attach_map_val (l := node.form.fields) (f := fun field =>
    (field.1, field.2.toJson style.number fun child _ => child.toJson style))
  rw [toJson, members, ← written]

/-- No member for a field is taken for the type. -/
theorem lastUnder_members : Json.lastUnder "type" (node.members style) = none := by
  refine Json.lastUnder_eq_none fun member inside => ?_
  obtain ⟨field, held, rfl⟩ := List.mem_map.mp inside
  exact node.form.untyped_fields field held

/-- The nodes in the members of a node are those that are written for its parts. -/
theorem flatMap_nodes_members (plain : style.Plain) :
    (node.members style).flatMap (fun member => member.2.nodes) =
      node.parts.flatMap fun part => (part.toJson style).nodes := by
  rw [members, List.flatMap_map]
  simp only [Field.nodes_toJson plain]
  exact List.flatMap_assoc.symm

/-- What is written of a node is a node. -/
theorem isNode_toJson (plain : style.Plain) : (node.toJson style).isNode = true := by
  have extra : Json.lastUnder "type" (style.extraMember node.extra) = none :=
    Json.lastUnder_eq_none fun _ inside => (TreeStyle.extraMember_apart plain inside).name
  have comments : Json.lastUnder "type" (style.commentMembers node.id) = none :=
    Json.lastUnder_eq_none fun _ inside => (TreeStyle.commentMembers_apart inside).name
  rw [toJson_eq, Json.isNode, Json.typeName?, Json.member?, Json.lastUnder_append,
    Json.lastUnder_append, Json.lastUnder_append, comments, extra, lastUnder_members]
  simp [Json.lastUnder, node.form.typeName_ne]

/-- The nodes in what is written of a node are what is written of it and the nodes in what is
written of the nodes in its fields. -/
theorem nodes_toJson (plain : style.Plain) : (node.toJson style).nodes =
    node.toJson style :: node.parts.flatMap fun part => (part.toJson style).nodes := by
  have whole : (node.toJson style).isNode = true := isNode_toJson plain
  have extra : (style.extraMember node.extra).flatMap (fun member => member.2.nodes) = [] :=
    Json.flatMap_nodes_of_apart fun _ inside => TreeStyle.extraMember_apart plain inside
  have comments : (style.commentMembers node.id).flatMap (fun member => member.2.nodes) = [] :=
    Json.flatMap_nodes_of_apart fun _ inside => TreeStyle.commentMembers_apart inside
  rw [toJson_eq] at whole
  rw [toJson_eq, Json.nodes_object, if_pos whole, List.flatMap_append, List.flatMap_append,
    List.flatMap_append, flatMap_nodes_members plain, extra, comments]
  simp

/-- The nodes in what is written of a node are those of its tree, field by field. -/
theorem nodes_toJson_eq_map (plain : style.Plain) (node : Node) :
    (node.toJson style).nodes = node.fieldwise.map (toJson style) := by
  rw [nodes_toJson plain, fieldwise_eq, List.map_cons, List.map_flatMap]
  exact congrArg _ (List.flatMap_congr fun part inside => nodes_toJson_eq_map plain part)
termination_by sizeOf node
decreasing_by exact sizeOf_part_lt inside

/-- The comments that belong to a node are written at its end. -/
theorem toJson_attached {attached : Attached}
    (found : style.attachments[node.id]? = some attached) :
    ∃ members, node.toJson style = .object (members ++ attached.members) := by
  rw [toJson_eq, TreeStyle.commentMembers, found]
  exact ⟨_, rfl⟩

end Node

end Fields

section Transfer

variable {recorded given : Attachments} {id : NodeId}

/-- A node is given the comments that belong to it. -/
theorem Attached.getElem?_give {node : Node} : (give recorded given node)[id]? =
    if id = node.id then recorded[id]?.or given[id]? else given[id]? := by
  rw [give]
  by_cases same : id = node.id
  · subst same
    split <;> simp [*]
  · split
    · rw [Std.TreeMap.getElem?_insert, if_neg same]
      simp [Ne.symm same]
    · rw [if_neg same]

/-- Each node that is visited is given the comments that belong to it. -/
theorem Attached.getElem?_foldl_give {visited : List Node} :
    (visited.foldl (give recorded) given)[id]? =
      if id ∈ visited.map Node.id then recorded[id]?.or given[id]? else given[id]? := by
  induction visited generalizing given with
  | nil => simp
  | cons node rest inductionHypothesis =>
      rw [List.foldl_cons, inductionHypothesis, getElem?_give]
      simp only [List.map_cons, List.mem_cons]
      by_cases here : id = node.id
      · simp only [here, true_or, if_true, ← Option.or_assoc, Option.or_self, ite_self]
      · simp only [here, false_or, if_false]

/-- The comments that have been recorded for a node are given to it if a walk visits it. -/
theorem Node.getElem?_transferred {node : Node} : (node.transferred recorded)[id]? =
    if id ∈ node.walk.map Node.id then recorded[id]? else none := by
  rw [transferred, Attached.getElem?_foldl_give]
  simp

end Transfer

end EcmaSyntax
