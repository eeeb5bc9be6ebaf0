import EcmaSyntax.Grammar.State
import EcmaSyntax.Proofs.Text.Seam
import EcmaSyntax.Proofs.Tree.All
import Mathlib.Data.List.Perm.Subperm

namespace EcmaSyntax

/-- The nodes that a node consists of, field by field. -/
def Node.parts (node : Node) : List Node := node.form.parts

/-- A part is smaller than its node. -/
theorem Node.sizeOf_part_lt {node part : Node} (inside : part ∈ node.parts) :
    sizeOf part < sizeOf node := by
  obtain ⟨field, held, member⟩ := Form.mem_parts.mp inside
  exact Nat.lt_trans (node.form.fields_below held member) node.sizeOf_form_lt

/-- A condition holds of a node and of all nodes below it, field by field. -/
inductive Node.Everywhere (good : Node → Prop) : Node → Prop
  | intro {node : Node} (here : good node)
      (below : ∀ field ∈ node.form.fields, ∀ child ∈ field.2.nodes, Everywhere good child) :
      Everywhere good node

/-- A decorator is read before the node that it belongs to begins. -/
def Node.isDecorator (node : Node) : Bool :=
  match node.form with
  | .decorator _ => true
  | _ => false

/-- The decorators that a form consists of. -/
def Form.decorators : Form → List Node
  | .objectProperty _ _ _ decorators _ _ => decorators
  | .objectMethod _ _ _ _ decorators _ _ => decorators
  | .classMethod _ _ _ decorators _ _ => decorators
  | .classProperty _ _ decorators _ _ _ => decorators
  | .classDeclaration heading => heading.decorators
  | .classExpression heading => heading.decorators
  | _ => []

/-- What a class consists of beside its decorators. -/
def ClassForm.undecorated (heading : ClassForm) : List Node :=
  heading.id.toList ++ heading.typeParameters.toList ++ heading.superClass.toList ++
    heading.superTypeParameters.toList ++ heading.implemented.getD [] ++ [heading.body]

/-- The children of a class are its decorators and the others. -/
theorem ClassForm.children_eq (heading : ClassForm) :
    heading.children = heading.decorators ++ heading.undecorated := by
  simp only [children, undecorated, List.append_assoc]

/-- A node ends after its start, and all nodes that it consists of lie between the two, decorators
apart. -/
structure Node.Encloses (node : Node) : Prop where
  ordered : node.start ≤ node.stop
  inside : ∀ field ∈ node.form.fields, ∀ child ∈ field.2.nodes, child.isDecorator = false →
    node.start ≤ child.start ∧ child.stop ≤ node.stop

/-- Nodes stand in a row: each one ends before the next one starts. -/
def InRow (nodes : List Node) : Prop :=
  nodes.Pairwise fun former latter => former.stop ≤ latter.start

namespace InRow

variable {node : Node} {nodes part : List Node}

theorem nil : InRow [] := List.Pairwise.nil

theorem single (node : Node) : InRow [node] := List.pairwise_singleton _ _

theorem option (part : Option Node) : InRow part.toList := by
  cases part with
  | none => exact nil
  | some node => exact single node

/-- Two nodes are in a row if the first ends before the second starts. -/
theorem pair {former latter : Node} :
    InRow [former, latter] ↔ former.stop ≤ latter.start := List.pairwise_pair

/-- Some nodes of a row are in a row. -/
theorem sublist (row : InRow nodes) (within : part.Sublist nodes) : InRow part :=
  List.Pairwise.sublist within row

/-- The first nodes end before an offset, and the last ones start after it. -/
theorem append {former latter : List Node} {pos : Nat} (begins : InRow former)
    (goesOn : InRow latter) (before : ∀ node ∈ former, node.stop ≤ pos)
    (after : ∀ node ∈ latter, pos ≤ node.start) : InRow (former ++ latter) :=
  List.pairwise_append.mpr ⟨begins, goesOn, fun node early other late =>
    Nat.le_trans (before node early) (after other late)⟩

/-- A node comes last that starts after all others. -/
theorem concat (row : InRow nodes) (after : ∀ other ∈ nodes, other.stop ≤ node.start) :
    InRow (nodes ++ [node]) :=
  List.pairwise_append.mpr ⟨row, List.pairwise_singleton _ _, fun other inside =>
    List.forall_mem_singleton.mpr (after other inside)⟩

/-- A node comes between the first nodes and the last ones. -/
theorem insert {former latter : List Node} (row : InRow (former ++ latter))
    (before : ∀ other ∈ former, other.stop ≤ node.start)
    (after : ∀ other ∈ latter, node.stop ≤ other.start) : InRow (former ++ node :: latter) := by
  obtain ⟨begins, goesOn, apart⟩ := List.pairwise_append.mp row
  refine List.pairwise_append.mpr ⟨begins, List.pairwise_cons.mpr ⟨after, goesOn⟩, ?_⟩
  exact fun other early => List.forall_mem_cons.mpr ⟨before other early, apart other early⟩

/-- Where a row is gathered backwards, its last node is the first one of the list. -/
theorem gather (row : InRow nodes.reverse) (after : ∀ other ∈ nodes, other.stop ≤ node.start) :
    InRow (node :: nodes).reverse := by
  rw [List.reverse_cons]
  exact row.concat fun other inside => after other (List.mem_reverse.mp inside)

end InRow

/-- Nodes stand in a row before an offset. -/
structure RowBefore (pos : Nat) (nodes : List Node) : Prop where
  row : InRow nodes
  ends : ∀ node ∈ nodes, node.stop ≤ pos

namespace RowBefore

variable {pos : Nat} {node : Node} {nodes : List Node}

theorem nil : RowBefore pos [] := ⟨.nil, nofun⟩

theorem append {latter : List Node} (before : RowBefore pos nodes) (goesOn : InRow latter)
    (after : ∀ node ∈ latter, pos ≤ node.start) : InRow (nodes ++ latter) :=
  before.row.append goesOn before.ends after

/-- A node that starts behind a row is put at its end. -/
theorem gather (before : RowBefore pos nodes.reverse) (begins : pos ≤ node.start) :
    InRow (node :: nodes).reverse := by
  rw [List.reverse_cons]
  exact before.append (.single node) (List.forall_mem_singleton.mpr begins)

/-- A method has its key and its function after its decorators. -/
theorem method {key : Node} {function : FunctionForm} (before : RowBefore pos nodes)
    (row : InRow (key :: function.parts)) (begins : ∀ node ∈ key :: function.parts, pos ≤ node.start) :
    InRow (nodes ++ [key] ++ function.children) := by
  rw [function.children_eq_parts, List.append_assoc]
  exact before.append row begins

end RowBefore

/-- A node lies in the place of another one. -/
structure Node.LiesIn (node place : Node) : Prop where
  start : place.start ≤ node.start
  stop : node.stop ≤ place.stop

namespace Node.LiesIn

variable {node place further : Node} {nodes places rest : List Node}

theorem refl (node : Node) : node.LiesIn node := ⟨Nat.le_refl _, Nat.le_refl _⟩

theorem trans (inner : node.LiesIn place) (outer : place.LiesIn further) : node.LiesIn further :=
  ⟨Nat.le_trans outer.start inner.start, Nat.le_trans inner.stop outer.stop⟩

/-- Each of some nodes lies in the place of one of the others. -/
theorem of_mem (inside : List.Forall₂ LiesIn nodes places) (member : node ∈ nodes) :
    ∃ place ∈ places, node.LiesIn place := by
  induction inside with
  | nil => cases member
  | cons here _ inductionHypothesis =>
      rcases List.mem_cons.mp member with rfl | later
      · exact ⟨_, List.mem_cons_self, here⟩
      · obtain ⟨place, held, lies⟩ := inductionHypothesis later
        exact ⟨place, List.mem_cons_of_mem _ held, lies⟩

/-- Nodes that lie in places lie where the places do. -/
theorem trans_all {outer : List Node} (inner : List.Forall₂ LiesIn nodes places)
    (outside : List.Forall₂ LiesIn places outer) : List.Forall₂ LiesIn nodes outer := by
  induction inner generalizing outer with
  | nil => exact outside
  | cons here _ inductionHypothesis =>
      cases outside with
      | cons there others => exact .cons (here.trans there) (inductionHypothesis others)

/-- Nodes come in a row if they lie in the places of others that do. -/
theorem row (inside : List.Forall₂ LiesIn nodes places) (row : InRow (places ++ rest)) :
    InRow (nodes ++ rest) := by
  induction inside with
  | nil => exact row
  | cons here others inductionHypothesis =>
      obtain ⟨after, later⟩ := List.pairwise_cons.mp row
      refine List.pairwise_cons.mpr ⟨fun other member => ?_, inductionHypothesis later⟩
      rcases List.mem_append.mp member with among | behind
      · obtain ⟨place, held, lies⟩ := of_mem others among
        exact Nat.le_trans here.stop
          (Nat.le_trans (after place (List.mem_append_left _ held)) lies.start)
      · exact Nat.le_trans here.stop (after other (List.mem_append_right _ behind))

end Node.LiesIn

/-- Groups of nodes have been gathered from one row, each in the order of the row. -/
def Gathered (groups : List (List Node)) : Prop :=
  ∃ members, InRow members ∧ members.Perm groups.flatten ∧ ∀ group ∈ groups, group.Sublist members

namespace Gathered

variable {node : Node} {group : List Node}

/-- The last node of the row goes into one of the groups. -/
theorem concat (former latter : List (List Node)) (gathered : Gathered (former ++ group :: latter))
    (after : ∀ other ∈ (former ++ group :: latter).flatten, other.stop ≤ node.start) :
    Gathered (former ++ (group ++ [node]) :: latter) := by
  obtain ⟨members, row, same, within⟩ := gathered
  refine ⟨members ++ [node], row.concat fun other inside => after other (same.mem_iff.mp inside),
    ?_, fun other inside => ?_⟩
  · calc members ++ [node]
      List.Perm _ ((former ++ group :: latter).flatten ++ [node]) := same.append_right _
      _ = former.flatten ++ group ++ (latter.flatten ++ [node]) := by simp
      List.Perm _ (former.flatten ++ group ++ ([node] ++ latter.flatten)) :=
        List.perm_append_comm.append_left _
      _ = (former ++ (group ++ [node]) :: latter).flatten := by simp
  · have stays {other : List Node} (inside : other ∈ former ++ group :: latter) :
        other.Sublist (members ++ [node]) :=
      (within other inside).trans (List.sublist_append_left _ _)
    rcases List.mem_append.mp inside with before | inside
    · exact stays (List.mem_append_left _ before)
    · rcases List.mem_cons.mp inside with rfl | behind
      · exact (within group (by simp)).append (.refl _)
      · exact stays (List.mem_append_right _ (List.mem_cons_of_mem _ behind))

/-- Each group of nodes that have been gathered is in a row. -/
theorem row {groups : List (List Node)} (gathered : Gathered groups) (inside : group ∈ groups) :
    InRow group := by
  obtain ⟨_, row, -, within⟩ := gathered
  exact row.sublist (within group inside)

end Gathered

/-- What a form consists of comes in a row. A specifier that does without a second name has its
first one twice, and so has a property that stands for its own value. The members of the type of an
object are held kind by kind, and the signature of a method among them begins where the member does,
at its key or at the word before it. -/
def Form.Ordered : Form → Prop
  | .importSpecifier imported localName => imported.start ≤ localName.start
  | .exportSpecifier localName exported => localName.start ≤ exported.start
  | .objectProperty _ _ _ decorators key value =>
    InRow (decorators ++ [key]) ∧ key.start ≤ value.start
  | .objectType properties indexers callProperties =>
    Gathered [properties, indexers, callProperties]
  | .objectTypeProperty key value _ isStatic => isStatic = false → key.start ≤ value.start
  | form => InRow form.children

/-- After the chunks and expressions of a template one more expression and its chunk follow. -/
theorem Form.interleave_concat {quasis expressions : List Node} (expression quasi : Node)
    (alternates : quasis.length = expressions.length + 1) :
    interleave (quasis ++ [quasi]) (expressions ++ [expression]) =
      interleave quasis expressions ++ [expression, quasi] := by
  induction quasis generalizing expressions with
  | nil => simp at alternates
  | cons first quasis inductionHypothesis =>
      cases expressions with
      | nil =>
          obtain rfl : quasis = [] := List.length_eq_zero_iff.mp (Nat.succ.inj alternates)
          rfl
      | cons other expressions =>
          simp only [List.cons_append, interleave]
          rw [inductionHypothesis (Nat.succ.inj alternates)]

/-- A form that consists of nothing is in order. -/
theorem Form.ordered_of_leaf {form : Form} (leaf : form.parts = []) : form.Ordered := by
  have none : form.children = [] := List.eq_nil_iff_forall_not_mem.mpr fun child inside =>
    List.not_mem_nil (leaf ▸ mem_parts_of_mem_children inside)
  have row : InRow form.children := none ▸ InRow.nil
  cases form
  case objectType =>
    simp only [children, List.append_eq_nil_iff] at none
    obtain ⟨⟨rfl, rfl⟩, rfl⟩ := none
    exact ⟨[], .nil, .refl _, by simp⟩
  case importSpecifier | exportSpecifier | objectProperty | objectTypeProperty =>
    simp [children] at none
  all_goals exact row

/-- Nodes start one after the other. -/
def InStartOrder (nodes : List Node) : Prop :=
  nodes.Pairwise fun former latter => former.start ≤ latter.start

/-- The nodes of a row start one after another. -/
theorem InRow.inStartOrder {nodes : List Node} (row : InRow nodes)
    (ordered : ∀ node ∈ nodes, node.start ≤ node.stop) : InStartOrder nodes :=
  List.Pairwise.imp_of_mem (fun early _ after => Nat.le_trans (ordered _ early) after) row

/-- The members of the type of an object come kind by kind in the text, and the value of a static
one does not start before its key. -/
def Form.InTurn : Form → Prop
  | .objectType properties indexers callProperties =>
    (∀ property ∈ properties, ∀ other ∈ indexers ++ callProperties, property.start ≤ other.start) ∧
      ∀ indexer ∈ indexers, ∀ call ∈ callProperties, indexer.start ≤ call.start
  | .objectTypeProperty key value _ isStatic => isStatic = true → key.start ≤ value.start
  | _ => True

/-- What a form consists of that is in order starts one after the other if it comes in turn. -/
theorem Form.inStartOrder_iff {form : Form} (ordered : form.Ordered)
    (sound : ∀ child ∈ form.children, child.start ≤ child.stop) :
    InStartOrder form.children ↔ form.InTurn := by
  cases form
  case importSpecifier | exportSpecifier => exact iff_of_true (List.pairwise_pair.mpr ordered) trivial
  case objectProperty _ _ _ decorators key value =>
    obtain ⟨row, below⟩ := ordered
    have begins : InStartOrder (decorators ++ [key]) := row.inStartOrder fun child inside =>
      sound child ((List.Sublist.append_left (by simp) decorators).subset inside)
    obtain ⟨decorated, -, before⟩ := List.pairwise_append.mp begins
    refine iff_of_true (List.pairwise_append.mpr ⟨decorated, List.pairwise_pair.mpr below, ?_⟩) trivial
    intro decorator inside
    have first := before decorator inside key List.mem_cons_self
    exact List.forall_mem_cons.mpr
      ⟨first, List.forall_mem_singleton.mpr (Nat.le_trans first below)⟩
  case objectType properties indexers callProperties =>
    have group {nodes : List Node} (inside : nodes ∈ [properties, indexers, callProperties]) :
        InStartOrder nodes := (Gathered.row ordered inside).inStartOrder fun child member => by
      have flat : children (.objectType properties indexers callProperties) =
          [properties, indexers, callProperties].flatten := by simp [children]
      exact sound child (flat ▸ List.mem_flatten_of_mem inside member)
    have owned : InStartOrder properties := group (by simp)
    have indexed : InStartOrder indexers := group (by simp)
    have called : InStartOrder callProperties := group (by simp)
    rw [InStartOrder, children, List.append_assoc, List.pairwise_append, List.pairwise_append]
    exact ⟨fun ⟨_, ⟨_, _, between⟩, before⟩ => ⟨before, between⟩,
      fun ⟨before, between⟩ => ⟨owned, ⟨indexed, called, between⟩, before⟩⟩
  case objectTypeProperty key value _ isStatic =>
    cases isStatic with
    | false => exact iff_of_true (List.pairwise_pair.mpr (ordered rfl)) nofun
    | true => exact List.pairwise_pair.trans ⟨fun below _ => below, fun below => below rfl⟩
  all_goals exact iff_of_true (InRow.inStartOrder ordered sound) trivial

/-- The parts of a function type are in order if they are in a row. -/
theorem Form.ordered_functionType {typeParameters rest : Option Node} {params : List Node}
    {returnType : Node}
    (row : InRow (typeParameters.toList ++ (params ++ rest.toList) ++ [returnType])) :
    (functionType typeParameters params rest returnType).Ordered := by
  simpa only [Ordered, children, List.append_assoc] using row

/-- What a form consists of lies between two offsets, but for some of its decorators. -/
def Form.LiesBetween (start stop : Nat) (form : Form) : Prop :=
  ∃ loose kept, form.parts.Perm (loose ++ kept) ∧ loose.Subperm form.decorators ∧
    (∀ part ∈ loose, part.isDecorator = true) ∧
    ∀ part ∈ kept, start ≤ part.start ∧ part.stop ≤ stop

namespace Form.LiesBetween

variable {form other : Form} {start stop further : Nat} {rest more : List Node} {part : Node}

/-- A part lies between the ends of its node, unless it is a decorator. -/
theorem of_mem (lies : form.LiesBetween start stop) (inside : part ∈ form.parts) :
    (part ∈ form.decorators ∧ part.isDecorator = true) ∨ (start ≤ part.start ∧ part.stop ≤ stop) := by
  obtain ⟨loose, kept, same, own, decorates, around⟩ := lies
  rcases List.mem_append.mp (same.mem_iff.mp inside) with apart | within
  · exact .inl ⟨own.subset apart, decorates part apart⟩
  · exact .inr (around part within)

/-- What is left without all decorators lies between the offsets. -/
theorem of_mem_rest (lies : form.LiesBetween start stop)
    (consists : form.parts.Perm (form.decorators ++ rest)) (inside : part ∈ rest) :
    start ≤ part.start ∧ part.stop ≤ stop := by
  obtain ⟨loose, kept, same, ⟨among, chosen, own⟩, -, around⟩ := lies
  obtain ⟨others, split⟩ := own.exists_perm_append
  have apart : (loose ++ (others ++ rest)).Perm (loose ++ kept) :=
    calc loose ++ (others ++ rest)
      List.Perm _ (among ++ (others ++ rest)) := chosen.symm.append_right _
      _ = among ++ others ++ rest := (List.append_assoc ..).symm
      List.Perm _ (form.decorators ++ rest) := split.symm.append_right rest
      List.Perm _ (loose ++ kept) := consists.symm.trans same
  have left := (List.perm_append_left_iff loose).mp apart
  exact around part (left.subset (List.mem_append_right _ inside))

/-- Another form consists of some of the same nodes and of more nodes between the offsets. -/
theorem replace (lies : form.LiesBetween start stop)
    (parts : other.parts.Subperm (form.parts ++ more))
    (decorators : form.decorators.Subperm other.decorators) (later : stop ≤ further)
    (between : ∀ part ∈ more, start ≤ part.start ∧ part.stop ≤ further) :
    other.LiesBetween start further := by
  obtain ⟨loose, kept, same, own, decorates, around⟩ := lies
  obtain ⟨chosen, taken, among⟩ := parts.trans (same.append_right more).subperm
  obtain ⟨former, new, rfl, within, added⟩ := List.sublist_append_iff.mp among
  obtain ⟨apart, stays, rfl, off, still⟩ := List.sublist_append_iff.mp within
  refine ⟨apart, stays ++ new, List.append_assoc .. ▸ taken.symm,
    off.subperm.trans (own.trans decorators), fun part inside => decorates part (off.subset inside),
    List.forall_mem_append.mpr ⟨fun part inside => ?_, fun part inside => ?_⟩⟩
  · have ⟨begins, ends⟩ := around part (still.subset inside)
    exact ⟨begins, Nat.le_trans ends later⟩
  · exact between part (added.subset inside)

end Form.LiesBetween

/-- A node starts and ends at seams of the text, as do the parentheses around it, and what it
consists of lies between the two or is a decorator. -/
structure Node.Lies (source : Source) (node : Node) : Prop where
  start : source.Seam node.start
  stop : source.Seam node.stop
  ordered : node.start ≤ node.stop
  inside : node.form.LiesBetween node.start node.stop
  parenthesis : ∀ extra ∈ node.extra, ∀ pos ∈ extra.parenStart, source.Seam pos
  cast : node.form.Ordered

/-- All nodes in a tree lie in their places. -/
abbrev Node.Sits (source : Source) : Node → Prop := Node.Everywhere (Node.Lies source)

namespace Node

variable {source : Source} {good better : Node → Prop} {node part other : Node}

/-- Something holds everywhere in a node if it holds here and everywhere in its parts. -/
theorem everywhere_iff :
    node.Everywhere good ↔ good node ∧ ∀ part ∈ node.parts, part.Everywhere good := by
  constructor
  · rintro ⟨here, below⟩
    refine ⟨here, fun part inside => ?_⟩
    obtain ⟨field, held, member⟩ := Form.mem_parts.mp inside
    exact below field held part member
  · rintro ⟨here, below⟩
    exact .intro here fun field held part member =>
      below part (Form.mem_parts.mpr ⟨field, held, member⟩)

theorem Everywhere.mono (all : node.Everywhere good) (implies : ∀ node, good node → better node) :
    node.Everywhere better := by
  induction all with
  | intro here below inductionHypothesis => exact .intro (implies _ here) inductionHypothesis

/-- What holds everywhere holds here. -/
theorem Everywhere.here (all : node.Everywhere good) : good node := (everywhere_iff.mp all).1

/-- What holds everywhere holds everywhere in a part. -/
theorem Everywhere.within (all : node.Everywhere good) (inside : part ∈ node.parts) :
    part.Everywhere good := (everywhere_iff.mp all).2 part inside

/-- A node that lies in the text encloses its parts. -/
theorem Lies.encloses (lies : node.Lies source) : node.Encloses where
  ordered := lies.ordered
  inside field held child member plain := by
    rcases lies.inside.of_mem (Form.mem_parts.mpr ⟨field, held, member⟩) with decorator | around
    · rw [decorator.2] at plain
      cases plain
    · exact around

/-- What a node without decorators consists of lies between its start and its stop. -/
theorem Lies.around (lies : node.Lies source) (none : node.form.decorators = [])
    (inside : part ∈ node.parts) : node.start ≤ part.start ∧ part.stop ≤ node.stop := by
  rcases lies.inside.of_mem inside with decorator | around
  · rw [none] at decorator
    cases decorator.1
  · exact around

/-- The places of a node and of all nodes below it, with their identities. -/
def spans (node : Node) : List Grammar.Finished :=
  ⟨node.id, node.start, node.stop⟩ :: node.parts.attach.flatMap fun part => spans part.1
termination_by sizeOf node
decreasing_by exact sizeOf_part_lt part.2

/-- The places in a node are its own and those in its parts. -/
theorem spans_eq (node : Node) :
    node.spans = ⟨node.id, node.start, node.stop⟩ :: node.parts.flatMap spans := by
  rw [spans]
  simp

end Node

/-- Where the two tags of an element stand: the first one stops where it is opened, and the last one
starts where it is closed. -/
structure Tags where
  start : Nat
  opened : Nat
  closed : Nat
  stop : Nat
deriving Repr, DecidableEq

namespace Tags

variable {former latter : Tags}

/-- There is something in both tags. -/
structure Filled (tags : Tags) : Prop where
  opening : tags.start < tags.opened
  content : tags.opened ≤ tags.closed
  closing : tags.closed < tags.stop

/-- An element stands within the first tag of another one, or between its two tags. -/
def Hold (outer inner : Tags) : Prop :=
  (outer.start ≤ inner.start ∧ inner.stop ≤ outer.opened) ∨
    (outer.opened ≤ inner.start ∧ inner.stop ≤ outer.closed)

/-- The tags of two elements nest like brackets: the ones stand before the others, or among them. -/
def Nest (former latter : Tags) : Prop :=
  former.stop ≤ latter.start ∨ latter.stop ≤ former.start ∨ former.Hold latter ∨ latter.Hold former

theorem Nest.symm (nest : former.Nest latter) : latter.Nest former := by
  obtain before | behind | outer | inner := nest
  · exact .inr (.inl before)
  · exact .inl behind
  · exact .inr (.inr (.inr outer))
  · exact .inr (.inr (.inl inner))

end Tags

/-- The tags of an element that has two of them. -/
def Form.tags? : Form → Option Tags
  | .jsxElement opening _ (some closing) =>
    some ⟨opening.start, opening.stop, closing.start, closing.stop⟩
  | _ => none

theorem Form.tags?_of_leaf {form : Form} (leaf : form.parts = []) : form.tags? = none := by
  cases form
  case jsxElement => simp [parts, fields] at leaf
  all_goals rfl

/-- The tags of a node and of all nodes below it. -/
def Node.tags (node : Node) : List Tags :=
  node.form.tags?.toList ++ node.parts.attach.flatMap fun part => tags part.1
termination_by sizeOf node
decreasing_by exact sizeOf_part_lt part.2

/-- The tags in a node are its own and those in its parts. -/
theorem Node.tags_eq (node : Node) :
    node.tags = node.form.tags?.toList ++ node.parts.flatMap tags := by
  rw [tags]
  simp

/-- A node ends at an offset or before it, and so do the elements below it. -/
structure Node.Ends (pos : Nat) (node : Node) : Prop where
  stop : node.stop ≤ pos
  tags : ∀ tags ∈ node.tags, tags.stop ≤ pos

theorem Node.Ends.mono {pos later : Nat} {node : Node} (ends : node.Ends pos) (below : pos ≤ later) :
    node.Ends later :=
  ⟨Nat.le_trans ends.stop below, fun tags inside => Nat.le_trans (ends.tags tags inside) below⟩

end EcmaSyntax
