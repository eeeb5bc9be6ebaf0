/-
This file says what a parse keeps true of the nodes that it holds: each of them has an identity of
its own, and the comments that belong to it are where they have to be.
-/

import EcmaSyntax.Proofs.Grammar.Upkeep
import EcmaSyntax.Proofs.Tree.Nesting
import EcmaSyntax.Proofs.Yield.Build
import Mathlib.Data.List.Flatten
import Mathlib.Data.List.Nodup

namespace EcmaSyntax

namespace Grammar

/-- The places of some nodes and of all nodes below them. -/
def spans (nodes : List Node) : List Finished := nodes.flatMap Node.spans

section Spans

variable {first second : List Node} {node : Node}

@[simp] theorem spans_nil : spans [] = [] := rfl

@[simp] theorem spans_cons : spans (node :: first) = node.spans ++ spans first := rfl

@[simp] theorem spans_append : spans (first ++ second) = spans first ++ spans second :=
  List.flatMap_append

theorem spans_perm (perm : first.Perm second) : (spans first).Perm (spans second) :=
  perm.flatMap_right _

theorem spans_subperm (part : first.Subperm second) : (spans first).Subperm (spans second) := by
  obtain ⟨others, same, within⟩ := part
  exact ⟨spans others, spans_perm same, within.flatMap _⟩

theorem spans_node : node.spans = ⟨node.id, node.start, node.stop⟩ :: spans node.parts :=
  node.spans_eq

/-- The place of a node is apart from those of its parts. -/
theorem spans_shell {others kept part loose : List Node} (parts : node.parts.Perm (kept ++ part)) :
    (spans (others ++ [node] ++ loose)).Perm
      (⟨node.id, node.start, node.stop⟩ :: spans (others ++ kept ++ loose) ++ spans part) := by
  classical
  refine List.perm_iff_count.mpr fun span => ?_
  have same := (spans_perm parts).count_eq span
  simp only [spans_append, spans_cons, spans_nil, spans_node, List.count_append, List.count_cons,
    List.count_nil] at same ⊢
  omega

end Spans

/-- The tags of some nodes and of all nodes below them. -/
def tags (nodes : List Node) : List Tags := nodes.flatMap Node.tags

section Tags

variable {first second : List Node} {node : Node}

@[simp] theorem tags_nil : tags [] = [] := rfl

@[simp] theorem tags_cons : tags (node :: first) = node.tags ++ tags first := rfl

@[simp] theorem tags_append : tags (first ++ second) = tags first ++ tags second :=
  List.flatMap_append

theorem tags_perm (perm : first.Perm second) : (tags first).Perm (tags second) :=
  perm.flatMap_right _

theorem tags_subperm (part : first.Subperm second) : (tags first).Subperm (tags second) := by
  obtain ⟨others, same, within⟩ := part
  exact ⟨tags others, tags_perm same, within.flatMap _⟩

/-- The elements below the rest do not matter where some nodes take the place of others. -/
theorem tags_subperm_append {rest : List Node} (among : (tags first).Subperm (tags second)) :
    (tags (first ++ rest)).Subperm (tags (second ++ rest)) := by
  rw [tags_append, tags_append]
  exact among.append (.refl _)

theorem mem_tags {pair : Tags} : pair ∈ tags first ↔ ∃ node ∈ first, pair ∈ node.tags :=
  List.mem_flatMap

/-- What is no element with two tags has those of its parts. -/
theorem tags_node (plain : node.form.tags? = none) : node.tags = tags node.parts := by
  rw [Node.tags_eq, plain]
  rfl

theorem tags_leaf (leaf : node.parts = []) : node.tags = [] := by
  rw [tags_node (Form.tags?_of_leaf leaf), leaf, tags_nil]

/-- If a node is no element with two tags, what it consists of may be taken out of it. -/
theorem tags_shell {others kept part loose : List Node} (plain : node.form.tags? = none)
    (parts : node.parts.Perm (kept ++ part)) :
    (tags (others ++ [node] ++ loose)).Perm (tags (others ++ kept ++ loose ++ part)) := by
  classical
  refine List.perm_iff_count.mpr fun pair => ?_
  have same := (tags_perm parts).count_eq pair
  simp only [tags_append, tags_cons, tags_nil, tags_node plain, List.count_append, List.count_nil]
    at same ⊢
  omega

/-- The elements below some nodes nest, and there is something in each of their tags. -/
structure Nested (nodes : List Node) : Prop where
  pairwise : (tags nodes).Pairwise Tags.Nest
  filled : ∀ pair ∈ tags nodes, pair.Filled

theorem Nested.nil : Nested [] := ⟨.nil, nofun⟩

/-- Some of the nodes that nest nest among themselves. -/
theorem Nested.part (nested : Nested second) (among : (tags first).Subperm (tags second)) :
    Nested first where
  pairwise := by
    obtain ⟨kept, same, within⟩ := among
    exact (same.pairwise_iff Tags.Nest.symm).mp (nested.pairwise.sublist within)
  filled pair inside := nested.filled pair (among.subset inside)

/-- Two lists of nodes nest together if each does and no tags of the two cross. -/
theorem nested_append : Nested (first ++ second) ↔ Nested first ∧ Nested second ∧
    ∀ pair ∈ tags first, ∀ other ∈ tags second, pair.Nest other := by
  constructor
  · rintro ⟨pairwise, filled⟩
    rw [tags_append] at pairwise filled
    have ⟨former, latter, between⟩ := List.pairwise_append.mp pairwise
    have ⟨early, late⟩ := List.forall_mem_append.mp filled
    exact ⟨⟨former, early⟩, ⟨latter, late⟩, between⟩
  · rintro ⟨former, latter, between⟩
    constructor
    · rw [tags_append]
      exact List.pairwise_append.mpr ⟨former.pairwise, latter.pairwise, between⟩
    · rw [tags_append]
      exact List.forall_mem_append.mpr ⟨former.filled, latter.filled⟩

end Tags

/-- Identities that are given later are others than those that were given before, as long as the
counter has not run over. -/
def Identities.Before (first last : Identities) : Prop :=
  last.spent = false → first.spent = false ∧ first.next.toNat ≤ last.next.toNat

section Identities

variable {identities first middle last : Identities}

theorem Identities.Before.refl (identities : Identities) : identities.Before identities :=
  fun unspent => ⟨unspent, Nat.le_refl _⟩

theorem Identities.Before.trans (begins : first.Before middle) (ends : middle.Before last) :
    first.Before last := fun unspent =>
  have ⟨unspent, later⟩ := ends unspent
  ⟨(begins unspent).1, Nat.le_trans (begins unspent).2 later⟩

/-- The counter goes up by one if it does not run over. -/
theorem Identities.toNat_advance (unspent : identities.advance.spent = false) :
    identities.spent = false ∧ identities.advance.next.toNat = identities.next.toNat + 1 := by
  simp only [advance, Bool.or_eq_false_iff, beq_eq_false_iff_ne] at unspent ⊢
  refine ⟨unspent.1, ?_⟩
  have above : (identities.next + 1).toNat ≠ 0 := fun zero => unspent.2 (UInt32.toNat.inj zero)
  have below := identities.next.toNat_lt
  rw [UInt32.toNat_add, UInt32.toNat_one] at above ⊢
  omega

/-- An identity comes before the next one. -/
theorem Identities.before_advance (identities : Identities) :
    identities.Before identities.advance := fun unspent =>
  have ⟨still, up⟩ := toNat_advance unspent
  ⟨still, Nat.le_of_lt (Nat.lt_of_succ_le (Nat.le_of_eq up.symm))⟩

end Identities

namespace State

variable {comments more : List Comment} {held others : List Finished} {state after : State}
  {identities : Identities} {id : NodeId} {start stop further limit : Nat}

/-- Comments are tended for some of the nodes if they are for all. -/
theorem Tended.part (tended : state.Tended comments limit held) (among : others ⊆ held) :
    state.Tended comments limit others :=
  { tended with fits := fun span inside => tended.fits span (among inside) }

/-- More may be read, which changes nothing about the comments that have been given to nodes. -/
theorem Tended.goOn (tended : state.Tended comments limit held) (longer : comments.Sublist more)
    (attachments : after.attachments = state.attachments)
    (leading : after.lexer.leading.Sublist more) (trailing : after.lexer.trailing.Sublist more) :
    after.Tended more limit held := by
  have same (id : NodeId) : after.attached? id = state.attached? id := by
    rw [attached?, attached?, attachments]
  exact ⟨leading, trailing, fun id attached found => tended.known id attached (same id ▸ found),
    fun id attached found => (tended.among id attached (same id ▸ found)).mono longer,
    fun span inside attached found => tended.fits span inside attached (same _ ▸ found)⟩

/-- What is known besides the comments does not matter. -/
theorem Tended.aside (tended : state.Tended comments limit held) (identities : Identities)
    (decorators : List Node) :
    State.Tended comments limit held
      { state with identities := identities, decorators := decorators } :=
  ⟨tended.leading, tended.trailing, tended.known, tended.among, tended.fits⟩

/-- There is room for more identities. -/
theorem Tended.widen (tended : state.Tended comments limit held) (later : limit ≤ further) :
    state.Tended comments further held :=
  { tended with known := fun id attached found =>
      Nat.lt_of_lt_of_le (tended.known id attached found) later }

/-- The places that are held are those of different nodes, whose identities have been used up. -/
structure Numbers (comments : List Comment) (held : List Finished) (state : State) : Prop where
  distinct : (held.map Finished.id).Nodup
  used : ∀ span ∈ held, span.id.toNat < state.identities.next.toNat
  tended : state.Tended comments state.identities.next.toNat held

namespace Numbers

theorem part (numbers : state.Numbers comments held) (among : others.Subperm held) :
    state.Numbers comments others where
  distinct := by
    obtain ⟨kept, same, within⟩ := among
    exact (same.map Finished.id).nodup_iff.mp (numbers.distinct.sublist (within.map Finished.id))
  used span inside := numbers.used span (among.subset inside)
  tended := numbers.tended.part among.subset

/-- No other place is held of a node. -/
theorem unique (numbers : state.Numbers comments held) (inside : ⟨id, start, stop⟩ ∈ held) :
    Unique held id start stop := by
  rintro other member same
  obtain rfl := List.inj_on_of_nodup_map numbers.distinct member inside same
  exact ⟨rfl, rfl⟩

/-- Identities may be used up. -/
theorem skip (numbers : state.Numbers comments held)
    (later : state.identities.next.toNat ≤ identities.next.toNat) :
    State.Numbers comments held { state with identities := identities } where
  distinct := numbers.distinct
  used span inside := Nat.lt_of_lt_of_le (numbers.used span inside) later
  tended := (numbers.tended.widen later).aside identities state.decorators

/-- No comments belong to an identity that has not been given. -/
theorem unattached (numbers : state.Numbers comments held) :
    state.attached? state.identities.next = none := by
  cases found : state.attached? state.identities.next with
  | none => rfl
  | some attached => exact absurd (numbers.tended.known _ attached found) (Nat.lt_irrefl _)

/-- A node with a fresh identity has no comments yet. -/
theorem fresh (numbers : state.Numbers comments held)
    (unspent : state.identities.advance.spent = false) (start stop : Nat) :
    State.Numbers comments (⟨state.identities.next, start, stop⟩ :: held)
      { state with identities := state.identities.advance } := by
  have up := (Identities.toNat_advance unspent).2
  have later : State.Numbers comments held
      { state with identities := state.identities.advance } :=
    numbers.skip (up ▸ Nat.le_succ _)
  refine ⟨List.nodup_cons.mpr ⟨fun taken => ?_, numbers.distinct⟩,
    List.forall_mem_cons.mpr ⟨up ▸ Nat.lt_succ_self _, later.used⟩,
    { later.tended with fits := List.forall_mem_cons.mpr ⟨fun attached found => ?_,
        later.tended.fits⟩ }⟩
  · obtain ⟨span, inside, same⟩ := List.mem_map.mp taken
    exact absurd (numbers.used span inside) (same ▸ Nat.lt_irrefl _)
  · exact absurd (numbers.unattached.symm.trans found) nofun

/-- A node may end later. -/
theorem stretch (numbers : state.Numbers comments (⟨id, start, stop⟩ :: held))
    (later : stop ≤ further) : state.Numbers comments (⟨id, start, further⟩ :: held) where
  distinct := numbers.distinct
  used := List.forall_mem_cons.mpr (List.forall_mem_cons.mp numbers.used)
  tended := { numbers.tended with
    fits := List.forall_mem_cons.mpr
      ⟨fun attached found => (numbers.tended.fits _ List.mem_cons_self attached found).mono later,
        fun span inside => numbers.tended.fits span (List.mem_cons_of_mem _ inside)⟩ }

/-- The comments around a node are given to it. -/
theorem attach (numbers : state.Numbers comments held) (ordered : InOrder comments)
    (inside : ⟨id, start, stop⟩ ∈ held) (attached : state.attach id start stop = .ok after) :
    after.Numbers comments held := by
  have tended := numbers.tended.attach ordered (numbers.used _ inside) (numbers.unique inside)
    attached
  obtain ⟨_, _, _, _, rfl⟩ := attach_handles attached
  exact ⟨numbers.distinct, numbers.used, tended⟩

/-- The comments of a node are also those of a copy of it. -/
theorem copy (numbers : state.Numbers comments held)
    (unspent : state.identities.advance.spent = false) {attached : Attached}
    (inside : ⟨id, start, stop⟩ ∈ held) (found : state.attached? id = some attached) :
    State.Numbers comments (⟨state.identities.next, start, stop⟩ :: held)
      (State.setAttached { state with identities := state.identities.advance }
        state.identities.next attached) := by
  have begun := numbers.fresh unspent start stop
  refine ⟨begun.distinct, begun.used, begun.tended.set (begun.used _ List.mem_cons_self)
    (numbers.tended.among id attached found) ?_⟩
  intro span member same
  obtain ⟨rfl, rfl⟩ := begun.unique List.mem_cons_self span member same
  exact numbers.tended.fits _ inside attached found

end Numbers

/-- The comments that have been given to nodes are some of those of a text, and as long as the
identities are not spent, the nodes that are held have different ones. -/
structure Owns (comments : List Comment) (held : List Finished) (state : State) : Prop where
  tended : state.Tended comments UInt32.size []
  numbers : state.identities.spent = false → state.Numbers comments held

namespace Owns

theorem part (owns : state.Owns comments held) (among : others.Subperm held) :
    state.Owns comments others :=
  ⟨owns.tended, fun unspent => (owns.numbers unspent).part among⟩

/-- Which decorators wait does not matter. -/
theorem waiting (owns : state.Owns comments held) (nodes : List Node) :
    State.Owns comments held { state with decorators := nodes } :=
  ⟨owns.tended.aside state.identities nodes, fun unspent =>
    have numbers := owns.numbers unspent
    ⟨numbers.distinct, numbers.used, numbers.tended.aside state.identities nodes⟩⟩

/-- More may be read, which changes nothing about the nodes that are held. -/
theorem goOn (owns : state.Owns comments held) (longer : comments.Sublist more)
    (ids : after.identities = state.identities) (attachments : after.attachments = state.attachments)
    (leading : after.lexer.leading.Sublist more) (trailing : after.lexer.trailing.Sublist more) :
    after.Owns more held where
  tended := owns.tended.goOn longer attachments leading trailing
  numbers unspent := by
    have numbers := owns.numbers (ids ▸ unspent)
    exact ⟨numbers.distinct, ids ▸ numbers.used,
      ids ▸ numbers.tended.goOn longer attachments leading trailing⟩

/-- Identities may be used up. -/
theorem skip (owns : state.Owns comments held) (later : state.identities.Before identities) :
    State.Owns comments held { state with identities := identities } where
  tended := owns.tended.aside identities state.decorators
  numbers unspent :=
    have ⟨still, later⟩ := later unspent
    (owns.numbers still).skip later

/-- A node with a new identity owns its comments. -/
theorem fresh (owns : state.Owns comments held) (start stop : Nat) :
    State.Owns comments (⟨state.identities.next, start, stop⟩ :: held)
      { state with identities := state.identities.advance } where
  tended := owns.tended.aside state.identities.advance state.decorators
  numbers unspent := (owns.numbers (Identities.toNat_advance unspent).1).fresh unspent start stop

/-- A node that is stretched still owns its comments. -/
theorem stretch (owns : state.Owns comments (⟨id, start, stop⟩ :: held)) (later : stop ≤ further) :
    state.Owns comments (⟨id, start, further⟩ :: held) :=
  ⟨owns.tended, fun unspent => (owns.numbers unspent).stretch later⟩

/-- A node to which comments are given owns them. -/
theorem attach (owns : state.Owns comments held) (ordered : InOrder comments)
    (inside : ⟨id, start, stop⟩ ∈ held) (attached : state.attach id start stop = .ok after) :
    after.Owns comments held where
  tended := owns.tended.attach ordered id.toNat_lt_size (List.forall_mem_nil _) attached
  numbers unspent := by
    have unspent : state.identities.spent = false := by
      obtain ⟨_, _, _, _, rfl⟩ := attach_handles attached
      exact unspent
    exact (owns.numbers unspent).attach ordered inside attached

/-- A copy of a node owns the comments of the node. -/
theorem copy (owns : state.Owns comments held) {attached : Attached}
    (inside : ⟨id, start, stop⟩ ∈ held) (found : state.attached? id = some attached) :
    State.Owns comments (⟨state.identities.next, start, stop⟩ :: held)
      (State.setAttached { state with identities := state.identities.advance }
        state.identities.next attached) where
  tended := (owns.tended.aside state.identities.advance state.decorators).set
    (UInt32.toNat_lt_size _) (owns.tended.among id attached found) (List.forall_mem_nil _)
  numbers unspent :=
    (owns.numbers (Identities.toNat_advance unspent).1).copy unspent inside found

end Owns

/-- The current token stands where it has to, and so do the decorators that wait for their class,
which come in a row. The places of these decorators and of the nodes that are held are owned. -/
structure Keeps (setting : Setting) (held : List Finished) (state : State) : Prop where
  sited : state.lexer.Sited setting.toSetting
  decorators : ∀ node ∈ state.decorators, node.isDecorator = true ∧ node.Sits setting.source ∧
    node.Ends state.lexer.lastStop
  row : InRow state.decorators
  nested : Nested state.decorators
  owns : state.Owns state.lexer.comments.reverse (held ++ spans state.decorators)

namespace Keeps

variable {setting : Setting}

theorem part (keeps : state.Keeps setting held) (among : others.Subperm held) :
    state.Keeps setting others :=
  { keeps with owns := keeps.owns.part (among.append (.refl _)) }

theorem perm (keeps : state.Keeps setting held) (same : others.Perm held) :
    state.Keeps setting others := keeps.part same.subperm

/-- The comments that have been read stay in the order of the text. -/
theorem ordered (keeps : state.Keeps setting held) : InOrder state.lexer.comments.reverse :=
  keeps.sited.posted.recalls.ordered

/-- More may be read. -/
theorem goOn (keeps : state.Keeps setting held) (sited : after.lexer.Sited setting.toSetting)
    (longer : state.lexer.Extends after.lexer)
    (onward : state.lexer.lastStop ≤ after.lexer.lastStop)
    (decorators : after.decorators = state.decorators)
    (attachments : after.attachments = state.attachments) (ids : after.identities = state.identities) :
    after.Keeps setting held where
  sited := sited
  decorators node inside := by
    obtain ⟨isDecorator, sits, ends⟩ := keeps.decorators node (decorators ▸ inside)
    exact ⟨isDecorator, sits, ends.mono onward⟩
  row := decorators ▸ keeps.row
  nested := decorators ▸ keeps.nested
  owns := decorators ▸ keeps.owns.goOn longer.comments.reverse.sublist ids attachments
    sited.posted.recalls.leading sited.posted.recalls.trailing

/-- A node with a new identity is kept. -/
theorem fresh (keeps : state.Keeps setting held) (start stop : Nat) :
    State.Keeps setting (⟨state.identities.next, start, stop⟩ :: held)
      { state with identities := state.identities.advance } :=
  ⟨keeps.sited, keeps.decorators, keeps.row, keeps.nested, keeps.owns.fresh start stop⟩

/-- Identities may be used up. -/
theorem skip (keeps : state.Keeps setting held) (later : state.identities.Before identities) :
    State.Keeps setting held { state with identities := identities } :=
  ⟨keeps.sited, keeps.decorators, keeps.row, keeps.nested, keeps.owns.skip later⟩

/-- A node that is stretched is kept. -/
theorem stretch (keeps : state.Keeps setting (⟨id, start, stop⟩ :: held)) (later : stop ≤ further) :
    state.Keeps setting (⟨id, start, further⟩ :: held) :=
  { keeps with owns := keeps.owns.stretch later }

/-- A node to which comments are given is kept. -/
theorem attach (keeps : state.Keeps setting held) (inside : ⟨id, start, stop⟩ ∈ held)
    (attached : state.attach id start stop = .ok after) : after.Keeps setting held := by
  have owns := keeps.owns.attach keeps.ordered (List.mem_append_left _ inside) attached
  obtain ⟨_, _, _, _, rfl⟩ := attach_handles attached
  exact ⟨keeps.sited.noted _ _ owns.tended.leading owns.tended.trailing, keeps.decorators, keeps.row,
    keeps.nested, owns⟩

/-- A copy of a node is kept. -/
theorem copy (keeps : state.Keeps setting held) {attached : Attached}
    (inside : ⟨id, start, stop⟩ ∈ held) (found : state.attached? id = some attached) :
    State.Keeps setting (⟨state.identities.next, start, stop⟩ :: held)
      (State.setAttached { state with identities := state.identities.advance }
        state.identities.next attached) :=
  ⟨keeps.sited, keeps.decorators, keeps.row, keeps.nested, keeps.owns.copy (List.mem_append_left _ inside) found⟩

end Keeps

end State

end Grammar

end EcmaSyntax
