import EcmaSyntax.Grammar.Rules
import EcmaSyntax.Proofs.Place.Reading

namespace EcmaSyntax

namespace Grammar

attribute [simp] List.perm_append_comm List.perm_append_left_iff List.perm_append_right_iff

/-- What is read last is gathered first. -/
@[simp] theorem perm_cons_snoc {α : Type} {item : α} {items : List α} :
    (item :: items).Perm (items ++ [item]) := (List.perm_append_singleton item items).symm

/-- The nodes in some slots, slot by slot. -/
@[simp] theorem filterMap_slot {α : Type} {slot : Option α} {slots : List (Option α)} :
    (slot :: slots).filterMap (fun slot => slot) =
      slot.toList ++ slots.filterMap fun slot => slot := by
  cases slot <;> rfl

/-- What a value of a parse consists of: nodes, decorators of what is to come, and offsets that have
been passed. Besides, something may be known of it. -/
structure Load where
  given : List Node := []
  loose : List Node := []
  past : List Nat := []
  fact : Prop := True

/-- Nodes that come in a row. -/
def row (nodes : List Node) : Load := { given := nodes, fact := InRow nodes }

/-- A row of nodes gives the nodes, one after another. -/
@[simp] theorem row_eq {nodes : List Node} :
    row nodes = { given := nodes, fact := InRow nodes } := rfl

/-- Nodes that come in a row, the last one first. -/
def backward (nodes : List Node) : Load := { given := nodes, fact := InRow nodes.reverse }

/-- A row that has been gathered backward gives its nodes, one after another. -/
@[simp] theorem backward_eq {nodes : List Node} :
    backward nodes = { given := nodes, fact := InRow nodes.reverse } := rfl

/-- More is known of a value. -/
def Load.knowing (load : Load) (more : Prop) : Load := { load with fact := load.fact ∧ more }

section Knowing

variable {load : Load} {more : Prop}

@[simp] theorem Load.knowing_given : (load.knowing more).given = load.given := rfl

@[simp] theorem Load.knowing_loose : (load.knowing more).loose = load.loose := rfl

@[simp] theorem Load.knowing_past : (load.knowing more).past = load.past := rfl

@[simp] theorem Load.knowing_fact : (load.knowing more).fact = (load.fact ∧ more) := rfl

end Knowing

/-- What a turn of a loop goes on with, or ends with. -/
def Turn.load {α β : Type} (held : α → Load) (final : β → Load) : Turn α β → Load
  | .more gathered => held gathered
  | .done result => final result

@[simp] theorem Turn.load_more {α β : Type} {held : α → Load} {final : β → Load} {gathered : α} :
    (Turn.more gathered).load held final = held gathered := rfl

@[simp] theorem Turn.load_done {α β : Type} {held : α → Load} {final : β → Load} {result : β} :
    (Turn.done result).load held final = final result := rfl

/-- The values of a type consist of nodes. -/
class Bears (α : Type) where
  load : Source → α → Load

namespace Bears

variable {α β : Type} {source : Source}

instance : Bears Node := ⟨fun _ node => { given := [node] }⟩

instance : Bears (Option Node) := ⟨fun _ part => { given := part.toList }⟩

instance : Bears (List Node) := ⟨fun _ nodes => { given := nodes }⟩

instance : Bears (List (Option Node)) := ⟨fun _ slots => { given := slots.filterMap id }⟩

/-- The nodes of two values are held one after the other. -/
instance [Bears α] [Bears β] : Bears (α × β) where
  load source pair := {
    given := (load source pair.1).given ++ (load source pair.2).given
    loose := (load source pair.1).loose ++ (load source pair.2).loose
    past := (load source pair.1).past ++ (load source pair.2).past
    fact := (load source pair.1).fact ∧ (load source pair.2).fact }

instance [Bears α] [Bears β] : Bears (Turn α β) :=
  ⟨fun source => Turn.load (load source) (load source)⟩

/-- An offset at which a problem may be found. -/
instance : Bears (Option Nat) where
  load source pos? := { fact := ∀ pos ∈ pos?, source.Seam pos }

instance [Bears α] : Bears (Cover α) where
  load source cover := load source (cover.value, cover.pending)

/-- What a function consists of comes in a row. -/
instance : Bears FunctionForm := ⟨fun _ function => row function.parts⟩

instance : Bears PUnit := ⟨fun _ _ => {}⟩

instance : Bears Bool := ⟨fun _ _ => {}⟩

section Load

variable [Bears α] [Bears β]

/-- A node bears itself. -/
@[simp] theorem load_node {node : Node} : load source node = { given := [node] } := rfl

@[simp] theorem load_option {part : Option Node} : load source part = { given := part.toList } := rfl

/-- A list bears its nodes in a row. -/
@[simp] theorem load_list {nodes : List Node} : load source nodes = { given := nodes } := rfl

/-- A list with holes bears the nodes in it. -/
@[simp] theorem load_slots {slots : List (Option Node)} :
    load source slots = { given := slots.filterMap id } := rfl

/-- A pair bears what both of its parts bear. -/
@[simp] theorem load_pair {pair : α × β} : load source pair = {
    given := (load source pair.1).given ++ (load source pair.2).given
    loose := (load source pair.1).loose ++ (load source pair.2).loose
    past := (load source pair.1).past ++ (load source pair.2).past
    fact := (load source pair.1).fact ∧ (load source pair.2).fact } := rfl

/-- A turn bears what it has gathered, or its result. -/
@[simp] theorem load_turn {turn : Turn α β} :
    load source turn = turn.load (load source) (load source) := rfl

@[simp] theorem load_offset {pos? : Option Nat} :
    load source pos? = { fact := ∀ pos ∈ pos?, source.Seam pos } := rfl

/-- An expression that may become a pattern bears its value and what is pending. -/
@[simp] theorem load_cover {cover : Cover α} :
    load source cover = load source (cover.value, cover.pending) := rfl

@[simp] theorem load_function {function : FunctionForm} :
    load source function = { given := function.parts, fact := InRow function.parts } := rfl

@[simp] theorem load_unit {value : PUnit} : load source value = {} := rfl

@[simp] theorem load_bool {value : Bool} : load source value = {} := rfl

end Load

end Bears

/-- What a parse holds while it reads a construct that starts at an offset: nodes that start there
or later, decorators that may have been read before, and offsets that have been passed. A node may
start at the latest mark, which does not come before the construct. The construct may have begun
before the current token. -/
structure Hand where
  first : Nat
  latest : Nat := first
  given : List Node := []
  loose : List Node := []
  past : List Nat := []
  begun : Bool := false
  ordered : first ≤ latest := by exact Nat.le_refl _

/-- What has been read goes into the hand. -/
@[simps] def Hand.add (hand : Hand) (load : Load) : Hand := { hand with
  given := hand.given ++ load.given
  loose := hand.loose ++ load.loose
  past := hand.past ++ load.past }

/-- What has been made of all that was in the hand is in the hand. -/
@[simps] def Hand.turn (hand : Hand) (load : Load) : Hand := { hand with
  given := load.given
  loose := load.loose
  past := hand.past ++ load.past }

/-- The hand in which there is nothing but what has been read. -/
@[simps] def Load.hand (load : Load) (first : Nat) : Hand where
  first := first
  given := load.given
  loose := load.loose
  past := load.past

/-- The nodes in the hand, and the decorators that wait for their class. -/
def Hand.all (hand : Hand) (state : State) : List Node :=
  hand.given ++ hand.loose ++ state.decorators

/-- Where the construct begins, or goes on if it has begun. -/
def Hand.since (hand : Hand) (state : State) : Nat :=
  if hand.begun then hand.first else state.lexer.start

/-- A parse holds what is in the hand, beside the nodes at some other places. The decorators that
wait for their class end before what is held starts, and the elements below all these nodes nest. -/
structure Hand.In (setting : Setting) (frame : List Finished) (hand : Hand) (state : State) :
    Prop where
  keeps : state.Keeps setting (frame ++ spans (hand.given ++ hand.loose))
  sits : ∀ node ∈ hand.given ++ hand.loose,
    node.Sits setting.source ∧ node.Ends state.lexer.lastStop
  begins : ∀ node ∈ hand.given, hand.first ≤ node.start
  loose : ∀ node ∈ hand.loose, node.isDecorator = true
  first : setting.source.Seam hand.first
  latest : setting.source.Seam hand.latest
  reached : hand.latest ≤ state.lexer.start
  waiting : ∀ node ∈ state.decorators, node.Ends hand.first
  past : ∀ pos ∈ hand.past, pos ≤ state.lexer.lastStop
  nested : Nested (hand.all state)

/-- From one hand a step comes to another one. The elements below the nodes that are held then are
those from before, or start where the construct does. -/
structure Hand.Leads (setting : Setting) (frame : List Finished) (hand : Hand) (state : State)
    (made : Hand) (after : State) : Prop where
  holds : made.In setting frame after
  onward : state.Onward after
  sprouts : ∀ pair ∈ tags (made.all after),
    pair ∈ tags (hand.all state) ∨ hand.since state ≤ pair.start

namespace Hand

variable {setting : Setting} {frame others : List Finished} {hand middle made : Hand}
  {state between after : State} {load : Load} {kept part set apart nodes : List Node}
  {passed : List Nat} {first : Nat} {pair : Tags}

/-- Everything in a hand is still there when a parse goes on. -/
theorem all_subperm (onward : state.Onward after) : (hand.all after).Subperm (hand.all state) :=
  (onward.waiting.append_left _).subperm

/-- What is taken from two lists comes after what stays. -/
theorem taken_perm {given loose : List Node} (taken : given.Perm (kept ++ part))
    (other : loose.Perm (set ++ apart)) :
    (kept ++ set ++ (part ++ apart)).Perm (given ++ loose) :=
  calc kept ++ set ++ (part ++ apart)
    _ = kept ++ (set ++ part ++ apart) := by simp only [List.append_assoc]
    List.Perm _ (kept ++ (part ++ set ++ apart)) :=
      (List.perm_append_comm.append_right apart).append_left kept
    _ = kept ++ part ++ (set ++ apart) := by simp only [List.append_assoc]
    List.Perm _ (given ++ loose) := (taken.append other).symm

namespace In

/-- What is held is still held later on if nothing has happened to the nodes. -/
theorem later (holds : hand.In setting frame state)
    (keeps : after.Keeps setting (frame ++ spans (hand.given ++ hand.loose)))
    (onward : state.Onward after) : hand.In setting frame after where
  keeps := keeps
  sits node inside :=
    have ⟨sits, ends⟩ := holds.sits node inside
    ⟨sits, ends.mono onward.lastStop⟩
  begins := holds.begins
  loose := holds.loose
  first := holds.first
  latest := holds.latest
  reached := Nat.le_trans holds.reached onward.start
  waiting node inside := holds.waiting node (onward.waiting.subset inside)
  past pos inside := Nat.le_trans (holds.past pos inside) onward.lastStop
  nested := holds.nested.part (tags_subperm (all_subperm onward))

/-- Nothing has happened to the nodes. -/
theorem leads (holds : hand.In setting frame state)
    (keeps : after.Keeps setting (frame ++ spans (hand.given ++ hand.loose)))
    (onward : state.Onward after) : hand.Leads setting frame state hand after :=
  ⟨holds.later keeps onward, onward,
    fun _ inside => .inl ((tags_subperm (all_subperm onward)).subset inside)⟩

/-- What a hand has been gathering has begun before the current token. -/
theorem since_le (holds : hand.In setting frame state) : hand.since state ≤ state.lexer.start := by
  unfold since
  split
  · exact Nat.le_trans hand.ordered holds.reached
  · exact Nat.le_refl _

/-- Other nodes are held from now on instead of what was in the hand. -/
theorem renew (holds : hand.In setting frame state)
    (onward : state.Onward after) (keeps : after.Keeps setting (frame ++ spans nodes))
    (sits : ∀ node ∈ nodes, node.Sits setting.source ∧ node.Ends after.lexer.lastStop)
    (begins : ∀ node ∈ nodes, hand.first ≤ node.start)
    (nested : Nested (nodes ++ state.decorators))
    (sprouts : ∀ pair ∈ tags nodes,
      pair ∈ tags (hand.given ++ hand.loose) ∨ hand.since state ≤ pair.start) :
    hand.Leads setting frame state { first := hand.first, given := nodes } after where
  holds := {
    keeps := by rwa [List.append_nil]
    sits := by rwa [List.append_nil]
    begins := begins
    loose := List.forall_mem_nil _
    first := holds.first
    latest := holds.first
    reached := Nat.le_trans (Nat.le_trans hand.ordered holds.reached) onward.start
    waiting := fun node inside => holds.waiting node (onward.waiting.subset inside)
    past := List.forall_mem_nil _
    nested := by
      rw [all, List.append_nil]
      exact nested.part (tags_subperm (onward.waiting.append_left _).subperm) }
  onward := onward
  sprouts pair inside := by
    rw [all, List.append_nil, tags_append] at inside
    rw [all, tags_append]
    rcases List.mem_append.mp inside with made | waits
    · exact (sprouts pair made).imp_left (List.mem_append_left _)
    · exact .inl (List.mem_append_right _
        ((tags_subperm onward.waiting.subperm).subset waits))

/-- The elements below them are those from before. -/
theorem renewOld (holds : hand.In setting frame state)
    (onward : state.Onward after) (keeps : after.Keeps setting (frame ++ spans nodes))
    (sits : ∀ node ∈ nodes, node.Sits setting.source ∧ node.stop ≤ after.lexer.lastStop)
    (begins : ∀ node ∈ nodes, hand.first ≤ node.start)
    (among : (tags nodes).Subperm (tags (hand.given ++ hand.loose))) :
    hand.Leads setting frame state { first := hand.first, given := nodes } after := by
  refine holds.renew onward keeps (fun node inside => ?_) begins ?_
    fun pair inside => .inl (among.subset inside)
  · refine ⟨(sits node inside).1, (sits node inside).2, fun pair below => ?_⟩
    obtain ⟨older, member, former⟩ := mem_tags.mp (among.subset (mem_tags.mpr ⟨node, inside, below⟩))
    exact Nat.le_trans ((holds.sits older member).2.tags pair former) onward.lastStop
  · exact holds.nested.part (tags_subperm_append among)

/-- The elements below what has been taken out of the hand nest with the ones below the rest. -/
theorem nested_taken (holds : hand.In setting frame state)
    (among : (tags (kept ++ part)).Subperm (tags (hand.given ++ hand.loose))) :
    Nested (kept ++ (part ++ state.decorators)) := by
  refine holds.nested.part ?_
  rw [all, ← List.append_assoc]
  exact tags_subperm_append among

/-- The elements that a step has read start after those below the nodes that were kept. -/
theorem nested_kept (holds : hand.In setting frame state)
    (among : (tags (kept ++ (hand.given ++ hand.loose))).Subperm (tags (middle.given ++ middle.loose)))
    (outer : middle.In setting others state) (fresh : hand.begun = false)
    (leads : hand.Leads setting frame state made after) :
    Nested (kept ++ made.all after) ∧ ∀ pair ∈ tags (kept ++ made.all after),
      pair ∈ tags (middle.all state) ∨ middle.since state ≤ pair.start := by
  have former := outer.nested_taken among
  have since : hand.since state = state.lexer.start := by rw [Hand.since, fresh]; rfl
  have older : tags (kept ++ hand.all state) ⊆ tags (middle.all state) := by
    rw [all, all, ← List.append_assoc]
    exact (tags_subperm_append among).subset
  refine ⟨nested_append.mpr ⟨(nested_append.mp former).1, leads.holds.nested,
    fun pair early other late => ?_⟩, fun pair inside => ?_⟩
  · rcases leads.sprouts other late with old | new
    · exact (nested_append.mp former).2.2 pair early other old
    · have held : pair ∈ tags (middle.given ++ middle.loose) := among.subset <| by
        rw [tags_append]
        exact List.mem_append_left _ early
      obtain ⟨node, member, below⟩ := mem_tags.mp held
      exact .inl (Nat.le_trans ((outer.sits node member).2.tags pair below)
        (Nat.le_trans holds.keeps.sited.sound.ordered (since ▸ new)))
  · rw [tags_append] at inside older
    rcases List.mem_append.mp inside with stays | made
    · exact .inl (older (List.mem_append_left _ stays))
    · exact (leads.sprouts pair made).imp (fun old => older (List.mem_append_right _ old))
        fun new => Nat.le_trans outer.since_le (since ▸ new)

/-- Some of the nodes in the hand are lent to a step, which keeps them after an offset. -/
theorem lend (holds : hand.In setting frame state) (given : hand.given.Perm (kept ++ part))
    (loose : hand.loose.Perm (set ++ apart)) (past : passed ⊆ hand.past)
    (seam : setting.source.Seam first) (below : hand.first ≤ first)
    (reached : first ≤ state.lexer.start) (begins : ∀ node ∈ part, first ≤ node.start) :
    ({ first, given := part, loose := apart, past := passed } : Hand).In setting
      (frame ++ spans (kept ++ set)) state where
  keeps := by
    refine holds.keeps.perm ?_
    rw [List.append_assoc, ← spans_append]
    exact (spans_perm (taken_perm given loose)).append_left frame
  sits node inside := by
    refine holds.sits node ?_
    rcases List.mem_append.mp inside with inside | inside
    · exact List.mem_append_left _ (given.mem_iff.mpr (List.mem_append_right _ inside))
    · exact List.mem_append_right _ (loose.mem_iff.mpr (List.mem_append_right _ inside))
  begins := begins
  loose node inside := holds.loose node (loose.mem_iff.mpr (List.mem_append_right _ inside))
  first := seam
  latest := seam
  reached := reached
  waiting node inside := (holds.waiting node inside).mono below
  past pos inside := holds.past pos (past inside)
  nested := by
    have taken := holds.nested_taken (tags_perm (taken_perm given loose)).subperm
    exact (nested_append.mp taken).2.1

/-- What the step has made of them goes back into the hand. -/
theorem regain (holds : hand.In setting frame state) (given : hand.given.Perm (kept ++ part))
    (loose : hand.loose.Perm (set ++ apart)) (below : hand.first ≤ first)
    (lent : ({ first, given := part, loose := apart, past := passed } : Hand).In setting
      (frame ++ spans (kept ++ set)) state)
    (leads : ({ first, given := part, loose := apart, past := passed } : Hand).Leads setting
      (frame ++ spans (kept ++ set)) state (load.hand first) after) :
    hand.Leads setting frame state (Hand.add { hand with given := kept, loose := set } load) after := by
  have made := leads.holds
  have onward := leads.onward
  have former := taken_perm given loose
  have added : (kept ++ load.given ++ (set ++ load.loose)).Perm
      (kept ++ set ++ (load.given ++ load.loose)) := (taken_perm (.refl _) (.refl _)).symm
  have same : (Hand.all (Hand.add { hand with given := kept, loose := set } load) after).Perm
      (kept ++ set ++ (load.hand first).all after) := by
    simp only [all, add_given, add_loose, Load.hand_given, Load.hand_loose]
    rw [← List.append_assoc (kept ++ set)]
    exact added.append_right _
  obtain ⟨nested, sprouts⟩ := lent.nested_kept (tags_perm former).subperm holds rfl leads
  refine ⟨⟨?_, fun node inside => ?_, fun node inside => ?_, fun node inside => ?_, holds.first,
    holds.latest, Nat.le_trans holds.reached onward.start,
    fun node inside => holds.waiting node (onward.waiting.subset inside), fun pos inside => ?_,
    nested.part (tags_perm same).subperm⟩, onward,
    fun pair inside => sprouts pair ((tags_perm same).subset inside)⟩
  · refine made.keeps.perm ?_
    simp only [add_given, add_loose, Load.hand_given, Load.hand_loose]
    rw [List.append_assoc frame, ← spans_append]
    exact (spans_perm added).append_left frame
  · rcases List.mem_append.mp (added.mem_iff.mp inside) with stays | new
    · have ⟨sits, ends⟩ := holds.sits node (former.subset (List.mem_append_left _ stays))
      exact ⟨sits, ends.mono onward.lastStop⟩
    · exact made.sits node new
  · rcases List.mem_append.mp inside with inside | inside
    · exact holds.begins node (given.mem_iff.mpr (List.mem_append_left _ inside))
    · exact Nat.le_trans below (made.begins node inside)
  · rcases List.mem_append.mp inside with inside | inside
    · exact holds.loose node (loose.mem_iff.mpr (List.mem_append_left _ inside))
    · exact made.loose node inside
  · rcases List.mem_append.mp inside with inside | inside
    · exact Nat.le_trans (holds.past pos inside) onward.lastStop
    · exact made.past pos inside

/-- What the step has made of all of them is in the hand. -/
theorem turn (holds : hand.In setting frame state)
    (made : hand.Leads setting frame state (load.hand hand.first) after) :
    hand.Leads setting frame state (hand.turn load) after := by
  obtain ⟨made, onward, sprouts⟩ := made
  refine ⟨⟨made.keeps, made.sits, made.begins, made.loose, holds.first, holds.latest,
    Nat.le_trans holds.reached onward.start,
    fun node inside => holds.waiting node (onward.waiting.subset inside), fun pos inside => ?_,
    made.nested⟩, onward, sprouts⟩
  rcases List.mem_append.mp inside with inside | inside
  · exact Nat.le_trans (holds.past pos inside) onward.lastStop
  · exact made.past pos inside

/-- The nodes that are lent start after the first offset in any case. -/
theorem lendFirst (holds : hand.In setting frame state) (given : hand.given.Perm (kept ++ part))
    (loose : hand.loose.Perm (set ++ apart)) (past : passed ⊆ hand.past) :
    ({ first := hand.first, given := part, loose := apart, past := passed } : Hand).In setting
      (frame ++ spans (kept ++ set)) state :=
  holds.lend given loose past holds.first (Nat.le_refl _) (Nat.le_trans hand.ordered holds.reached)
    fun node inside => holds.begins node (given.mem_iff.mpr (List.mem_append_right _ inside))

/-- Nothing is lent, and what is read starts at the current token or after it. -/
theorem lendNothing (holds : hand.In setting frame state) :
    ({ first := state.lexer.start } : Hand).In setting (frame ++ spans (hand.given ++ hand.loose))
      state :=
  holds.lend (List.append_nil _ ▸ .refl _) (List.append_nil _ ▸ .refl _) (List.nil_subset _)
    holds.keeps.sited.posted.start (Nat.le_trans hand.ordered holds.reached) (Nat.le_refl _) nofun

end In

/-- What follows does not begin earlier. -/
theorem In.since_le_since (holds : hand.In setting frame state) (onward : state.Onward between)
    (below : hand.first ≤ middle.first) (begun : middle.begun = true → hand.begun = true) :
    hand.since state ≤ middle.since between := by
  cases fresh : middle.begun with
  | true =>
      rw [since, since, if_pos fresh, if_pos (begun fresh)]
      exact below
  | false =>
      rw [since.eq_def middle, fresh]
      exact Nat.le_trans holds.since_le onward.start

/-- Two steps follow each other. -/
theorem Leads.trans (holds : hand.In setting frame state)
    (begins : hand.Leads setting frame state middle between)
    (goesOn : middle.Leads setting frame between (load.hand middle.first) after)
    (below : hand.first ≤ middle.first) (since : hand.since state ≤ middle.since between) :
    hand.Leads setting frame state (load.hand hand.first) after := by
  obtain ⟨-, onward, sprouts⟩ := begins
  obtain ⟨made, further, later⟩ := goesOn
  have whole := onward.trans further
  refine ⟨{ made with
    begins := fun node inside => Nat.le_trans below (made.begins node inside)
    first := holds.first
    latest := holds.first
    reached := Nat.le_trans below made.reached
    waiting := fun node inside => holds.waiting node (whole.waiting.subset inside) }, whole,
    fun pair inside => ?_⟩
  rcases later pair inside with old | new
  · exact sprouts pair old
  · exact .inr (Nat.le_trans since new)

end Hand

end Grammar

end EcmaSyntax
