import EcmaSyntax.Proofs.Place.Contract
import EcmaSyntax.Proofs.Tree.Pattern

namespace EcmaSyntax

/-- A node differs from another one at most in how it was written. -/
structure Node.Like (node other : Node) : Prop where
  id : other.id = node.id
  form : other.form = node.form
  start : other.start = node.start
  stop : other.stop = node.stop

namespace Node

variable {source : Source} {node other : Node}

/-- Nodes that are alike have the same places. -/
theorem Like.spans (like : node.Like other) : other.spans = node.spans := by
  rw [spans_eq, spans_eq, parts, parts, like.id, like.form, like.start, like.stop]

/-- Nodes that are alike have the same tags. -/
theorem Like.tags (like : node.Like other) : other.tags = node.tags := by
  rw [tags_eq, tags_eq, parts, parts, like.form]

/-- A node lies where another one does if its parentheses do. -/
theorem Like.sits (like : node.Like other) (sits : node.Sits source)
    (parenthesis : ∀ extra ∈ other.extra, ∀ pos ∈ extra.parenStart, source.Seam pos) :
    other.Sits source := by
  obtain ⟨here, below⟩ := everywhere_iff.mp sits
  refine everywhere_iff.mpr ⟨?_, by rwa [parts, like.form]⟩
  refine ⟨like.start ▸ here.start, like.stop ▸ here.stop, ?_, ?_, parenthesis, like.form ▸ here.cast⟩
  · rw [like.start, like.stop]
    exact here.ordered
  · rw [like.form, like.start, like.stop]
    exact here.inside

/-- What is noted beside a node does not matter to its likeness. -/
theorem like_mapExtra (node : Node) (change : Extra → Extra) : node.Like (node.mapExtra change) :=
  ⟨rfl, rfl, rfl, rfl⟩

/-- The parentheses around a node stay where they are if nothing else is said of them. -/
theorem Lies.mapExtra {change : Extra → Extra} (lies : node.Lies source)
    (same : ∀ extra, (change extra).parenStart = extra.parenStart) :
    ∀ extra ∈ (node.mapExtra change).extra, ∀ pos ∈ extra.parenStart, source.Seam pos := by
  rintro _ ⟨rfl⟩ pos inside
  rw [same] at inside
  cases former : node.extra with
  | none =>
      rw [former] at inside
      cases inside
  | some extra =>
      rw [former] at inside
      exact lies.parenthesis extra former pos inside

/-- A node is made of another one, with its identity, and of some more nodes. -/
structure Takes (node : Node) (more : List Node) (other : Node) : Prop where
  id : other.id = node.id
  start : other.start = node.start
  extra : other.extra = node.extra
  parts : other.parts.Subperm (node.parts ++ more)
  decorators : node.form.decorators.Subperm other.form.decorators
  tagged : other.form.tags?.toList.Sublist node.form.tags?.toList
  cast : other.form.Ordered

variable {more : List Node} {annot : Node}

theorem Takes.refl (cast : node.form.Ordered) : node.Takes [] node :=
  ⟨rfl, rfl, rfl, by simpa using List.Subperm.refl _, .refl _, .refl _, cast⟩

/-- Where a node ends does not matter for what it is made of. -/
theorem Takes.ending (takes : node.Takes more other) (stop : Nat) (loc : Location) :
    node.Takes more { other with stop := stop, loc := loc } :=
  ⟨takes.id, takes.start, takes.extra, takes.parts, takes.decorators, takes.tagged, takes.cast⟩

/-- The elements below a node that is made of another one are those below what it is made of. -/
theorem Takes.tags (takes : node.Takes more other) :
    (Grammar.tags [other]).Subperm (Grammar.tags (node :: more)) := by
  rw [Grammar.tags_cons, Grammar.tags_nil, List.append_nil, Grammar.tags_cons, tags_eq, tags_eq node,
    List.append_assoc]
  refine takes.tagged.subperm.append ?_
  have parts := Grammar.tags_subperm takes.parts
  rwa [Grammar.tags_append] at parts

/-- A node that is made of another one lies where it ends if the other one does. -/
theorem Takes.sits (takes : node.Takes more other) (sits : node.Sits source)
    (rest : ∀ part ∈ more, part.Sits source ∧ node.start ≤ part.start ∧ part.stop ≤ other.stop)
    (later : node.stop ≤ other.stop) (ended : source.Seam other.stop) : other.Sits source := by
  obtain ⟨here, below⟩ := everywhere_iff.mp sits
  refine everywhere_iff.mpr ⟨⟨takes.start ▸ here.start, ended, ?_, ?_,
    takes.extra ▸ here.parenthesis, takes.cast⟩, fun part inside => ?_⟩
  · exact takes.start ▸ Nat.le_trans here.ordered later
  · exact takes.start ▸ here.inside.replace takes.parts takes.decorators later fun part inside =>
      (rest part inside).2
  rcases List.mem_append.mp (takes.parts.subset inside) with former | new
  · exact below part former
  · exact (rest part new).1

/-- An annotation comes after all that a node consists of. -/
theorem Lies.annotated {former : List Node} {old : Option Node} (lies : node.Lies source)
    (plain : node.form.decorators = []) (consists : node.parts = former ++ old.toList)
    (row : InRow (former ++ old.toList)) (after : node.stop ≤ annot.start) :
    InRow (former ++ (some annot).toList) :=
  (row.sublist (List.sublist_append_left _ _)).concat fun _ inside =>
    Nat.le_trans (lies.around plain (consists ▸ List.mem_append_left _ inside)).2 after

/-- A node takes an annotation instead of the one that it may have. -/
theorem withAnnot?_takes (placed : node.withAnnot? annot = some other) (lies : node.Lies source)
    (after : node.stop ≤ annot.start) : node.Takes [annot] other ∧ other.stop = node.stop := by
  rcases node with ⟨id, form, start, stop, loc, extra⟩
  unfold withAnnot? at placed
  cases form <;> cases placed
  all_goals
    refine ⟨⟨rfl, rfl, rfl, ?_, List.nil_subperm, List.nil_sublist _, ?_⟩, rfl⟩
    · simp [parts, Form.parts, Form.fields, List.subperm_cons, List.subperm_append_left]
    · first
        | exact InRow.single annot
        | exact lies.annotated rfl (by simp [parts, Form.parts, Form.fields]) lies.cast after

/-- A node that is marked as optional is made of the same nodes. -/
theorem asOptional?_takes (marked : node.asOptional? = some other) (ordered : node.form.Ordered) :
    node.Takes [] other ∧ other.stop = node.stop := by
  rcases node with ⟨id, form, start, stop, loc, extra⟩
  unfold asOptional? at marked
  cases form <;> cases marked
  all_goals
    refine ⟨⟨rfl, rfl, rfl, ?_, List.nil_subperm, List.nil_sublist _, ordered⟩, rfl⟩
    simp [parts, Form.parts, Form.fields, List.Subperm.refl]

end Node

namespace Grammar

variable {α β : Type} {setting : Setting} {hand : Hand} {mark : Mark} {form : Form}
  {node : Node}

/-- A node has been made of a form, which starts at a mark and ends after some offsets. The elements
below it end before it does. -/
structure Formed (mark : Mark) (form : Form) (past : List Nat) (node : Node) : Prop where
  form : node.form = form
  start : node.start = mark.pos
  extra : node.extra = none
  past : ∀ pos ∈ past, pos ≤ node.stop
  tags : ∀ pair ∈ Grammar.tags node.parts, pair.stop ≤ node.stop

/-- Unless it is an element, the elements below it are those below its parts. -/
theorem Formed.tags_eq {past : List Nat} (formed : Formed mark form past node)
    (plain : form.tags? = none) : node.tags = Grammar.tags form.parts := by
  rw [tags_node (formed.form ▸ plain), Node.parts, formed.form]

/-- No problem is raised where comments are given to a node. -/
theorem attach_strays {id : NodeId} {start stop : Nat} {state : State} :
    Strays (attach id start stop) setting state := by
  intro failure last failed
  unfold attach at failed
  split at failed <;> cases failed
  exact ⟨trivial, .refl _⟩

/-- A parse goes on where comments are given to a node. -/
theorem attach_onward {id : NodeId} {start stop : Nat} {state : State} :
    Gives (attach id start stop) setting state fun _ after => state.Onward after := by
  intro _ after ends
  unfold attach at ends
  split at ends <;> cases ends
  next attached =>
    obtain ⟨_, _, _, _, rfl⟩ := State.attach_handles attached
    exact ⟨⟨⟨⟨List.suffix_refl _, List.suffix_refl _⟩, .refl _⟩, Nat.le_refl _, Nat.le_refl _⟩,
      .refl _⟩

/-- Comments that are given to a node are kept in their places. -/
theorem attach_keeps {id : NodeId} {start stop : Nat} {state : State} {held : List Finished}
    (keeps : state.Keeps setting held) (inside : ⟨id, start, stop⟩ ∈ held) :
    Gives (attach id start stop) setting state fun _ after => after.Keeps setting held := by
  intro _ after ends
  unfold attach at ends
  split at ends <;> cases ends
  next attached => exact keeps.attach inside attached

/-- The tags of an element go around what is in the hand. Nothing else has been read since the first
one began. -/
structure Hand.Rounds (hand : Hand) (pair : Tags) : Prop where
  filled : pair.Filled
  begun : hand.begun = true
  start : hand.first = pair.start
  stop : ∃ node ∈ hand.given, pair.stop ≤ node.stop
  nest : ∀ other ∈ tags (hand.given ++ hand.loose), pair.Nest other

/-- What is no element with two tags need not go around anything. -/
theorem Hand.rounds_of_plain {hand : Hand} {form : Form} (plain : form.tags? = none) :
    ∀ pair ∈ form.tags?, hand.Rounds pair := fun _ inside =>
  absurd (plain ▸ inside) (Option.not_mem_none _)

/-- What a form consists of lies between the start of a node and its stop. -/
structure Hand.Fills (setting : Setting) (hand : Hand) (mark : Mark) (form : Form) (stop : Nat) :
    Prop where
  consumes : form.parts.Perm (hand.given ++ hand.loose)
  loose : hand.loose.Subperm form.decorators
  cast : form.Ordered
  first : hand.first ≤ mark.pos
  begun : setting.source.Seam mark.pos
  ended : setting.source.Seam stop
  ordered : mark.pos ≤ stop
  within : ∀ part ∈ hand.given, mark.pos ≤ part.start ∧ part.stop ≤ stop
  rounds : ∀ pair ∈ form.tags?, hand.Rounds pair

section Finish

variable {stop : Nat} {stopLoc : Position} {frame : List Finished} {state : State}

/-- A parse goes on when an identity is given. -/
theorem State.Onward.named (state : State) :
    state.Onward { state with identities := state.identities.advance } :=
  ⟨⟨⟨.refl _, Identities.before_advance _⟩, Nat.le_refl _, Nat.le_refl _⟩, .refl _⟩

/-- No problem is raised where a node is finished. -/
theorem finishAt_strays : Strays (finishAt mark form stop stopLoc) setting state := by
  refine .bind (.never ⟨_, _, rfl⟩) ?_
  simp only [freshId, Gives.bind_iff, gives_get, gives_modify, gives_pure]
  refine ⟨(State.Onward.named state).toGrown, ?_⟩
  split
  · exact .bind attach_strays (attach_onward.mono fun _ _ onward =>
      ⟨onward.toGrown, .never ⟨_, _, rfl⟩⟩)
  · exact .never ⟨_, _, rfl⟩

/-- A node that is filled from the hand lies in its place. -/
theorem Hand.Fills.sits (fills : hand.Fills setting mark form stop)
    (holds : hand.In setting frame state) (formed : node.form = form)
    (start : node.start = mark.pos) (ends : node.stop = stop) (extra : node.extra = none) :
    node.Sits setting.source := by
  refine Node.everywhere_iff.mpr ⟨⟨start ▸ fills.begun, ends ▸ fills.ended, ?_, ?_, extra ▸ nofun,
    formed ▸ fills.cast⟩, fun part inside => ?_⟩
  · rw [start, ends]
    exact fills.ordered
  · rw [start, ends, formed]
    exact ⟨hand.loose, hand.given, fills.consumes.trans List.perm_append_comm, fills.loose,
      holds.loose, fills.within⟩
  · exact (holds.sits part (fills.consumes.mem_iff.mp (formed ▸ inside : part ∈ form.parts))).1

/-- The elements below a node that is filled from the hand are those below what is in it, unless it
is an element itself. -/
theorem Hand.Fills.tags (fills : hand.Fills setting mark form stop) (formed : node.form = form) :
    (Grammar.tags [node]).Perm (form.tags?.toList ++ Grammar.tags (hand.given ++ hand.loose)) := by
  rw [tags_cons, tags_nil, List.append_nil, Node.tags_eq, Node.parts, formed]
  exact (tags_perm fills.consumes).append_left _

/-- The elements below it nest with each other and with the ones that wait. -/
theorem Hand.Fills.nested (fills : hand.Fills setting mark form stop)
    (holds : hand.In setting frame state) (formed : node.form = form) :
    Nested ([node] ++ state.decorators) := by
  have same : (Grammar.tags ([node] ++ state.decorators)).Perm
      (form.tags?.toList ++ Grammar.tags (hand.all state)) := by
    rw [Hand.all, tags_append, tags_append, ← List.append_assoc]
    exact (fills.tags formed).append_right _
  have nested := holds.nested
  suffices both : (form.tags?.toList ++ Grammar.tags (hand.all state)).Pairwise Tags.Nest ∧
      ∀ pair ∈ form.tags?.toList ++ Grammar.tags (hand.all state), pair.Filled from
    ⟨(same.pairwise_iff Tags.Nest.symm).mpr both.1, fun pair inside => both.2 pair (same.subset inside)⟩
  cases own : form.tags? with
  | none => exact ⟨nested.pairwise, nested.filled⟩
  | some pair =>
      have rounds := fills.rounds pair own
      refine ⟨List.pairwise_cons.mpr ⟨fun other inside => ?_, nested.pairwise⟩,
        List.forall_mem_cons.mpr ⟨rounds.filled, nested.filled⟩⟩
      obtain ⟨node, member, below⟩ := mem_tags.mp inside
      rcases List.mem_append.mp member with held | waits
      · exact rounds.nest other (mem_tags.mpr ⟨node, held, below⟩)
      · exact .inr (.inl (rounds.start ▸ (holds.waiting node waits).tags other below))

/-- The elements below it end before an offset if what is in the hand does. -/
theorem Hand.Fills.ends (fills : hand.Fills setting mark form stop)
    (holds : hand.In setting frame state) (formed : node.form = form) :
    ∀ pair ∈ node.tags, pair.stop ≤ state.lexer.lastStop := by
  intro pair inside
  have member : pair ∈ Grammar.tags [node] := mem_tags.mpr ⟨node, List.mem_cons_self, inside⟩
  rcases List.mem_append.mp ((fills.tags formed).subset member) with own | held
  · obtain ⟨part, inside, ends⟩ := (fills.rounds pair (Option.mem_toList.mp own)).stop
    exact Nat.le_trans ends (holds.sits part (List.mem_append_left _ inside)).2.stop
  · obtain ⟨part, inside, below⟩ := mem_tags.mp held
    exact (holds.sits part inside).2.tags pair below

/-- If it is an element, it starts where the construct does. -/
theorem Hand.Fills.sprouts (fills : hand.Fills setting mark form stop) (formed : node.form = form) :
    ∀ pair ∈ Grammar.tags [node],
      pair ∈ Grammar.tags (hand.given ++ hand.loose) ∨ hand.since state ≤ pair.start := by
  intro pair inside
  rcases List.mem_append.mp ((fills.tags formed).subset inside) with own | held
  · have rounds := fills.rounds pair (Option.mem_toList.mp own)
    rw [Hand.since, if_pos rounds.begun]
    exact .inr (Nat.le_of_eq rounds.start)
  · exact .inl held

/-- A node is finished with what is in the hand, which it holds from then on. -/
theorem finishAt_keeps (fills : hand.Fills setting mark form stop)
    (holds : hand.In setting frame state) :
    Gives (finishAt mark form stop stopLoc) setting state fun node after =>
      (node.form = form ∧ node.start = mark.pos ∧ node.extra = none ∧ node.stop = stop) ∧
        after.Keeps setting (frame ++ spans [node]) ∧ state.Onward after := by
  simp only [finishAt, freshId, Gives.bind_iff, gives_get, gives_modify, gives_pure]
  let made : Node := ⟨state.identities.next, form, mark.pos, stop, ⟨mark.loc, stopLoc⟩, none⟩
  have same : (frame ++ spans [made]).Perm
      (⟨state.identities.next, mark.pos, stop⟩ :: (frame ++ spans (hand.given ++ hand.loose))) := by
    rw [spans_cons, spans_nil, List.append_nil, Node.spans_eq]
    exact List.perm_middle.trans (.cons _ ((spans_perm fills.consumes).append_left frame))
  have keeps := (holds.keeps.fresh mark.pos stop).perm same
  have named := State.Onward.named state
  refine gives_ite (fun _ => ?_) fun _ => gives_pure.mpr ⟨⟨rfl, rfl, rfl, rfl⟩, keeps, named⟩
  rw [Gives.bind_iff]
  intro _ after ends
  have inside := same.mem_iff.mpr List.mem_cons_self
  exact gives_pure.mpr ⟨⟨rfl, rfl, rfl, rfl⟩, attach_keeps keeps inside _ after ends,
    named.trans (attach_onward _ after ends)⟩

/-- A node that ends with a token which has been passed may be held. -/
theorem finishAt_holds (fills : hand.Fills setting mark form stop)
    (holds : hand.In setting frame state) (stops : stop ≤ state.lexer.lastStop) :
    Gives (finishAt mark form stop stopLoc) setting state fun node after =>
      (node.form = form ∧ node.start = mark.pos ∧ node.extra = none ∧ node.stop = stop) ∧
        hand.Leads setting frame state { first := hand.first, given := [node] } after := by
  refine (finishAt_keeps fills holds).mono fun node after met => ?_
  obtain ⟨made, keeps, onward⟩ := met
  obtain ⟨same, begins, none, ends⟩ := made
  refine ⟨⟨same, begins, none, ends⟩, holds.renew onward keeps ?_ ?_ (fills.nested holds same)
    (fills.sprouts same)⟩
  · exact List.forall_mem_singleton.mpr ⟨fills.sits holds same begins ends none,
      .mono ⟨ends ▸ stops, fills.ends holds same⟩ onward.lastStop⟩
  · exact List.forall_mem_singleton.mpr (begins ▸ fills.first)

namespace PlacesAs

/-- A node ends where it has to, or before the last token that has been passed. -/
theorem finishAt (fills : hand.Fills setting mark form stop) (passed : stop ∈ hand.past) :
    PlacesAs setting hand (Grammar.finishAt mark form stop stopLoc) fun node =>
      { given := [node], fact := node.form = form ∧ node.start = mark.pos ∧ node.stop = stop } where
  gives _ _ holds :=
    (finishAt_holds fills holds (holds.past stop passed)).mono fun _ _ ⟨known, leads⟩ =>
      ⟨⟨known.1, known.2.1, known.2.2.2⟩, leads⟩
  fails _ _ _ := finishAt_strays

/-- A node starts at its mark and ends with the last token that has been passed. -/
theorem finishAs (cast : form.Ordered := by
      first | trivial | exact InRow.nil | exact InRow.single _ | exact InRow.option _)
    (starts : mark.pos = hand.first := by rfl)
    (consumes : form.parts.Perm (hand.given ++ hand.loose) := by
      first
        | (simp [Form.parts, Form.fields]; done)
        | (classical simp [Form.parts, Form.fields, List.perm_iff_count, List.count_cons] <;> omega))
    (passed : hand.given ≠ [] ∨ hand.first ∈ hand.past := by simp)
    (loose : hand.loose.Subperm form.decorators := by simp [Form.decorators, List.Subperm.refl])
    (rounds : ∀ pair ∈ form.tags?, hand.Rounds pair := by exact Hand.rounds_of_plain rfl) :
    PlacesAs setting hand (finish mark form) fun node =>
      { given := [node], fact := Formed mark form hand.past node } where
  gives _ state holds := by
    rw [finish, Gives.bind_iff, gives_get]
    have within (part : Node) (inside : part ∈ hand.given) :
        mark.pos ≤ part.start ∧ part.stop ≤ state.lexer.lastStop :=
      ⟨starts ▸ holds.begins part inside, (holds.sits part (List.mem_append_left _ inside)).2.stop⟩
    have ordered : mark.pos ≤ state.lexer.lastStop := by
      rcases passed with some | passed
      · obtain ⟨part, inside⟩ := List.exists_mem_of_ne_nil _ some
        have sits := (holds.sits part (List.mem_append_left _ inside)).1
        exact Nat.le_trans (within part inside).1
          (Nat.le_trans sits.here.ordered (within part inside).2)
      · exact starts ▸ holds.past _ passed
    have fills : hand.Fills setting mark form state.lexer.lastStop :=
      ⟨consumes, loose, cast, Nat.le_of_eq starts.symm, starts ▸ holds.first,
        holds.keeps.sited.lastStop, ordered, within, rounds⟩
    refine (finishAt_holds fills holds (Nat.le_refl _)).mono fun node after met => ?_
    obtain ⟨⟨same, begins, none, ends⟩, leads⟩ := met
    refine ⟨⟨same, begins, none, fun pos inside => ends ▸ holds.past pos inside,
      fun pair inside => ?_⟩, leads⟩
    rw [Node.parts, same] at inside
    obtain ⟨part, member, below⟩ := mem_tags.mp ((tags_perm consumes).subset inside)
    exact ends ▸ (holds.sits part member).2.tags pair below
  fails _ _ _ := .bind (.never ⟨_, _, rfl⟩) (gives_get.mpr ⟨.refl _, finishAt_strays⟩)

theorem finish (cast : form.Ordered := by
      first | trivial | exact InRow.nil | exact InRow.single _ | exact InRow.option _)
    (starts : mark.pos = hand.first := by rfl)
    (consumes : form.parts.Perm (hand.given ++ hand.loose) := by
      first
        | (simp [Form.parts, Form.fields]; done)
        | (classical simp [Form.parts, Form.fields, List.perm_iff_count, List.count_cons] <;> omega))
    (passed : hand.given ≠ [] ∨ hand.first ∈ hand.past := by simp)
    (loose : hand.loose.Subperm form.decorators := by simp [Form.decorators, List.Subperm.refl])
    (rounds : ∀ pair ∈ form.tags?, hand.Rounds pair := by exact Hand.rounds_of_plain rfl) :
    Places setting hand (Grammar.finish mark form) :=
  (finishAs cast starts consumes passed loose rounds).forget fun _ _ => trivial

/-- A cast is made of what is cast and of the type after it. -/
theorem finishCast {inner annot : Node} {isItem : Bool} (ordered : inner.stop ≤ annot.start)
    (starts : mark.pos = hand.first := by rfl)
    (given : hand.given.Perm [inner, annot] := by simp)
    (loose : hand.loose = [] := by rfl) :
    Places setting hand (Grammar.finish mark (.typeCastExpression inner annot isItem)) := by
  refine .finish (InRow.pair.mpr ordered) starts ?_ (.inl ?_) (loose ▸ List.nil_subperm)
  · rw [loose, List.append_nil]
    exact given.symm
  · exact List.ne_nil_of_mem (given.mem_iff.mpr List.mem_cons_self)

end PlacesAs

end Finish

section Refinish

variable {other : Node} {more : List Node} {frame : List Finished} {state : State}

/-- A node takes the place of the one that it is made of, and is given its comments again. -/
theorem attach_holds {first : Nat} (takes : node.Takes more other)
    (holds : ({ first, given := node :: more } : Hand).In setting frame state)
    (later : node.stop ≤ other.stop) (ended : setting.source.Seam other.stop)
    (stops : other.stop ≤ state.lexer.lastStop)
    (rest : ∀ part ∈ more, node.start ≤ part.start ∧ part.stop ≤ other.stop) :
    Gives (attach other.id other.start other.stop) setting state fun _ after =>
      ({ first, given := node :: more } : Hand).Leads setting frame state
        { first, given := [other] } after := by
  have member {part : Node} (inside : part ∈ more) : part ∈ node :: more ++ [] :=
    List.mem_append_left _ (List.mem_cons_of_mem _ inside)
  have sits : other.Sits setting.source :=
    takes.sits (holds.sits node List.mem_cons_self).1
      (fun part inside => ⟨(holds.sits part (member inside)).1, rest part inside⟩) later ended
  have keeps : state.Keeps setting
      (⟨other.id, other.start, other.stop⟩ :: (frame ++ spans (node.parts ++ more))) := by
    rw [takes.id, takes.start]
    refine State.Keeps.stretch (holds.keeps.perm ?_) later
    simp only [List.append_nil, spans_cons, Node.spans_eq, spans_append]
    exact List.perm_middle.symm
  intro _ after attached
  have onward := attach_onward _ after attached
  have kept : after.Keeps setting (frame ++ spans [other]) := by
    refine (attach_keeps keeps List.mem_cons_self _ after attached).part ?_
    rw [spans_cons, spans_nil, List.append_nil, Node.spans_eq]
    refine List.perm_middle.subperm.trans ((List.subperm_cons _).mpr ?_)
    exact (List.Subperm.refl _).append (spans_subperm takes.parts)
  refine holds.renewOld onward kept ?_ ?_ (by simpa using takes.tags)
  · exact List.forall_mem_singleton.mpr ⟨sits, Nat.le_trans stops onward.lastStop⟩
  · exact List.forall_mem_singleton.mpr (takes.start ▸ holds.begins node List.mem_cons_self)

/-- A node that is made of another one ends with the last token that has been passed. -/
theorem PlacesAs.refinish (takes : node.Takes more other) :
    PlacesAs setting { first := node.start, given := node :: more } (Grammar.refinish other)
      fun value =>
        { given := [value], fact := value.start = node.start ∧ value.form = other.form } where
  gives frame state holds := by
    simp only [Grammar.refinish, refinishAt, Gives.bind_iff, gives_get]
    have retaken := takes.ending state.lexer.lastStop
      { other.loc with stop := state.lexer.lastStopLoc }
    have ends := (holds.sits node List.mem_cons_self).2.stop
    refine (attach_holds retaken holds ends holds.keeps.sited.lastStop (Nat.le_refl _)
      fun part inside => ⟨holds.begins part (List.mem_cons_of_mem _ inside), ?_⟩).mono fun _ _ met =>
        gives_pure.mpr ⟨⟨takes.start, rfl⟩, met⟩
    exact (holds.sits part (List.mem_append_left _ (List.mem_cons_of_mem _ inside))).2.stop
  fails _ _ _ := by
    refine .bind (.never ⟨_, _, rfl⟩) (gives_get.mpr ⟨.refl _, .bind attach_strays ?_⟩)
    exact attach_onward.mono fun _ _ onward => ⟨onward.toGrown, .never ⟨_, _, rfl⟩⟩

/-- A node without decorators is taken apart. -/
theorem PlacesAs.takeApart {action : Parse α} {load : α → Load} (kept : List Node)
    (plain : node.form.decorators = [])
    (places : PlacesAs setting { hand with given := kept ++ node.parts } action load)
    (given : hand.given.Perm (kept ++ [node]) := by simp) :
    PlacesAs setting hand action load := by
  have inside : node ∈ hand.given := given.mem_iff.mpr (by simp)
  refine .held fun known => .exchange kept hand.loose [node] [] node.parts [] ?_ given (by simp)
    ?_ ?_ ?_ ?_ nofun
  · simpa only [List.append_nil] using places
  · simp only [List.append_nil, spans_cons, spans_nil, Node.spans_eq]
    exact (List.sublist_cons_self _ _).subperm
  · simp only [List.append_nil, tags_cons, tags_nil, Node.tags_eq]
    exact (List.sublist_append_right _ _).subperm
  all_goals
    have sits := known.sits node inside
    intro part member
  · rw [List.append_nil] at member
    exact ⟨sits.within member, node, List.mem_cons_self, (sits.here.around plain member).2⟩
  · exact Nat.le_trans (known.begins node inside) (sits.here.around plain member).1

/-- A node is made of the parts of another one and of nodes that lie within it, in its place. -/
theorem PlacesAs.replace {action : Parse α} {load : α → Load} (kept : List Node)
    (takes : node.Takes more other) (stop : other.stop = node.stop)
    (places : PlacesAs setting { hand with given := kept ++ [other] } action load)
    (rest : ∀ part ∈ more, node.start ≤ part.start ∧ part.stop ≤ node.stop := by simp)
    (given : hand.given.Perm (kept ++ node :: more) := by simp) :
    PlacesAs setting hand action load := by
  have member {part : Node} (inside : part ∈ node :: more) : part ∈ hand.given :=
    given.mem_iff.mpr (List.mem_append_right _ inside)
  have inside := member List.mem_cons_self
  refine .held fun known => .exchange kept hand.loose (node :: more) [] [other] [] ?_ given
    (by simp) ?_ (by simpa using takes.tags) ?_ ?_ nofun
  · simpa only [List.append_nil] using places
  · simp only [List.append_nil, spans_cons, spans_nil, Node.spans_eq, takes.id, takes.start, stop]
    refine (List.subperm_cons _).mpr ((spans_subperm takes.parts).trans ?_)
    rw [spans_append]
    exact .refl _
  · have sits := known.sits node inside
    refine List.forall_mem_singleton.mpr ⟨takes.sits sits (fun part within => ?_)
      (Nat.le_of_eq stop.symm) ?_, node, by simp, Nat.le_of_eq stop⟩
    · exact ⟨known.sits part (member (List.mem_cons_of_mem _ within)), (rest part within).1,
        stop ▸ (rest part within).2⟩
    · exact stop ▸ sits.here.stop
  · exact List.forall_mem_singleton.mpr (takes.start ▸ known.begins node inside)

/-- Some of the parts of a node are exchanged for what a step makes of them. -/
theorem PlacesAs.rebuild {action : Parse α} {next : α → Parse β} {load : α → Load}
    {final : β → Load} (others kept part : List Node) (form : α → Form)
    (parts : node.parts.Perm (kept ++ part))
    (within : ∀ child ∈ part, node.start ≤ child.start ∧ child.stop ≤ node.stop)
    (begins : PlacesAs setting { first := node.start, given := part } action load)
    (ends : ∀ value, (load value).fact → ∀ child ∈ (load value).given, child.stop ≤ node.stop)
    (loose : ∀ value, (load value).loose = [])
    (consumes : ∀ value, (form value).parts.Perm (kept ++ (load value).given))
    (decorators : ∀ value, node.form.decorators.Subperm (form value).decorators)
    (cast : ∀ value, (load value).fact → (form value).Ordered)
    (goesOn : ∀ value, (load value).fact →
      PlacesAs setting { hand with given := others ++ [{ node with form := form value }] }
        (next value) final)
    (plain : node.form.tags? = none) (simple : ∀ value, (form value).tags? = none)
    (given : hand.given.Perm (others ++ [node]) := by simp) :
    PlacesAs setting hand (action >>= next) final := by
  have inside : node ∈ hand.given := given.mem_iff.mpr (by simp)
  let shell : Finished := ⟨node.id, node.start, node.stop⟩
  let around (frame : List Finished) := frame ++ shell :: spans (others ++ kept ++ hand.loose)
  have whole : (tags (others ++ kept ++ hand.loose ++ part)).Perm (tags (hand.given ++ hand.loose)) :=
    (tags_shell plain parts).symm.trans (tags_perm (given.append_right hand.loose)).symm
  -- the parts are lent, while the place of the node itself stays in the frame
  have lend {frame state} (holds : hand.In setting frame state) :
      ({ first := node.start, given := part } : Hand).In setting (around frame) state := by
    obtain ⟨sits, reached⟩ := holds.sits node (List.mem_append_left _ inside)
    have below {child : Node} (member : child ∈ part) : child ∈ node.parts :=
      parts.mem_iff.mpr (List.mem_append_right _ member)
    refine ⟨holds.keeps.perm ?_, fun child member => ?_, fun child member => (within child member).1,
      nofun, sits.here.start, sits.here.start, ?_, fun other waits =>
        (holds.waiting other waits).mono (holds.begins node inside), nofun, ?_⟩
    · rw [List.append_nil, List.append_assoc]
      exact (((spans_perm (given.append_right _)).trans (spans_shell parts)).append_left frame).symm
    · rw [List.append_nil] at member
      refine ⟨sits.within (below member), Nat.le_trans (within child member).2 reached.stop,
        fun pair held => reached.tags pair ?_⟩
      rw [tags_node plain]
      exact mem_tags.mpr ⟨child, below member, held⟩
    · exact Nat.le_trans sits.here.ordered
        (Nat.le_trans reached.stop holds.keeps.sited.sound.ordered)
    · rw [Hand.all, List.append_nil]
      exact (nested_append.mp (holds.nested_taken whole.subperm)).2.1
  refine chain (fun value => { hand with given := others ++ [{ node with form := form value }] })
    (fun value => (load value).fact) (fun frame state holds value after ended => ?_)
    (fun _ state holds => begins.fails _ state (lend holds))
    fun value known => ⟨Nat.le_refl _, goesOn value known⟩
  obtain ⟨known, leads⟩ := begins.gives _ state (lend holds) value after ended
  have made := leads.holds
  have onward := leads.onward
  let other : Node := { node with form := form value }
  have stays {child : Node} (member : child ∈ hand.given ++ hand.loose) :
      child.Sits setting.source ∧ child.Ends after.lexer.lastStop :=
    ⟨(holds.sits child member).1, (holds.sits child member).2.mono onward.lastStop⟩
  have sits : other.Sits setting.source := by
    have former := (stays (List.mem_append_left _ inside)).1
    have among : other.form.parts.Subperm (node.form.parts ++ (load value).given) :=
      (consumes value).subperm.trans
        (((List.sublist_append_left _ _).subperm.trans parts.symm.subperm).append (.refl _))
    refine Node.everywhere_iff.mpr ⟨⟨former.here.start, former.here.stop, former.here.ordered,
      former.here.inside.replace among (decorators value) (Nat.le_refl _) fun child new =>
        ⟨made.begins child new, ends value known child new⟩,
      former.here.parenthesis, cast value known⟩, fun child member => ?_⟩
    rcases List.mem_append.mp ((consumes value).mem_iff.mp member) with old | new
    · exact former.within (parts.mem_iff.mpr (List.mem_append_left _ old))
    · exact (made.sits child (List.mem_append_left _ new)).1
  have consumed : other.parts.Perm (kept ++ (load value).given) := consumes value
  have ends : other.Ends after.lexer.lastStop := by
    have former := (stays (List.mem_append_left _ inside)).2
    refine ⟨former.stop, fun pair held => ?_⟩
    rw [tags_node (simple value), (tags_perm consumed).mem_iff, tags_append] at held
    rcases List.mem_append.mp held with old | new
    · refine former.tags pair ?_
      rw [tags_node plain, (tags_perm parts).mem_iff, tags_append]
      exact List.mem_append_left _ old
    · obtain ⟨child, member, below⟩ := mem_tags.mp new
      exact (made.sits child (List.mem_append_left _ member)).2.tags pair below
  have same : (tags (Hand.all { hand with given := others ++ [other] } after)).Subperm
      (tags (others ++ kept ++ hand.loose ++ ((load value).hand node.start).all after)) := by
    simp only [Hand.all, Load.hand_given, Load.hand_loose, loose value, List.append_nil]
    rw [← List.append_assoc]
    exact tags_subperm_append (tags_shell (simple value) consumed).subperm
  obtain ⟨nested, sprouts⟩ := (lend holds).nested_kept
    (by simpa only [List.append_nil] using whole.subperm) holds rfl leads
  have member {child : Node} (held : child ∈ others ++ [node]) : child ∈ hand.given ++ hand.loose :=
    List.mem_append_left _ (given.mem_iff.mpr held)
  refine ⟨known, ⟨?_, fun child held => ?_, fun child held => ?_, holds.loose, holds.first,
    holds.latest, Nat.le_trans holds.reached onward.start, fun other waits =>
      holds.waiting other (onward.waiting.subset waits), fun pos passed =>
      Nat.le_trans (holds.past pos passed) onward.lastStop, nested.part same⟩, onward,
    fun pair inside => sprouts pair (same.subset inside)⟩
  · refine made.keeps.perm ?_
    rw [Load.hand_given, Load.hand_loose, loose, List.append_nil, List.append_assoc frame]
    exact (spans_shell consumed).append_left frame
  · rcases List.mem_append.mp held with held | held
    · rcases List.mem_append.mp held with held | held
      · exact stays (member (List.mem_append_left _ held))
      · obtain rfl := List.mem_singleton.mp held
        exact ⟨sits, ends⟩
    · exact stays (List.mem_append_right _ held)
  · rcases List.mem_append.mp held with held | held
    · exact holds.begins child (given.mem_iff.mpr (List.mem_append_left _ held))
    · obtain rfl := List.mem_singleton.mp held
      exact holds.begins node inside

/-- A node lies where it does whatever its identity is. -/
theorem Node.Sits.renamed {source : Source} (sits : node.Sits source) (id : NodeId) :
    Node.Sits source { node with id := id } := by
  obtain ⟨here, below⟩ := Node.everywhere_iff.mp sits
  exact Node.everywhere_iff.mpr ⟨⟨here.start, here.stop, here.ordered, here.inside,
    here.parenthesis, here.cast⟩, below⟩

/-- A copy of a node has an identity of its own. -/
theorem duplicate_keeps {held : List Finished} (keeps : state.Keeps setting held)
    (inside : ⟨node.id, node.start, node.stop⟩ ∈ held) :
    Gives (duplicate node) setting state fun copy after => ∃ id, copy = { node with id := id } ∧
      after.Keeps setting (⟨id, node.start, node.stop⟩ :: held) ∧ state.Onward after := by
  simp only [duplicate, freshId, Gives.bind_iff, gives_get, gives_modify, gives_pure]
  cases found : state.attached? node.id with
  | none =>
      have none : State.attached? { state with identities := state.identities.advance } node.id = none := found
      simp only [none]
      exact ⟨_, rfl, keeps.fresh _ _, .named state⟩
  | some attached =>
      have some : State.attached? { state with identities := state.identities.advance } node.id =
        some attached := found
      simp only [some]
      exact ⟨_, rfl, keeps.copy inside found, ⟨⟨.refl _, Identities.before_advance _⟩, Nat.le_refl _,
        Nat.le_refl _⟩, .refl _⟩

/-- No problem is raised where a node is duplicated. -/
theorem duplicate_strays : Strays (duplicate node) setting state := by
  refine .bind (.never ⟨_, _, rfl⟩) ?_
  simp only [freshId, Gives.bind_iff, gives_get, gives_modify, gives_pure]
  exact ⟨(State.Onward.named state).toGrown, .never ⟨_, _, rfl⟩⟩

/-- A node that is made of no others may be held twice. -/
theorem PlacesAs.duplicate {first : Nat} (leaf : node.parts = []) :
    PlacesAs setting { first := first, given := [node] } (Grammar.duplicate node)
      fun copy => { given := [node, copy], fact := copy.start = node.start } where
  gives frame state holds := by
    have whole : node.spans = [⟨node.id, node.start, node.stop⟩] := by
      rw [Node.spans_eq, leaf, List.flatMap_nil]
    have inside : (⟨node.id, node.start, node.stop⟩ : Finished) ∈
        frame ++ spans ([node] ++ []) := by
      simp [whole]
    refine (duplicate_keeps holds.keeps inside).mono ?_
    rintro _ after ⟨id, rfl, keeps, onward⟩
    obtain ⟨sits, ends⟩ := holds.sits node List.mem_cons_self
    have begins := holds.begins node List.mem_cons_self
    let copy : Node := { node with id := id }
    have bare : copy.parts = [] := leaf
    have likewise : copy.spans = [⟨id, node.start, node.stop⟩] := by
      rw [Node.spans_eq, bare, List.flatMap_nil]
    have also : copy.Sits setting.source := Node.Sits.renamed sits id
    have stays := Nat.le_trans ends.stop onward.lastStop
    refine ⟨rfl, holds.renewOld onward (keeps.perm ?_) ?_ ?_ ?_⟩
    · simp only [List.append_nil, spans_cons, spans_nil]
      rw [likewise, ← List.append_assoc]
      exact List.perm_append_singleton ..
    · exact List.forall_mem_cons.mpr ⟨⟨sits, stays⟩, List.forall_mem_singleton.mpr ⟨also, stays⟩⟩
    · exact List.forall_mem_cons.mpr ⟨begins, List.forall_mem_singleton.mpr begins⟩
    · rw [tags_cons, tags_cons, tags_nil, tags_leaf leaf, tags_leaf bare]
      exact List.nil_subperm
  fails _ _ _ := duplicate_strays

/-- What is noted of a node does not move it. -/
theorem PlacesAs.note {action : Parse α} {load : α → Load} (kept : List Node)
    (like : node.Like other)
    (parenthesis : ∀ extra ∈ other.extra, ∀ pos ∈ extra.parenStart, setting.source.Seam pos)
    (places : PlacesAs setting { hand with given := kept ++ [other] } action load)
    (given : hand.given.Perm (kept ++ [node]) := by simp) :
    PlacesAs setting hand action load := by
  have inside : node ∈ hand.given := given.mem_iff.mpr (by simp)
  refine .held fun known => .exchange kept hand.loose [node] [] [other] [] ?_ given (by simp) ?_
    ?_ ?_ ?_ nofun
  · simpa only [List.append_nil] using places
  · simp [like.spans, List.Subperm.refl]
  · simp [like.tags, List.Subperm.refl]
  · exact List.forall_mem_singleton.mpr ⟨like.sits (known.sits node inside) parenthesis, node,
      List.mem_cons_self, Nat.le_of_eq like.stop⟩
  · exact List.forall_mem_singleton.mpr (like.start ▸ known.begins node inside)

/-- What is noted of how a node was written does not move it. -/
theorem PlacesAs.noteExtra {action : Parse α} {load : α → Load} (kept : List Node) (node : Node)
    (change : Extra → Extra)
    (places : PlacesAs setting { hand with given := kept ++ [node.mapExtra change] } action load)
    (same : ∀ extra, (change extra).parenStart = extra.parenStart := by exact fun _ => rfl)
    (given : hand.given.Perm (kept ++ [node]) := by simp) : PlacesAs setting hand action load :=
  .held fun known => .note kept (node.like_mapExtra change)
    ((known.sits node (given.mem_iff.mpr (by simp))).here.mapExtra same) places given

end Refinish

section Leaf

variable {first : Nat} {liberal : Bool}

/-- A node that is made of no others. -/
def leaf (node : Node) : Load := { given := [node], fact := node.parts = [] }

@[simp] theorem leaf_eq : leaf node = { given := [node], fact := node.parts = [] } := rfl

theorem PlacesAs.ofLeaf {action : Parse Node} (places : PlacesAs setting hand action leaf) :
    Places setting hand action := places.forget fun _ _ => trivial

/-- A node without parts is finished in its place. -/
theorem PlacesAs.finishLeaf (starts : mark.pos = hand.first := by rfl)
    (leaf : form.parts = [] := by rfl) (given : hand.given = [] := by rfl)
    (loose : hand.loose = [] := by rfl) (passed : hand.first ∈ hand.past := by simp) :
    PlacesAs setting hand (Grammar.finish mark form) Grammar.leaf := by
  refine (finishAs (form.ordered_of_leaf leaf) starts ?_ (.inr passed)
    (loose ▸ List.nil_subperm) (Form.tags?_of_leaf leaf ▸ nofun)).forget ?_
  · rw [leaf, given, loose]
    exact .refl _
  · exact fun node formed => (congrArg Form.parts formed.form).trans leaf

/-- An identifier carries no type where it is read. -/
theorem identifier_leaf : PlacesAs setting { first := first } (identifier liberal) leaf := by
  have tail (mark : Mark) (name : String) : PlacesAs setting { first := mark.pos } (do
      if !liberal && name == "await" && (← get).inAsync then raise mark.pos .awaitInAsync
      next
      finish mark (.identifier name none false)) leaf :=
    .held fun known => .step fun _ => .guard (fun _ => .raise known.first)
      (.pass fun _ => .finishLeaf)
  refine .onMark fun mark => .held fun known => .step fun current => .step fun name =>
    .ite (fun _ => ?_) fun _ => ?_
  · exact .step fun _ => .ite (fun _ => .raised known.first) fun _ => .value (tail mark name)
  · split
    · exact .ite (fun _ => .value (tail mark _)) fun _ => .fail
    · exact .fail

/-- A name is made in its place. -/
theorem identifier_places : Places setting { first := first } (identifier liberal) :=
  identifier_leaf.ofLeaf

/-- A literal has no parts. -/
theorem literal_leaf {rawValue : Option RawValue} (none : form.parts = []) :
    PlacesAs setting { first := first } (literal form rawValue) leaf := by
  refine .onMark fun mark => .step fun raw => .pass fun _ =>
    .bind (.finishAs (form.ordered_of_leaf none) rfl (by simp [none]) (.inr (by simp))
      List.nil_subperm (Form.tags?_of_leaf none ▸ nofun)) fun node made => ?_
  exact .noteExtra [] node (fun extra => { extra with raw := some raw, rawValue := rawValue })
    (.conclude ((congrArg Form.parts made.fact.form).trans none))

/-- A literal is made in its place. -/
theorem literal_places {rawValue : Option RawValue} (none : form.parts = []) :
    Places setting { first := first } (literal form rawValue) := (literal_leaf none).ofLeaf

/-- A number has no parts. -/
theorem numberLiteral_leaf : PlacesAs setting { first := first } numberLiteral leaf :=
  .step fun _ => literal_leaf rfl

/-- A string has no parts. -/
theorem stringLiteral_leaf : PlacesAs setting { first := first } stringLiteral leaf :=
  .step fun _ => literal_leaf rfl

/-- A node starts with the token that is the current one before it is made. -/
def Starts (action : Parse Node) : Prop :=
  ∀ setting state, Gives action setting state fun node _ => node.start = state.lexer.start

/-- A node starts at the current token if it starts at a mark that is set there. -/
theorem Starts.ofMark {next : Mark → Parse Node}
    (ends : ∀ mark : Mark, Ends (next mark) fun node => node.start = mark.pos) :
    Starts (Grammar.mark >>= next) := fun setting state =>
  Gives.bind_iff.mpr (gives_mark.mpr (ends _ setting state))

/-- A node also starts at the current token if something is looked at first. -/
theorem Starts.look {action : Parse α} [Looks action] {next : α → Parse Node}
    (starts : ∀ value, Starts (next value)) : Starts (action >>= next) := fun setting state =>
  gives_look fun value => starts value setting state

/-- A node starts at its mark. -/
theorem finish_ends : Ends (finish mark form) fun node => node.start = mark.pos :=
  fun _ _ => finish_gives.mono fun _ _ made => made.2.1

/-- A name starts at the current token. -/
theorem identifier_starts : Starts (identifier liberal) := by
  have tail (mark : Mark) (name : String) : Ends (do
      if !liberal && name == "await" && (← get).inAsync then raise mark.pos .awaitInAsync
      next
      finish mark (.identifier name none false)) fun node => node.start = mark.pos :=
    .last fun _ => .guard (.last fun _ => finish_ends)
  refine .ofMark fun mark => .last fun current => .last fun name => .ite ?_ ?_
  · exact .last fun strict => .ite (.last fun _ => .last fun name => tail mark name) (tail mark name)
  · split
    · exact .ite (.last fun _ => tail mark _) (.last fun _ => tail mark _)
    · exact .last fun _ => tail mark _

/-- A literal starts at the current token. -/
theorem literal_starts {rawValue : Option RawValue} : Starts (literal form rawValue) :=
  .ofMark fun _ => .last fun _ => .last fun _ => .bind finish_ends fun _ same => .give same

/-- The name of a property starts at the current token. -/
theorem propertyLabel_starts : Starts propertyLabel := by
  refine .look fun kind => ?_
  split
  · exact .look fun _ => literal_starts
  · exact .look fun _ => literal_starts
  · exact identifier_starts

/-- Where no token is eaten, the current one stays. -/
theorem eat_stays {kind : Kind} {state : State} : Gives (eat kind) setting state fun taken after =>
    taken = false → after.lexer.start = state.lexer.start := by
  simp only [eat, Lexer.eat, Lexer.atKind, gives_lex, bind_assoc, pure_bind, Gives.bind_iff, gives_get]
  refine gives_ite (fun _ => ?_) fun _ => gives_pure.mpr fun _ => rfl
  exact Gives.last fun _ _ => gives_pure.mpr nofun

/-- The name of a property has no parts. -/
theorem propertyLabel_leaf : PlacesAs setting { first := first } propertyLabel leaf := by
  refine .step fun kind => ?_
  split
  · exact numberLiteral_leaf
  · exact stringLiteral_leaf
  · exact identifier_leaf

end Leaf

section Circle

/-- The rules of the circle make nodes in their places, the ones after a mark from the nodes that
start there. -/
structure Rules.Placed (setting : Setting) (rules : Rules) : Prop where
  statement : ∀ {first} declaration topLevel,
    Places setting { first := first } (rules.statement declaration topLevel)
  assignment : ∀ {first} noIn inParens,
    Places setting { first := first } (rules (.assignment noIn inParens) : Parse (Cover Node))
  operators : ∀ left (mark : Mark) level noIn, Places setting { first := mark.pos, given := [left] }
    (rules (.operators left mark level noIn) : Parse Node)
  unary : ∀ {first}, Places setting { first := first } (rules .unary : Parse (Cover Node))
  atom : ∀ {first}, Places setting { first := first } (rules .atom : Parse (Cover Node))
  binding : ∀ {first}, Places setting { first := first } rules.binding
  element : ∀ mark : Mark,
    Places setting { first := mark.pos, begun := true } (rules (.element mark) : Parse Node)
  type : ∀ {first}, Places setting { first := first } rules.type
  prefixType : ∀ {first}, Places setting { first := first } (rules .prefixType : Parse Node)
  primaryType : ∀ {first}, Places setting { first := first } (rules .primaryType : Parse Node)
  declared : ∀ mark : Mark,
    Places setting { first := mark.pos } (rules (.declared mark) : Parse Node)

variable {rules : Rules} {first : Nat}

/-- An offset at which something is pending is a seam. -/
abbrev Pending (source : Source) (pending : Option Nat) : Prop := ∀ pos ∈ pending, source.Seam pos

theorem pending_none {source : Source} : Pending source none :=
  fun pos absent => absurd absent (Option.not_mem_none pos)

/-- A default that is pending is refused in its place. -/
theorem settleAs_places {α : Type} {hand : Hand} {cover : Cover α} (load : α → Load)
    (seams : ∀ pos ∈ cover.pending, setting.source.Seam pos)
    (goesOn : PlacesAs setting hand (pure cover.value) load) :
    PlacesAs setting hand cover.settle load := by
  unfold Cover.settle
  split
  · next pos same => exact .unexpectedAt (seams pos same)
  · exact goesOn

/-- An expression is settled in its place. -/
theorem settle_places {α : Type} [Bears α] {hand : Hand} {cover : Cover α}
    (seams : ∀ pos ∈ cover.pending, setting.source.Seam pos)
    (goesOn : Places setting hand (pure cover.value)) : Places setting hand cover.settle :=
  settleAs_places _ seams goesOn

/-- The first of two offsets at which something is pending is a seam. -/
theorem seams_orElse {source : Source} {former latter : Option Nat}
    (begins : ∀ pos ∈ former, source.Seam pos) (goesOn : ∀ pos ∈ latter, source.Seam pos) :
    ∀ pos ∈ (former <|> latter), source.Seam pos := by
  cases former with
  | none => exact goesOn
  | some pos => exact begins

variable (placed : rules.Placed setting)

include placed

/-- An expression without commas is made in its place. -/
theorem assignment_places {noIn : Bool} : Places setting { first := first } (rules.assignment noIn) :=
  .bind (placed.assignment noIn false) fun _ made => settle_places made.fact.2 .pure

/-- An operand is made in its place. -/
theorem operand_places : Places setting { first := first } rules.operand :=
  .bind placed.unary fun _ made => settle_places made.fact.2 .pure

/-- An expression that no operator takes apart is made in its place. -/
theorem atom_places : Places setting { first := first } rules.atom :=
  .bind placed.atom fun _ made => settle_places made.fact.2 .pure

end Circle

end Grammar

end EcmaSyntax
