import EcmaSyntax.Proofs.Place.Basic

namespace EcmaSyntax

namespace Grammar

variable {α β : Type}

/-- If a step fails, its problem lies in its place, and nothing has been lost. -/
def Strays (action : Parse α) (setting : Setting) (state : State) : Prop :=
  ∀ failure last, action setting state = .error failure last →
    failure.Placed setting.source ∧ state.Grown last

/-- A step that begins with some nodes in the hand ends with those that its value consists of, and
these lie in their places. -/
structure PlacesAs (setting : Setting) (hand : Hand) (action : Parse α) (load : α → Load) : Prop where
  gives : ∀ frame state, hand.In setting frame state →
    Gives action setting state fun value after => (load value).fact ∧
      hand.Leads setting frame state ((load value).hand hand.first) after
  fails : ∀ frame state, hand.In setting frame state → Strays action setting state

/-- The same is so where nothing has been passed since the latest mark. -/
structure PlacesHere (setting : Setting) (hand : Hand) (action : Parse α) (load : α → Load) :
    Prop where
  gives : ∀ frame state, hand.In setting frame state → state.lexer.start = hand.latest →
    Gives action setting state fun value after => (load value).fact ∧
      hand.Leads setting frame state ((load value).hand hand.first) after
  fails : ∀ frame state, hand.In setting frame state → state.lexer.start = hand.latest →
    Strays action setting state

/-- What is placed anywhere is placed here. -/
theorem PlacesHere.always {setting : Setting} {hand : Hand} {action : Parse α} {load : α → Load}
    (places : PlacesAs setting hand action load) : PlacesHere setting hand action load :=
  ⟨fun frame state holds _ => places.gives frame state holds,
    fun frame state holds _ => places.fails frame state holds⟩

/-- The value consists of the nodes that are seen in it. -/
abbrev Places [Bears α] (setting : Setting) (hand : Hand) (action : Parse α) : Prop :=
  PlacesAs setting hand action (Bears.load setting.source)

/-- What is known of the nodes that have just been read. -/
structure JustRead (source : Source) (hand : Hand) (load : Load) : Prop where
  fact : load.fact
  sits : ∀ node ∈ load.given, node.Sits source
  ahead : ∀ node ∈ load.given, hand.latest ≤ node.start
  after : ∀ node ∈ load.given, ∀ other ∈ hand.given, other.stop ≤ node.start
  apart : ∀ node ∈ load.given, ∀ other ∈ hand.loose, other.stop ≤ node.start
  passed : ∀ node ∈ load.given, ∀ pos ∈ hand.past, pos ≤ node.start
  closed : ∀ node ∈ load.given, ∀ pair ∈ tags hand.given, pair.stop ≤ node.start
  sprouts : ∀ pair ∈ tags load.given, pair.stop ≤ hand.first ∨
    (hand.first ≤ pair.start ∧ ∀ other ∈ hand.given, other.stop ≤ pair.start)

/-- What has just been read comes after the nodes in the hand. -/
theorem JustRead.extend {source : Source} {hand : Hand} {load : Load}
    (known : JustRead source hand load) (row : InRow hand.given) (here : InRow load.given) :
    InRow (hand.given ++ load.given) :=
  List.pairwise_append.mpr ⟨row, here, fun former early latter late =>
    known.after latter late former early⟩

/-- What is known of the nodes that a step has made of others. -/
structure Made (source : Source) (first : Nat) (load : Load) : Prop where
  fact : load.fact
  sits : ∀ node ∈ load.given, node.Sits source
  begins : ∀ node ∈ load.given, first ≤ node.start

/-- What is known of the nodes in the hand. -/
structure Hand.Known (source : Source) (hand : Hand) : Prop where
  first : source.Seam hand.first
  latest : source.Seam hand.latest
  sits : ∀ node ∈ hand.given, node.Sits source
  begins : ∀ node ∈ hand.given, hand.first ≤ node.start
  loose : ∀ node ∈ hand.loose, node.Sits source ∧ node.isDecorator = true

/-- A node may be made that starts at such an offset. -/
structure Hand.Offers (setting : Setting) (hand : Hand) (pos : Nat) : Prop where
  offers : ∀ {frame state}, hand.In setting frame state →
    hand.first ≤ pos ∧ setting.source.Seam pos ∧ pos ≤ state.lexer.start

section Strays

variable {action : Parse α} {next : α → Parse β} {setting : Setting} {state : State}

theorem Strays.bind (begins : Strays action setting state)
    (goesOn : Gives action setting state fun value after =>
      state.Grown after ∧ Strays (next value) setting after) :
    Strays (action >>= next) setting state := by
  intro failure last failed
  change EStateM.bind (action setting) (fun value => next value setting) state = _ at failed
  unfold EStateM.bind at failed
  cases ends : action setting state with
  | ok value middle =>
      rw [ends] at failed
      obtain ⟨grown, strays⟩ := goesOn value middle ends
      obtain ⟨placed, further⟩ := strays failure last failed
      exact ⟨placed, grown.trans further⟩
  | error other middle =>
      rw [ends] at failed
      cases failed
      exact begins _ _ ends

/-- A step that succeeds raises no problem. -/
theorem Strays.never (succeeds : ∃ value after, action setting state = .ok value after) :
    Strays action setting state := by
  obtain ⟨value, after, same⟩ := succeeds
  intro _ _ failed
  rw [same] at failed
  cases failed

/-- A step that only reads raises its problems at seams. -/
theorem Strays.reads [reads : Reads action] (sited : state.lexer.Sited setting.toSetting) :
    Strays action setting state := by
  intro failure last failed
  have grown : state.Grown (lastState (action setting state)) := reads.grown
  rw [failed] at grown
  exact ⟨reads.fails setting state sited failure last failed, grown⟩

end Strays

namespace PlacesAs

variable {setting : Setting} {hand other : Hand} {action begins goesOn : Parse α}
  {next : α → Parse β} {load weaker : α → Load} {final : β → Load} {source : Source}
  {kept part set apart : List Node} {passed : List Nat} {first : Nat} {mark : Mark}

/-- What a step begins with may be more than what it is known for. -/
theorem adapt (places : PlacesAs setting hand action load) (below : other.first ≤ hand.first)
    (implies : ∀ {frame state}, other.In setting frame state → hand.In setting frame state)
    (among : tags (hand.given ++ hand.loose) ⊆ tags (other.given ++ other.loose))
    (begun : hand.begun = true → other.begun = true := by exact fun begun => begun) :
    PlacesAs setting other action load where
  gives frame state holds := (places.gives frame state (implies holds)).mono fun value after met => by
    refine ⟨met.1, .trans holds ⟨implies holds, .refl _, fun pair inside => .inl ?_⟩ met.2 below
      (holds.since_le_since (.refl _) below begun)⟩
    rw [Hand.all, tags_append, List.mem_append] at inside ⊢
    exact inside.imp_left fun member => among member
  fails frame state holds := places.fails frame state (implies holds)

/-- What is known of the nodes in the hand may be used. -/
theorem held (places : hand.Known setting.source → PlacesAs setting hand action load) :
    PlacesAs setting hand action load := by
  have known {frame state} (holds : hand.In setting frame state) : hand.Known setting.source :=
    ⟨holds.first, holds.latest,
      fun node inside => (holds.sits node (List.mem_append_left _ inside)).1, holds.begins,
      fun node inside =>
        ⟨(holds.sits node (List.mem_append_right _ inside)).1, holds.loose node inside⟩⟩
  exact ⟨fun frame state holds => (places (known holds)).gives frame state holds,
    fun frame state holds => (places (known holds)).fails frame state holds⟩

/-- Less may be known of the value. -/
theorem forget (places : PlacesAs setting hand action load)
    (fact : ∀ value, (load value).fact → (weaker value).fact)
    (given : ∀ value, (weaker value).given = (load value).given := by exact fun _ => rfl)
    (loose : ∀ value, (weaker value).loose = (load value).loose := by exact fun _ => rfl)
    (past : ∀ value, (weaker value).past ⊆ (load value).past := by
      exact fun _ => List.Subset.refl _) : PlacesAs setting hand action weaker where
  gives frame state holds := (places.gives frame state holds).mono fun value after met => by
    obtain ⟨known, made, onward, sprouts⟩ := met
    refine ⟨fact value known, ⟨?_, ?_, ?_, ?_, made.first, made.latest, made.reached, made.waiting,
      fun pos inside => made.past pos (past value inside), ?_⟩, onward, ?_⟩
    all_goals simp only [Hand.all, Load.hand_given, Load.hand_loose, given, loose]
    · exact made.keeps
    · exact made.sits
    · exact made.begins
    · exact made.loose
    · exact made.nested
    · exact sprouts
  fails := places.fails

/-- Two steps follow each other, the first of which begins in a state. -/
theorem follow {frame : List Finished} {state : State} (holds : hand.In setting frame state)
    (middle : α → Hand) (known : α → Prop)
    (gives : Gives action setting state fun value after =>
      known value ∧ hand.Leads setting frame state (middle value) after)
    (fails : Strays action setting state)
    (goesOn : ∀ value, known value →
      hand.first ≤ (middle value).first ∧ PlacesAs setting (middle value) (next value) final)
    (begun : ∀ value, (middle value).begun = true → hand.begun = true) :
    Gives (action >>= next) setting state (fun value after => (final value).fact ∧
      hand.Leads setting frame state ((final value).hand hand.first) after) ∧
      Strays (action >>= next) setting state := by
  constructor
  · rw [Gives.bind_iff]
    intro value after ends
    obtain ⟨fact, leads⟩ := gives value after ends
    obtain ⟨below, places⟩ := goesOn value fact
    refine (places.gives frame after leads.holds).mono fun result last met => ?_
    exact ⟨met.1, leads.trans holds met.2 below
      (holds.since_le_since leads.onward below (begun value))⟩
  · refine fails.bind fun value after ends => ?_
    obtain ⟨fact, leads⟩ := gives value after ends
    exact ⟨leads.onward.toGrown, (goesOn value fact).2.fails frame after leads.holds⟩

/-- Two steps place their nodes, one after the other. -/
theorem chain (middle : α → Hand) (known : α → Prop)
    (gives : ∀ frame state, hand.In setting frame state →
      Gives action setting state fun value after =>
        known value ∧ hand.Leads setting frame state (middle value) after)
    (fails : ∀ frame state, hand.In setting frame state → Strays action setting state)
    (goesOn : ∀ value, known value →
      hand.first ≤ (middle value).first ∧ PlacesAs setting (middle value) (next value) final)
    (begun : ∀ value, (middle value).begun = true → hand.begun = true := by
      exact fun _ begun => begun) :
    PlacesAs setting hand (action >>= next) final where
  gives frame state holds :=
    (follow holds middle known (gives frame state holds) (fails frame state holds) goesOn begun).1
  fails frame state holds :=
    (follow holds middle known (gives frame state holds) (fails frame state holds) goesOn begun).2

/-- A step that builds nothing comes first. -/
theorem step [reads : Reads action] (goesOn : ∀ value, PlacesAs setting hand (next value) final) :
    PlacesAs setting hand (action >>= next) final := by
  refine chain (fun _ => hand) (fun _ => True) (fun _ state holds value after ends => ?_)
    (fun _ _ holds => .reads holds.keeps.sited)
    fun value _ => ⟨Nat.le_refl _, goesOn value⟩
  have onward := reads.onward holds.keeps.sited value after ends
  exact ⟨trivial, holds.leads (reads.keeps holds.keeps value after ends) onward⟩

/-- A step that builds nothing comes first, which passes an offset. -/
theorem passTo [reads : Reads action] (pos : Nat)
    (passes : ∀ {frame state}, hand.In setting frame state →
      Gives action setting state fun _ after => pos ≤ after.lexer.lastStop)
    (goesOn : ∀ value,
      PlacesAs setting { hand with past := pos :: hand.past } (next value) final) :
    PlacesAs setting hand (action >>= next) final := by
  refine chain (fun _ => { hand with past := pos :: hand.past }) (fun _ => True)
    (fun _ state holds value after ends => ?_)
    (fun _ _ holds => .reads holds.keeps.sited)
    fun value _ => ⟨Nat.le_refl _, goesOn value⟩
  have leads := holds.leads (reads.keeps holds.keeps value after ends)
    (reads.onward holds.keeps.sited value after ends)
  exact ⟨trivial, { leads.holds with
    past := List.forall_mem_cons.mpr ⟨passes holds value after ends, leads.holds.past⟩ },
    leads.onward, leads.sprouts⟩

/-- A step comes first that passes a token. -/
theorem pass [passing : Passing action]
    (goesOn : ∀ value,
      PlacesAs setting { hand with past := hand.latest :: hand.past } (next value) final) :
    PlacesAs setting hand (action >>= next) final :=
  passTo hand.latest (fun holds => (passing.passes setting _ holds.keeps.sited).mono
    fun _ _ passed => Nat.le_trans holds.reached passed) goesOn

/-- A token is passed in which there is something. -/
theorem passFilled {kind : Kind} {next : PUnit → Parse β} (more : kind ≠ .eof)
    (plain : kind ≠ .template)
    (goesOn : PlacesAs setting { hand with past := (hand.latest + 1) :: hand.past } (next ⟨⟩)
      final) : PlacesAs setting hand (expect kind >>= next) final :=
  passTo (hand.latest + 1) (fun holds => (expect_passesFilled holds.keeps.sited more plain).mono
    fun _ _ passed => Nat.lt_of_le_of_lt holds.reached passed) fun _ => goesOn

/-- What is known of the code around is changed first. -/
theorem alter {change : State → State} {next : PUnit → Parse β}
    (goesOn : PlacesAs setting hand (next ⟨⟩) final)
    (notes : ∀ state : State, state.Notes (change state) := by
      exact fun _ => ⟨⟨_, _, rfl⟩, rfl, rfl⟩)
    (ids : ∀ state, (change state).identities = state.identities := by exact fun _ => rfl)
    (decorators : ∀ state, (change state).decorators = state.decorators := by exact fun _ => rfl) :
    PlacesAs setting hand (modify change >>= next) final :=
  have := Reads.modify notes ids decorators
  step fun _ => goesOn

/-- What is known of the code around is changed last. -/
theorem altered {change : State → State} (places : PlacesAs setting hand action load)
    (notes : ∀ state : State, state.Notes (change state) := by
      exact fun _ => ⟨⟨_, _, rfl⟩, rfl, rfl⟩)
    (ids : ∀ state, (change state).identities = state.identities := by exact fun _ => rfl)
    (decorators : ∀ state, (change state).decorators = state.decorators := by exact fun _ => rfl) :
    PlacesAs setting hand (do
      let value ← action
      modify change
      return value) load where
  gives frame state holds := by
    have reads := Reads.modify notes ids decorators
    rw [Gives.bind_iff]
    refine (places.gives frame state holds).mono fun value after met => ?_
    obtain ⟨known, leads⟩ := met
    simp only [Gives.bind_iff]
    intro _ last ends
    have made := leads.holds
    have further := reads.onward made.keeps.sited _ last ends
    exact gives_pure.mpr ⟨known, made.later (reads.keeps made.keeps _ last ends) further,
      leads.onward.trans further,
      fun pair inside => leads.sprouts pair ((tags_subperm (Hand.all_subperm further)).subset inside)⟩
  fails frame state holds := (places.fails frame state holds).bind fun value after ends =>
    ⟨(places.gives frame state holds value after ends).2.onward.toGrown, .never ⟨_, _, rfl⟩⟩

/-- What is in the hand is the value. -/
theorem pure {value : α} (given : (load value).given.Perm hand.given := by
      first | (simp; done) | (classical simp [List.perm_iff_count, List.count_cons] <;> omega))
    (loose : (load value).loose.Perm hand.loose := by simp)
    (past : (load value).past ⊆ hand.past := by simp)
    (fact : (load value).fact := by simp) : PlacesAs setting hand (Pure.pure value) load where
  gives frame state holds := gives_pure.mpr <| by
    have whole : hand.given.Perm ([] ++ (load value).given) := given.symm
    have apart : hand.loose.Perm ([] ++ (load value).loose) := loose.symm
    have lent := holds.lendFirst whole apart past
    rw [List.append_nil, spans_nil, List.append_nil] at lent
    refine ⟨fact, lent, .refl _, fun pair inside => .inl ?_⟩
    exact (tags_perm ((given.append loose).append_right _)).subset inside
  fails _ _ _ := .never ⟨_, _, rfl⟩

/-- What is in the hand is the value, of which something is known. -/
theorem conclude {value : α} (fact : (load value).fact)
    (given : (load value).given.Perm hand.given := by
      first | (simp; done) | (classical simp [List.perm_iff_count, List.count_cons] <;> omega))
    (loose : (load value).loose.Perm hand.loose := by simp)
    (past : (load value).past ⊆ hand.past := by simp) :
    PlacesAs setting hand (Pure.pure value) load := .pure given loose past fact

/-- A value is seen in another way. -/
theorem map {change : α → β}
    (places : PlacesAs setting hand action fun value => final (change value)) :
    PlacesAs setting hand (change <$> action) final := by
  rw [← bind_pure_comp]
  exact {
    gives := fun frame state holds => Gives.bind_iff.mpr <|
      (places.gives frame state holds).mono fun _ _ made => gives_pure.mpr made
    fails := fun frame state holds => (places.fails frame state holds).bind fun value after ends =>
      ⟨(places.gives frame state holds value after ends).2.onward.toGrown, .never ⟨_, _, rfl⟩⟩ }

/-- A value that is known goes on as it is. -/
theorem value {value : α} (goesOn : PlacesAs setting hand (next value) final) :
    PlacesAs setting hand (Pure.pure value >>= next) final := by
  rwa [pure_bind]

/-- Nothing in the hand has to do with the first step. -/
theorem read (begins : ∀ {first}, PlacesAs setting { first := first } action load)
    (goesOn : ∀ value, JustRead setting.source hand (load value) →
      PlacesAs setting (hand.add (load value)) (next value) final) :
    PlacesAs setting hand (action >>= next) final := by
  have given : hand.given.Perm (hand.given ++ []) := List.append_nil _ ▸ .refl _
  have loose : hand.loose.Perm (hand.loose ++ []) := List.append_nil _ ▸ .refl _
  refine chain (fun value => hand.add (load value))
    (fun value => JustRead setting.source hand (load value))
    (fun _ state holds value after ends => ?_)
    (fun _ state holds => begins.fails _ state holds.lendNothing)
    fun value known => ⟨Nat.le_refl _, goesOn value known⟩
  obtain ⟨known, leads⟩ := begins.gives _ state holds.lendNothing value after ends
  have made := leads.holds
  have below := Nat.le_trans hand.ordered holds.reached
  have reached := holds.keeps.sited.sound.ordered
  refine ⟨⟨known, fun node inside => (made.sits node (List.mem_append_left _ inside)).1,
    fun node inside => Nat.le_trans holds.reached (made.begins node inside),
    fun node inside older member => ?_, fun node inside older member => ?_,
    fun node inside pos member => ?_, fun node inside pair member => ?_, fun pair inside => ?_⟩,
    holds.regain given loose below holds.lendNothing leads⟩
  · exact Nat.le_trans (holds.sits older (List.mem_append_left _ member)).2.stop
      (Nat.le_trans reached (made.begins node inside))
  · exact Nat.le_trans (holds.sits older (List.mem_append_right _ member)).2.stop
      (Nat.le_trans reached (made.begins node inside))
  · exact Nat.le_trans (holds.past pos member) (Nat.le_trans reached (made.begins node inside))
  · obtain ⟨older, held, among⟩ := mem_tags.mp member
    exact Nat.le_trans ((holds.sits older (List.mem_append_left _ held)).2.tags pair among)
      (Nat.le_trans reached (made.begins node inside))
  · have later : pair ∈ tags (((load value).hand state.lexer.start).all after) := by
      rw [Hand.all, tags_append, tags_append]
      exact List.mem_append_left _ (List.mem_append_left _ inside)
    rcases leads.sprouts pair later with old | new
    · obtain ⟨node, waits, among⟩ := mem_tags.mp old
      exact .inl ((holds.waiting node waits).tags pair among)
    · exact .inr ⟨Nat.le_trans below new, fun older member =>
        Nat.le_trans (holds.sits older (List.mem_append_left _ member)).2.stop
          (Nat.le_trans reached new)⟩

/-- Some of the nodes in the hand are lent to the first step. -/
theorem call (kept : List Node)
    (begins : PlacesAs setting { first := hand.first, given := part, past := passed } action load)
    (goesOn : ∀ value, Made setting.source hand.first (load value) →
      PlacesAs setting (Hand.add { hand with given := kept } (load value)) (next value) final)
    (given : hand.given.Perm (kept ++ part) := by
      first | (simp; done) | (classical simp [List.perm_iff_count, List.count_cons] <;> omega))
    (past : passed ⊆ hand.past := by simp) :
    PlacesAs setting hand (action >>= next) final := by
  have loose : hand.loose.Perm (hand.loose ++ []) := List.append_nil _ ▸ .refl _
  refine chain (fun value => Hand.add { hand with given := kept } (load value))
    (fun value => Made setting.source hand.first (load value))
    (fun _ state holds value after ends => ?_)
    (fun _ state holds => begins.fails _ state (holds.lendFirst given loose past))
    fun value known => ⟨Nat.le_refl _, goesOn value known⟩
  obtain ⟨known, leads⟩ :=
    begins.gives _ state (holds.lendFirst given loose past) value after ends
  have made := leads.holds
  exact ⟨⟨known, fun node inside => (made.sits node (List.mem_append_left _ inside)).1,
    made.begins⟩, holds.regain given loose (Nat.le_refl _) (holds.lendFirst given loose past) leads⟩

/-- The last step takes all that is in the hand. -/
theorem last
    (places : PlacesAs setting { first := hand.first, given := part, loose := apart, past := passed }
      action load)
    (given : hand.given.Perm part := by
      first | (simp; done) | (classical simp [List.perm_iff_count, List.count_cons] <;> omega))
    (loose : hand.loose.Perm apart := by simp)
    (past : passed ⊆ hand.past := by simp) : PlacesAs setting hand action load := by
  have whole : hand.given.Perm ([] ++ part) := given
  have aside : hand.loose.Perm ([] ++ apart) := loose
  refine places.adapt (Nat.le_refl _) (fun holds => ?_)
    (tags_perm (given.append loose).symm).subset nofun
  have lent := holds.lendFirst whole aside past
  rwa [List.append_nil, spans_nil, List.append_nil] at lent

/-- What is in the hand may lie in another order. -/
theorem arrange
    (places : PlacesAs setting { hand with given := part, loose := apart, past := passed } action load)
    (given : hand.given.Perm part := by
      first | (simp; done) | (classical simp [List.perm_iff_count, List.count_cons] <;> omega))
    (loose : hand.loose.Perm apart := by simp)
    (past : passed ⊆ hand.past := by simp) : PlacesAs setting hand action load := by
  have same : (hand.given ++ hand.loose).Perm (part ++ apart) := given.append loose
  exact places.adapt (Nat.le_refl _) (fun {frame state} holds => { holds with
    keeps := holds.keeps.perm ((spans_perm same.symm).append_left frame)
    sits := fun node inside => holds.sits node (same.mem_iff.mpr inside)
    begins := fun node inside => holds.begins node (given.mem_iff.mpr inside)
    loose := fun node inside => holds.loose node (loose.mem_iff.mpr inside)
    past := fun pos inside => holds.past pos (past inside)
    nested := holds.nested.part (tags_perm (same.symm.append_right _)).subperm })
    (tags_perm same.symm).subset

/-- The first step takes all that is in the hand as it is. -/
theorem bind (begins : PlacesAs setting hand action load)
    (goesOn : ∀ value, Made setting.source hand.first (load value) →
      PlacesAs setting (hand.turn (load value)) (next value) final) :
    PlacesAs setting hand (action >>= next) final := by
  refine chain (fun value => hand.turn (load value))
    (fun value => Made setting.source hand.first (load value))
    (fun frame state holds value after ends => ?_) begins.fails
    fun value known => ⟨Nat.le_refl _, goesOn value known⟩
  obtain ⟨known, leads⟩ := begins.gives frame state holds value after ends
  have made := leads.holds
  exact ⟨⟨known, fun node inside => (made.sits node (List.mem_append_left _ inside)).1,
    made.begins⟩, holds.turn leads⟩

/-- The first step takes all that is in the hand. -/
theorem take
    (begins : PlacesAs setting { first := hand.first, given := part, loose := apart, past := passed }
      action load)
    (goesOn : ∀ value, Made setting.source hand.first (load value) →
      PlacesAs setting (hand.turn (load value)) (next value) final)
    (given : hand.given.Perm part := by
      first | (simp; done) | (classical simp [List.perm_iff_count, List.count_cons] <;> omega))
    (loose : hand.loose.Perm apart := by simp)
    (past : passed ⊆ hand.past := by simp) : PlacesAs setting hand (action >>= next) final :=
  .bind (.last begins given loose past) goesOn

section Choice

variable {condition : Prop} [Decidable condition] {test : Parse PUnit} {rest : PUnit → Parse β}

theorem ite (holds : condition → PlacesAs setting hand begins load)
    (fails : ¬condition → PlacesAs setting hand goesOn load) :
    PlacesAs setting hand (if condition then begins else goesOn) load := by
  split
  · exact holds ‹_›
  · exact fails ‹_›

/-- A choice between two steps after which the parse goes on alike. -/
theorem choose (holds : condition → ∀ {first}, PlacesAs setting { first := first } begins load)
    (fails : ¬condition → ∀ {first}, PlacesAs setting { first := first } goesOn load)
    (goesThen : ∀ value, JustRead setting.source hand (load value) →
      PlacesAs setting (hand.add (load value)) (next value) final) :
    PlacesAs setting hand (if condition then begins >>= next else goesOn >>= next) final :=
  ite (fun known => read (holds known) goesThen) fun known => read (fails known) goesThen

/-- A check comes first that may only fail. -/
theorem check (checks : ∀ {first}, Places setting { first := first } test)
    (goesThen : ∀ value, PlacesAs setting hand (rest value) final) :
    PlacesAs setting hand (test >>= rest) final :=
  read checks fun value _ => (goesThen value).adapt (Nat.le_refl _) (fun holds => by
    simpa only [Hand.add, Bears.load_unit, List.append_nil] using holds) (by simp)

/-- What is checked under a condition comes first. -/
theorem guard (checks : condition → ∀ {first}, Places setting { first := first } test)
    (goesThen : PlacesAs setting hand (rest ⟨⟩) final) :
    PlacesAs setting hand (if condition then test >>= rest else rest ⟨⟩) final :=
  ite (fun known => .check (checks known) fun _ => goesThen) fun _ => goesThen

end Choice

section Failure

/-- A step that builds nothing, with nothing in the hand. -/
theorem reads [reads : Reads action] : PlacesAs setting { first := first } action fun _ => {} where
  gives _ _ holds value after ends :=
    have onward := reads.onward holds.keeps.sited value after ends
    ⟨trivial, holds.leads (reads.keeps holds.keeps value after ends) onward⟩
  fails _ _ holds := .reads holds.keeps.sited

/-- A step that always fails. -/
theorem never (fails : ∀ state, state.lexer.Sited setting.toSetting → Strays action setting state)
    (absent : ∀ state, Gives action setting state fun _ _ => False) :
    PlacesAs setting hand action load where
  gives _ state _ value after ends := (absent state value after ends).elim
  fails _ state holds := fails state holds.keeps.sited

theorem unexpected : PlacesAs setting hand (Grammar.unexpected : Parse α) load :=
  .never (fun _ => .reads) fun _ _ _ absent => by cases absent

theorem tooDeep : PlacesAs setting hand (Grammar.tooDeep : Parse α) load :=
  .never (fun _ => .reads) fun _ _ _ absent => by cases absent

theorem raise {pos : Nat} {problem : Problem} (seam : setting.source.Seam pos) :
    PlacesAs setting hand (Grammar.raise pos problem : Parse α) load := by
  refine .never (fun state sited failure last failed => ?_) fun _ _ _ absent => by cases absent
  cases failed
  exact ⟨⟨seam, rfl⟩, .refl _⟩

theorem unexpectedAt {pos : Nat} (seam : setting.source.Seam pos) :
    PlacesAs setting hand (Grammar.unexpectedAt pos : Parse α) load := raise seam

/-- What would follow a failure is never reached. -/
theorem stop (fails : PlacesAs setting hand action fun _ => { fact := False }) :
    PlacesAs setting hand (action >>= next) final where
  gives frame state holds := Gives.bind_iff.mpr fun value after ends =>
    (fails.gives frame state holds value after ends).1.elim
  fails frame state holds := (fails.fails frame state holds).bind fun value after ends =>
    (fails.gives frame state holds value after ends).1.elim

theorem fail : PlacesAs setting hand (Grammar.unexpected >>= next) final := .stop unexpected

theorem raised {pos : Nat} {problem : Problem} (seam : setting.source.Seam pos) :
    PlacesAs setting hand (Grammar.raise pos problem >>= next) final := .stop (raise seam)

end Failure

section Mark

/-- The state is looked at. -/
theorem onGet {next : State → Parse β}
    (goesOn : ∀ state : State, state.lexer.Sited setting.toSetting →
      PlacesAs setting hand (next state) final) : PlacesAs setting hand (get >>= next) final where
  gives frame state holds := Gives.bind_iff.mpr <| gives_get.mpr <|
    (goesOn state holds.keeps.sited).gives frame state holds
  fails frame state holds := (goesOn state holds.keeps.sited).fails frame state holds

/-- A node may start here, after all that is in the hand. -/
theorem markHere {next : Mark → Parse β}
    (goesOn : ∀ (mark : Mark) (later : hand.latest ≤ mark.pos),
      (∀ node ∈ hand.given ++ hand.loose, node.stop ≤ mark.pos) →
      PlacesHere setting { hand with latest := mark.pos, ordered := Nat.le_trans hand.ordered later }
        (next mark) final) :
    PlacesAs setting hand (Grammar.mark >>= next) final := by
  have ended {frame state} (holds : hand.In setting frame state) :
      ∀ node ∈ hand.given ++ hand.loose, node.stop ≤ state.lexer.start := fun node inside =>
    Nat.le_trans (holds.sits node inside).2.stop holds.keeps.sited.sound.ordered
  have marked {frame state} (holds : hand.In setting frame state) : Hand.In setting frame
      { hand with latest := state.lexer.start, ordered := Nat.le_trans hand.ordered holds.reached }
      state :=
    { holds with latest := holds.keeps.sited.posted.start, reached := Nat.le_refl _ }
  exact {
    gives := fun frame state holds => Gives.bind_iff.mpr <| gives_mark.mpr <|
      ((goesOn _ holds.reached (ended holds)).gives frame state (marked holds) rfl).mono
        fun _ _ met => ⟨met.1, met.2.holds, met.2.onward, met.2.sprouts⟩
    fails := fun frame state holds =>
      (goesOn _ holds.reached (ended holds)).fails frame state (marked holds) rfl }

/-- A mark lies behind all nodes in the hand. -/
theorem markLater {next : Mark → Parse β}
    (goesOn : ∀ (mark : Mark) (later : hand.latest ≤ mark.pos),
      (∀ node ∈ hand.given, node.stop ≤ mark.pos) →
      PlacesAs setting { hand with latest := mark.pos, ordered := Nat.le_trans hand.ordered later }
        (next mark) final) :
    PlacesAs setting hand (Grammar.mark >>= next) final :=
  markHere fun mark later ended =>
    .always (goesOn mark later fun node inside => ended node (List.mem_append_left _ inside))

/-- Nothing has been read yet of a node that starts here. -/
theorem markFirst {frame : List Finished} {state : State} (holds : hand.In setting frame state)
    (empty : hand.given = []) (begun : Bool) :
    hand.Leads setting frame state { hand with
      first := state.lexer.start
      latest := state.lexer.start
      begun := begun
      ordered := Nat.le_refl _ } state where
  holds := { holds with
    begins := fun node inside => by
      rw [show hand.given = [] from empty] at inside
      cases inside
    first := holds.keeps.sited.posted.start
    latest := holds.keeps.sited.posted.start
    reached := Nat.le_refl _
    waiting := fun node inside =>
      (holds.keeps.decorators node inside).2.2.mono holds.keeps.sited.sound.ordered }
  onward := .refl _
  sprouts _ inside := .inl inside

/-- A node starts here, and nothing that belongs to it has been read yet. -/
theorem onMark {next : Mark → Parse β}
    (goesOn : ∀ mark : Mark,
      PlacesAs setting { hand with first := mark.pos, latest := mark.pos, ordered := Nat.le_refl _ }
        (next mark) final)
    (empty : hand.given = [] := by rfl) : PlacesAs setting hand (Grammar.mark >>= next) final := by
  refine chain
    (fun mark => { hand with first := mark.pos, latest := mark.pos, ordered := Nat.le_refl _ })
    (fun mark => hand.first ≤ mark.pos)
    (fun _ _ holds => gives_mark.mpr ?_) (fun _ _ _ => .never ⟨_, _, rfl⟩)
    fun mark known => ⟨known, goesOn mark⟩
  exact ⟨Nat.le_trans hand.ordered holds.reached, markFirst holds empty hand.begun⟩

/-- The construct begins here, and other tokens of it may be passed before the rest is read. -/
theorem onMarkBegun {next : Mark → Parse β}
    (goesOn : ∀ mark : Mark, PlacesAs setting { hand with
      first := mark.pos
      latest := mark.pos
      begun := true
      ordered := Nat.le_refl _ } (next mark) final)
    (empty : hand.given = [] := by rfl) : PlacesAs setting hand (Grammar.mark >>= next) final where
  gives frame state holds := Gives.bind_iff.mpr <| gives_mark.mpr <| by
    have begins := markFirst holds empty true
    refine ((goesOn _).gives frame state begins.holds).mono fun _ _ met => ⟨met.1, ?_⟩
    exact begins.trans holds met.2 (Nat.le_trans hand.ordered holds.reached) holds.since_le
  fails frame state holds := (goesOn _).fails frame state (markFirst holds empty true).holds

/-- A node in the hand has been passed, and so have the offsets before its end. -/
theorem remember {node : Node} {pos : Nat} (inside : node ∈ hand.given) (before : pos ≤ node.stop)
    (places : PlacesAs setting { hand with past := pos :: hand.past } action load) :
    PlacesAs setting hand action load :=
  places.adapt (Nat.le_refl _) (fun holds => { holds with
    past := List.forall_mem_cons.mpr
      ⟨Nat.le_trans before (holds.sits node (List.mem_append_left _ inside)).2.stop, holds.past⟩ })
    (List.Subset.refl _)

/-- If there is a node in the hand, the first offset has been passed. -/
theorem begun {node : Node} (inside : node ∈ hand.given)
    (places : PlacesAs setting { hand with past := hand.first :: hand.past } action load) :
    PlacesAs setting hand action load :=
  .held fun known => remember inside
    (Nat.le_trans (known.begins node inside) (known.sits node inside).here.ordered) places

/-- Some of the nodes and decorators in the hand are lent to the first step, which keeps them after
an offset. -/
theorem lendAt (kept set : List Node) (offers : hand.Offers setting first)
    (begins : PlacesAs setting { first := first, given := part, loose := apart, past := passed }
      action load)
    (goesOn : ∀ value, Made setting.source first (load value) →
      PlacesAs setting (Hand.add { hand with given := kept, loose := set } (load value)) (next value)
        final)
    (starts : ∀ node ∈ part, first ≤ node.start := by simp)
    (given : hand.given.Perm (kept ++ part) := by
      first | (simp; done) | (classical simp [List.perm_iff_count, List.count_cons] <;> omega))
    (loose : hand.loose.Perm (set ++ apart) := by simp)
    (past : passed ⊆ hand.past := by simp) :
    PlacesAs setting hand (action >>= next) final := by
  have lend {frame state} (holds : hand.In setting frame state) :=
    have ⟨below, seam, reached⟩ := offers.offers holds
    holds.lend given loose past seam below reached starts
  refine chain (fun value => Hand.add { hand with given := kept, loose := set } (load value))
    (fun value => Made setting.source first (load value))
    (fun _ state holds value after ends => ?_)
    (fun _ state holds => begins.fails _ state (lend holds))
    fun value known => ⟨Nat.le_refl _, goesOn value known⟩
  obtain ⟨known, leads⟩ := begins.gives _ state (lend holds) value after ends
  have made := leads.holds
  exact ⟨⟨known, fun node inside => (made.sits node (List.mem_append_left _ inside)).1,
    made.begins⟩, holds.regain given loose (offers.offers holds).1 (lend holds) leads⟩

/-- Some of the nodes in the hand are lent to the first step, which keeps them after an offset. -/
theorem callAt (kept : List Node) (offers : hand.Offers setting first)
    (begins : PlacesAs setting { first := first, given := part, past := passed } action load)
    (goesOn : ∀ value, Made setting.source first (load value) →
      PlacesAs setting (Hand.add { hand with given := kept } (load value)) (next value) final)
    (starts : ∀ node ∈ part, first ≤ node.start := by simp)
    (given : hand.given.Perm (kept ++ part) := by
      first | (simp; done) | (classical simp [List.perm_iff_count, List.count_cons] <;> omega))
    (past : passed ⊆ hand.past := by simp) :
    PlacesAs setting hand (action >>= next) final :=
  lendAt kept hand.loose offers begins goesOn starts given (List.append_nil _ ▸ .refl _) past

/-- Nothing in the hand is lent to the first step, which keeps what it makes after an offset. -/
theorem readAt (offers : hand.Offers setting first)
    (begins : PlacesAs setting { first := first, past := passed } action load)
    (goesOn : ∀ value, Made setting.source first (load value) →
      PlacesAs setting (hand.add (load value)) (next value) final)
    (past : passed ⊆ hand.past := by simp) : PlacesAs setting hand (action >>= next) final :=
  callAt hand.given offers begins goesOn nofun (List.append_nil _ ▸ .refl _) past

/-- The last step keeps all that is in the hand after an offset. -/
theorem lastAt (offers : hand.Offers setting first)
    (places : PlacesAs setting { first := first, given := part, loose := apart, past := passed }
      action load)
    (below : hand.first ≤ first)
    (starts : ∀ node ∈ part, first ≤ node.start := by simp)
    (given : hand.given.Perm part := by
      first | (simp; done) | (classical simp [List.perm_iff_count, List.count_cons] <;> omega))
    (loose : hand.loose.Perm apart := by simp)
    (past : passed ⊆ hand.past := by simp) : PlacesAs setting hand action load := by
  have whole : hand.given.Perm ([] ++ part) := given
  have aside : hand.loose.Perm ([] ++ apart) := loose
  refine places.adapt below (fun holds => ?_) (tags_perm (given.append loose).symm).subset nofun
  have lent := holds.lend whole aside past (offers.offers holds).2.1 below (offers.offers holds).2.2
    starts
  rwa [List.append_nil, spans_nil, List.append_nil] at lent

end Mark

section Exchange

/-- Nodes in the hand are exchanged for others that have been made of them. -/
theorem exchange (kept set part apart others loosened : List Node)
    (places : PlacesAs setting { hand with given := kept ++ others, loose := set ++ loosened }
      action load)
    (given : hand.given.Perm (kept ++ part)) (loose : hand.loose.Perm (set ++ apart))
    (among : (spans (others ++ loosened)).Subperm (spans (part ++ apart)))
    (tagged : (tags (others ++ loosened)).Subperm (tags (part ++ apart)))
    (sits : ∀ node ∈ others ++ loosened,
      node.Sits setting.source ∧ ∃ former ∈ part ++ apart, node.stop ≤ former.stop)
    (begins : ∀ node ∈ others, hand.first ≤ node.start)
    (decorators : ∀ node ∈ loosened, node.isDecorator = true) :
    PlacesAs setting hand action load := by
  have former := Hand.taken_perm given loose
  have latter : (kept ++ set ++ (others ++ loosened)).Perm (kept ++ others ++ (set ++ loosened)) :=
    Hand.taken_perm (.refl _) (.refl _)
  have whole : (tags (kept ++ others ++ (set ++ loosened))).Subperm
      (tags (hand.given ++ hand.loose)) := by
    refine (tags_perm latter.symm).subperm.trans (.trans ?_ (tags_perm former).subperm)
    have stays := (List.Subperm.refl (tags (kept ++ set))).append tagged
    rwa [← tags_append, ← tags_append] at stays
  refine places.adapt (Nat.le_refl _) (fun {frame state} holds => ?_) whole.subset
  have before {node : Node} (inside : node ∈ part ++ apart) :
      node.Sits setting.source ∧ node.Ends state.lexer.lastStop :=
    holds.sits node (former.subset (List.mem_append_right _ inside))
  have stays {node : Node} (inside : node ∈ kept ++ set) :
      node.Sits setting.source ∧ node.Ends state.lexer.lastStop :=
    holds.sits node (former.subset (List.mem_append_left _ inside))
  have news {node : Node} (inside : node ∈ others ++ loosened) :
      node.Sits setting.source ∧ node.Ends state.lexer.lastStop := by
    obtain ⟨lies, older, member, ends⟩ := sits node inside
    refine ⟨lies, Nat.le_trans ends (before member).2.stop, fun pair below => ?_⟩
    obtain ⟨older, member, old⟩ := mem_tags.mp (tagged.subset (mem_tags.mpr ⟨node, inside, below⟩))
    exact (before member).2.tags pair old
  refine { holds with keeps := ?_, sits := ?_, begins := ?_, loose := ?_, nested := ?_ }
  · refine holds.keeps.part (List.Subperm.append (.refl _) ?_)
    refine (spans_perm latter.symm).subperm.trans (.trans ?_ (spans_perm former).subperm)
    have kept := (List.Subperm.refl (spans (kept ++ set))).append among
    rwa [← spans_append, ← spans_append] at kept
  · intro node inside
    rcases List.mem_append.mp (latter.mem_iff.mpr inside) with inside | inside
    · exact stays inside
    · exact news inside
  · intro node inside
    exact (List.mem_append.mp inside).elim
      (fun inside => holds.begins node (given.mem_iff.mpr (List.mem_append_left _ inside)))
      (begins node)
  · intro node inside
    exact (List.mem_append.mp inside).elim
      (fun inside => holds.loose node (loose.mem_iff.mpr (List.mem_append_left _ inside)))
      (decorators node)
  · exact holds.nested.part (tags_subperm_append whole)

/-- Nodes that are not needed any more are dropped. -/
theorem drop (kept part : List Node)
    (places : PlacesAs setting { hand with given := kept } action load)
    (given : hand.given.Perm (kept ++ part) := by
      first | (simp; done) | (classical simp [List.perm_iff_count, List.count_cons] <;> omega)) :
    PlacesAs setting hand action load := by
  refine exchange kept hand.loose part [] [] [] ?_ given (by simp) (by simp) (by simp) nofun nofun nofun
  simpa only [List.append_nil] using places

/-- Decorators that no node takes are dropped. -/
theorem dropLoose (places : PlacesAs setting { hand with loose := [] } action load) :
    PlacesAs setting hand action load := by
  refine exchange hand.given [] [] hand.loose [] [] ?_ (by simp) (by simp)
    (by simp) (by simp) nofun nofun nofun
  simpa only [List.append_nil] using places

/-- A decorator is kept for the node that it belongs to, which may start after it. -/
theorem setAside (kept : List Node) {node : Node} (decorator : node.isDecorator = true)
    (places : PlacesAs setting { hand with given := kept, loose := hand.loose ++ [node] } action load)
    (given : hand.given.Perm (kept ++ [node]) := by simp) :
    PlacesAs setting hand action load := by
  refine .held fun known => exchange kept hand.loose [node] [] [] [node] ?_ given (by simp)
    (.refl _) (.refl _) ?_ nofun (List.forall_mem_singleton.mpr decorator)
  · simpa only [List.append_nil] using places
  · exact List.forall_mem_singleton.mpr
      ⟨known.sits node (given.mem_iff.mpr (by simp)), node, by simp, Nat.le_refl _⟩

end Exchange

section Loop

/-- Each turn of a loop begins with what the one before it has gathered. -/
theorem loopAs (held : α → Load) {start : α} {turn : α → Parse (Turn α β)}
    (turns : ∀ gathered, (held gathered).fact →
      PlacesAs setting ((held gathered).hand hand.first) (turn gathered) (Turn.load held final))
    (fact : (held start).fact := by simp)
    (given : hand.given.Perm (held start).given := by
      first | (simp; done) | (classical simp [List.perm_iff_count, List.count_cons] <;> omega))
    (loose : hand.loose.Perm (held start).loose := by simp)
    (past : (held start).past ⊆ hand.past := by simp) :
    PlacesAs setting hand (Grammar.loop start turn) final := by
  refine .step fun _ => .last (loopWithin_induction (fun gathered action => (held gathered).fact →
    PlacesAs setting ((held gathered).hand hand.first) action final) (fun _ _ => .tooDeep)
    (fun gathered rest goesOn known => ?_) _ start fact) given loose past
  refine chain (fun turned => (turned.load held final).hand hand.first)
    (fun turned => (turned.load held final).fact)
    (fun frame state holds => (turns gathered known).gives frame state holds)
    (fun frame state holds => (turns gathered known).fails frame state holds) ?_
  rintro (next | result) fact
  · exact ⟨Nat.le_refl _, goesOn next fact⟩
  · exact ⟨Nat.le_refl _, .pure (.refl _) (.refl _) (List.Subset.refl _) fact⟩

/-- A loop comes first, which takes all that is in the hand. -/
theorem loopThen (held : α → Load) (result : β → Load) {γ : Type} {start : α}
    {turn : α → Parse (Turn α β)} {next : β → Parse γ} {final : γ → Load}
    (turns : ∀ gathered, (held gathered).fact →
      PlacesAs setting ((held gathered).hand hand.first) (turn gathered) (Turn.load held result))
    (fact : (held start).fact)
    (goesOn : ∀ value, Made setting.source hand.first (result value) →
      PlacesAs setting (hand.turn (result value)) (next value) final)
    (given : hand.given.Perm (held start).given := by
      first | (simp; done) | (classical simp [List.perm_iff_count, List.count_cons] <;> omega))
    (loose : hand.loose.Perm (held start).loose := by simp)
    (past : (held start).past ⊆ hand.past := by simp) :
    PlacesAs setting hand (Grammar.loop start turn >>= next) final :=
  .bind (.loopAs held turns fact given loose past) goesOn

/-- What is gathered consists of the nodes that are seen in it, and so does the result. -/
theorem loop [Bears α] [Bears β] {start : α} {turn : α → Parse (Turn α β)}
    (turns : ∀ gathered, (Bears.load setting.source gathered).fact →
      Places setting ((Bears.load setting.source gathered).hand hand.first) (turn gathered))
    (fact : (Bears.load setting.source start).fact := by simp)
    (given : hand.given.Perm (Bears.load setting.source start).given := by
      first | (simp; done) | (classical simp [List.perm_iff_count, List.count_cons] <;> omega))
    (loose : hand.loose.Perm (Bears.load setting.source start).loose := by simp)
    (past : (Bears.load setting.source start).past ⊆ hand.past := by simp) :
    Places setting hand (Grammar.loop start turn) :=
  loopAs _ turns fact given loose past

/-- One level deeper everything stays as it is. -/
theorem nested (places : PlacesAs setting hand action load) :
    PlacesAs setting hand (Grammar.nested action) load :=
  .alter (.step fun _ => .guard (fun _ => .reads) (.altered places))

/-- What is known of the code around is changed on the way in and set back on the way out. -/
theorem within {enter : State → State} {leave : State → State → State}
    (places : PlacesAs setting hand action load)
    (entered : ∀ state : State, state.Notes (enter state) := by
      exact fun _ => ⟨⟨_, _, rfl⟩, rfl, rfl⟩)
    (left : ∀ before state : State, state.Notes (leave before state) := by
      exact fun _ _ => ⟨⟨_, _, rfl⟩, rfl, rfl⟩)
    (ids : ∀ before state, (enter state).identities = state.identities ∧
      (leave before state).identities = state.identities := by exact fun _ _ => ⟨rfl, rfl⟩)
    (decorators : ∀ before state, (enter state).decorators = state.decorators ∧
      (leave before state).decorators = state.decorators := by exact fun _ _ => ⟨rfl, rfl⟩) :
    PlacesAs setting hand (Grammar.within enter leave action) load :=
  .step fun before => .alter
    (.altered places (left before) (fun state => (ids before state).2)
      fun state => (decorators before state).2)
    entered (fun state => (ids state state).1) fun state => (decorators state state).1

end Loop

end PlacesAs

namespace PlacesHere

variable {setting : Setting} {hand : Hand} {action begins goesOn : Parse α} {next : α → Parse β}
  {load : α → Load} {final : β → Load} {part apart : List Node} {passed : List Nat}

theorem ite {condition : Prop} [Decidable condition]
    (holds : condition → PlacesHere setting hand begins load)
    (fails : ¬condition → PlacesHere setting hand goesOn load) :
    PlacesHere setting hand (if condition then begins else goesOn) load := by
  split
  · exact holds ‹_›
  · exact fails ‹_›

theorem value {value : α} (goesOn : PlacesHere setting hand (next value) final) :
    PlacesHere setting hand (Pure.pure value >>= next) final := by
  rwa [pure_bind]

/-- A step that only looks comes first. -/
theorem look [looking : Looks action] (goesOn : ∀ value, PlacesHere setting hand (next value) final) :
    PlacesHere setting hand (action >>= next) final where
  gives frame state holds here :=
    gives_look fun value => (goesOn value).gives frame state holds here
  fails frame state holds here := by
    obtain ⟨value, same⟩ := looking.looks setting state
    refine .bind (.never ⟨value, state, same⟩) fun other after ends => ?_
    rw [same] at ends
    cases ends
    exact ⟨.refl _, (goesOn value).fails frame state holds here⟩

/-- A step comes first that passes nothing unless it says so. -/
theorem test {test : Parse Bool} {next : Bool → Parse β} [reads : Reads test]
    (stays : ∀ state, Gives test setting state fun taken after =>
      taken = false → after.lexer.start = state.lexer.start)
    (taken : PlacesAs setting hand (next true) final)
    (goesOn : PlacesHere setting hand (next false) final) :
    PlacesHere setting hand (test >>= next) final := by
  have later {frame state value after} (holds : hand.In setting frame state)
      (ends : test setting state = .ok value after) :
      hand.Leads setting frame state hand after :=
    holds.leads (reads.keeps holds.keeps value after ends)
      (reads.onward holds.keeps.sited value after ends)
  refine ⟨fun frame state holds here => Gives.bind_iff.mpr fun value after ends => ?_,
    fun frame state holds here => .bind (.reads holds.keeps.sited) fun value after ends => ?_⟩
  all_goals have leads := later holds ends
  · have since := holds.since_le_since leads.onward (Nat.le_refl _) fun begun => begun
    cases value with
    | true => exact (taken.gives frame after leads.holds).mono fun _ _ met =>
        ⟨met.1, leads.trans holds met.2 (Nat.le_refl _) since⟩
    | false =>
        have here := (stays state false after ends rfl).trans here
        exact (goesOn.gives frame after leads.holds here).mono fun _ _ met =>
          ⟨met.1, leads.trans holds met.2 (Nat.le_refl _) since⟩
  · refine ⟨leads.onward.toGrown, ?_⟩
    cases value with
    | true => exact taken.fails frame after leads.holds
    | false =>
        exact goesOn.fails frame after leads.holds ((stays state false after ends rfl).trans here)

/-- Something is known of the value and of the offset where the step begins. -/
theorem knowing {first : Nat} (more : Nat → α → Prop)
    (places : PlacesAs setting { first := first } action load)
    (knows : ∀ state, Gives action setting state fun value _ => more state.lexer.start value) :
    PlacesHere setting { first := first } action
      fun value => (load value).knowing (more first value) where
  gives frame state holds here value after ends := by
    obtain ⟨known, leads⟩ := places.gives frame state holds value after ends
    have more := knows state value after ends
    rw [here] at more
    exact ⟨⟨known, more⟩, leads⟩
  fails frame state holds _ := places.fails frame state holds

/-- Some of what is in the hand is lent to the first step. -/
theorem lend (kept set : List Node)
    (begins : PlacesHere setting
      { first := hand.latest, given := part, loose := apart, past := passed } action load)
    (goesOn : ∀ value, Made setting.source hand.latest (load value) →
      PlacesAs setting (Hand.add { hand with given := kept, loose := set } (load value)) (next value)
        final)
    (starts : ∀ node ∈ part, hand.latest ≤ node.start := by simp)
    (given : hand.given.Perm (kept ++ part) := by simp)
    (loose : hand.loose.Perm (set ++ apart) := by simp)
    (past : passed ⊆ hand.past := by simp) :
    PlacesHere setting hand (action >>= next) final := by
  have along {frame state} (holds : hand.In setting frame state)
      (here : state.lexer.start = hand.latest) :=
    have lent := holds.lend given loose past holds.latest hand.ordered holds.reached starts
    PlacesAs.follow holds (fun value => Hand.add { hand with given := kept, loose := set } (load value))
      (fun value => Made setting.source hand.latest (load value))
      (fun value after ends =>
        have ⟨known, leads⟩ := begins.gives _ state lent here value after ends
        have made := leads.holds
        ⟨⟨known, fun node inside => (made.sits node (List.mem_append_left _ inside)).1, made.begins⟩,
          holds.regain given loose hand.ordered lent leads⟩)
      (begins.fails _ state lent here) (fun value known => ⟨Nat.le_refl _, goesOn value known⟩)
      fun _ begun => begun
  exact ⟨fun _ _ holds here => (along holds here).1, fun _ _ holds here => (along holds here).2⟩

end PlacesHere

namespace Hand.Offers

variable {setting : Setting} {hand : Hand} {node : Node}

theorem first : hand.Offers setting hand.first :=
  ⟨fun holds => ⟨Nat.le_refl _, holds.first, Nat.le_trans hand.ordered holds.reached⟩⟩

theorem latest : hand.Offers setting hand.latest :=
  ⟨fun holds => ⟨hand.ordered, holds.latest, holds.reached⟩⟩

/-- A node may be made that starts at an offset which has been passed. -/
theorem passed {pos : Nat} (inside : pos ∈ hand.past) (later : hand.first ≤ pos)
    (seam : setting.source.Seam pos) : hand.Offers setting pos := ⟨fun holds =>
  ⟨later, seam, Nat.le_trans (holds.past pos inside) holds.keeps.sited.sound.ordered⟩⟩

/-- A node may be made that starts where another one does. -/
theorem start (inside : node ∈ hand.given) : hand.Offers setting node.start := ⟨fun holds =>
  have ⟨sits, ends⟩ := holds.sits node (List.mem_append_left _ inside)
  ⟨holds.begins node inside, sits.here.start,
    Nat.le_trans sits.here.ordered (Nat.le_trans ends.stop holds.keeps.sited.sound.ordered)⟩⟩

end Hand.Offers

end Grammar

end EcmaSyntax
