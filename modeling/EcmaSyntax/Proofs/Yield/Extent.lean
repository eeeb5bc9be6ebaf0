import EcmaSyntax.Proofs.Yield.Build

namespace EcmaSyntax

/-- A node begins at an offset or after it, and ends with a token that has been passed or before
it. -/
structure Node.Between (first : Nat) (lexer : Lexer.State) (node : Node) : Prop where
  start : first ≤ node.start
  stop : node.stop ≤ lexer.lastStop

/-- A node that lies between two places lies before later ones. -/
theorem Node.Between.later {first : Nat} {lexer last : Lexer.State} {node : Node}
    (between : node.Between first lexer) (onward : lexer.lastStop ≤ last.lastStop) :
    node.Between first last :=
  ⟨between.start, Nat.le_trans between.stop onward⟩

namespace Grammar

variable {α β γ : Type} {first : Nat} {known more : List Node} {mark : Mark} {form : Form}
  {node : Node}

/-- The nodes that a step yields begin at a mark or after it and end with the step, wherever the
step begins. -/
def Sealed (mark : Mark) (action : Parse α) (nodes : α → List Node) : Prop :=
  ∀ setting state, Gives action setting state fun value after =>
    Every (Node.Between mark.pos after.lexer) (nodes value)

namespace Sealed

variable {begins goesOn : Parse α} {next : α → Parse β} {nodes middle : α → List Node}
  {final : β → List Node}

/-- What comes before the last step does not matter. -/
theorem last {action : Parse α} (goesOn : ∀ value, Sealed mark (next value) final) :
    Sealed mark (action >>= next) final :=
  fun setting _ => Gives.last fun value after => goesOn value setting after

theorem ite {condition : Prop} [Decidable condition] (holds : Sealed mark begins nodes)
    (fails : Sealed mark goesOn nodes) :
    Sealed mark (if condition then begins else goesOn) nodes :=
  fun _ _ => gives_ite (fun _ => holds _ _) fun _ => fails _ _

/-- A check may come before a node is sealed. -/
theorem guard {condition : Prop} [Decidable condition] {check : Parse PUnit}
    {next : PUnit → Parse β} (goesOn : Sealed mark (next ⟨⟩) final) :
    Sealed mark (if condition then check >>= next else next ⟨⟩) final :=
  ite (last fun _ => goesOn) goesOn

/-- A choice between two steps after which the parse goes on alike. -/
theorem choose {condition : Prop} [Decidable condition] {action other : Parse α}
    (goesOn : ∀ value, Sealed mark (next value) final) :
    Sealed mark (if condition then action >>= next else other >>= next) final :=
  ite (last goesOn) (last goesOn)

theorem never {action : Parse α} (fails : ∀ setting state,
    Gives action setting state fun _ _ => False) : Sealed mark action nodes :=
  fun setting state value after ends => (fails setting state value after ends).elim

theorem raise {pos : Nat} {problem : Problem} :
    Sealed mark (Grammar.raise pos problem : Parse α) nodes :=
  .never fun _ _ _ _ absent => by cases absent

/-- The step fails before it comes to its end. -/
theorem fail : Sealed mark ((Grammar.unexpected : Parse α) >>= next) final :=
  .never fun _ _ => Gives.bind_iff.mpr fun _ _ absent => by cases absent

theorem nothing {value : α} (none : nodes value = []) : Sealed mark (Pure.pure value) nodes :=
  fun _ _ => gives_pure.mpr (none ▸ .nil)

/-- A node that is finished is sealed. -/
theorem finish : Sealed mark (Grammar.finish mark form) ([·]) := by
  intro setting state node after ends
  obtain ⟨-, start, stop⟩ := finish_gives node after ends
  obtain ⟨_, _, _, _, _, rfl⟩ := finish_aside node after ends
  exact .cons ⟨Nat.le_of_eq start.symm, Nat.le_of_eq stop⟩ .nil

/-- What is made of the nodes at the end does not move them. -/
theorem give {action : Parse α} {value : α → β} (whole : Sealed mark action middle)
    (among : ∀ held, final (value held) ⊆ middle held) :
    Sealed mark (do return value (← action)) final := fun setting state =>
  Gives.bind_iff.mpr ((whole setting state).mono fun held _ all =>
    gives_pure.mpr fun node inside => all node (among held inside))

/-- What is noted of a node does not move it. -/
theorem noted {change : Extra → Extra} :
    Sealed mark (do return (← Grammar.finish mark form).mapExtra change) ([·]) := fun setting _ =>
  Gives.bind_iff.mpr ((finish setting _).mono fun node _ all =>
    have between := all node List.mem_cons_self
    gives_pure.mpr (.cons ⟨between.start, between.stop⟩ .nil))

/-- What a trial yields lies where it does anyway. -/
theorem attempt {action : Parse α} (whole : Sealed mark action nodes) :
    Sealed mark (Grammar.attempt action) fun result => result.elim [] nodes := by
  intro setting state result last ends
  unfold Grammar.attempt at ends
  split at ends
  · next value after same =>
      cases ends
      exact whole setting state value last same
  · cases ends
    exact .nil
  · cases ends

/-- One level deeper the nodes lie where they do. -/
theorem nested {action : Parse α} (whole : Sealed mark action nodes) :
    Sealed mark (Grammar.nested action) nodes := fun setting _ =>
  gives_nested (fun value lexer => Every (Node.Between mark.pos lexer) (nodes value))
    fun deeper _ => whole setting deeper

end Sealed

/-- The nodes that a step yields lie between an offset, which is at the current token or before it,
and the end of the step, where something is given, and if the nodes do that are known before. -/
structure Bounded (first : Nat) (given : Prop) (known : List Node) (action : Parse α)
    (nodes : α → List Node) : Prop where
  advances : Advances action
  inside : ∀ setting (state : State), state.lexer.Tracked setting.toSetting →
    first ≤ state.lexer.start → Every (Node.Between first state.lexer) known → given →
      Gives action setting state fun value after =>
        Every (Node.Between first after.lexer) (nodes value)

/-- The nodes that a loop goes on with after a turn, or ends with. -/
def Turn.nodes (held : α → List Node) (final : β → List Node) : Turn α β → List Node
  | .more gathered => held gathered
  | .done result => final result

namespace Bounded

variable {given stronger : Prop} {action begins goesOn : Parse α} {next : α → Parse β}
  {nodes middle : α → List Node} {final : β → List Node}

theorem mono (bounded : Bounded first given known action nodes) (implied : stronger → given)
    (among : known ⊆ more) : Bounded first stronger more action nodes :=
  ⟨bounded.advances, fun setting state tracked begun all holds =>
    bounded.inside setting state tracked begun (fun node inside => all node (among inside))
      (implied holds)⟩

/-- The nodes that are known stay known. -/
theorem bind (begins : Bounded first given known action middle)
    (goesOn : ∀ value, Bounded first given (middle value ++ known) (next value) final) :
    Bounded first given known (action >>= next) final where
  advances := begins.advances.bind fun value => (goesOn value).advances
  inside setting state tracked begun all holds := by
    rw [Gives.bind_iff]
    intro value after ends
    have traces := begins.advances.traces setting state value after ends
    have onward := traces.onward tracked
    refine (goesOn value).inside setting after (traces.tracked tracked)
      (Nat.le_trans begun onward.1) ?_ holds
    exact (begins.inside setting state tracked begun all holds value after ends).append
      fun node inside => (all node inside).later onward.2

/-- What the first of two steps yields does not matter. -/
theorem pass (advances : Advances action)
    (goesOn : ∀ value, Bounded first given known (next value) final) :
    Bounded first given known (action >>= next) final :=
  have nothing : Bounded first given known action fun _ => [] :=
    ⟨advances, fun _ _ _ _ _ _ _ _ _ => nofun⟩
  nothing.bind goesOn

/-- A plain step may come first. -/
theorem step [Plain action] (goesOn : ∀ value, Bounded first given known (next value) final) :
    Bounded first given known (action >>= next) final := .pass .plain goesOn

theorem pure {value : α} (among : nodes value ⊆ known) :
    Bounded first given known (Pure.pure value) nodes :=
  ⟨.plain, fun _ _ _ _ all _ => gives_pure.mpr fun node inside => all node (among inside)⟩

/-- A value that is known goes on as it is. -/
theorem value {value : α} (goesOn : Bounded first given known (next value) final) :
    Bounded first given known (Pure.pure value >>= next) final := by
  rwa [pure_bind]

/-- What is made of the nodes at the end does not move them. -/
theorem give {value : α → β} (begins : Bounded first given known action middle)
    (among : ∀ held, final (value held) ⊆ middle held) :
    Bounded first given known (do return value (← action)) final :=
  begins.bind fun held => .pure (List.subset_append_of_subset_left _ (among held))

/-- What is noted of a node at the end does not move it. -/
theorem noted {action : Parse Node} {change : Node → Node}
    (begins : Bounded first given known action ([·]))
    (still : ∀ node, (change node).start = node.start ∧ (change node).stop = node.stop) :
    Bounded first given known (do return change (← action)) ([·]) where
  advances := begins.advances.bind fun _ => .plain
  inside setting state tracked begun all holds := Gives.bind_iff.mpr <|
    (begins.inside setting state tracked begun all holds).mono fun node _ inside =>
      have between := inside node List.mem_cons_self
      gives_pure.mpr (.cons ⟨(still node).1 ▸ between.start, (still node).2 ▸ between.stop⟩ .nil)

/-- A node that is known is the value. -/
theorem same (inside : node ∈ known) : Bounded first given known (Pure.pure node) ([·]) :=
  .pure (List.cons_subset.mpr ⟨inside, List.nil_subset _⟩)

theorem ite {condition : Prop} [Decidable condition]
    (holds : Bounded first given known begins nodes)
    (fails : Bounded first given known goesOn nodes) :
    Bounded first given known (if condition then begins else goesOn) nodes := by
  split
  · exact holds
  · exact fails

/-- A plain check may come first. -/
theorem guard {condition : Prop} [Decidable condition] {check : Parse PUnit}
    {next : PUnit → Parse β} [Plain check] (goesOn : Bounded first given known (next ⟨⟩) final) :
    Bounded first given known (if condition then check >>= next else next ⟨⟩) final :=
  ite (.step fun _ => goesOn) goesOn

/-- A choice between two steps after which the parse goes on alike. -/
theorem choose {condition : Prop} [Decidable condition] {other : Parse α} [Plain action]
    [Plain other] (goesOn : ∀ value, Bounded first given known (next value) final) :
    Bounded first given known (if condition then action >>= next else other >>= next) final :=
  ite (.step goesOn) (.step goesOn)

theorem never [plain : Plain action]
    (fails : ∀ setting state, Gives action setting state fun _ _ => False) :
    Bounded first given known action nodes :=
  ⟨plain.toAdvances, fun setting state _ _ _ _ value after ends =>
    (fails setting state value after ends).elim⟩

theorem unexpected : Bounded first given known (Grammar.unexpected : Parse α) nodes :=
  .never fun _ _ _ _ absent => by cases absent

theorem unexpectedAt {pos : Nat} :
    Bounded first given known (Grammar.unexpectedAt pos : Parse α) nodes :=
  .never fun _ _ _ _ absent => by cases absent

theorem tooDeep : Bounded first given known (Grammar.tooDeep : Parse α) nodes :=
  .never fun _ _ _ _ absent => by cases absent

/-- What is marked here begins at the offset or after it. -/
theorem onMark {next : Mark → Parse β}
    (goesOn : ∀ mark : Mark, Bounded first (given ∧ first ≤ mark.pos) known (next mark) final) :
    Bounded first given known (Grammar.mark >>= next) final where
  advances := .step fun mark => (goesOn mark).advances
  inside setting state tracked begun all holds := Gives.bind_iff.mpr <| gives_mark.mpr <|
    (goesOn _).inside setting state tracked begun all ⟨holds, begun⟩

/-- Nodes are made from a mark on. -/
theorem sealed {action : Parse α} (advances : Advances action) (whole : Sealed mark action nodes)
    (begins : given → first ≤ mark.pos) : Bounded first given known action nodes :=
  ⟨advances, fun setting state _ _ _ holds => (whole setting state).mono fun _ _ all node inside =>
    ⟨Nat.le_trans (begins holds) (all node inside).start, (all node inside).stop⟩⟩

/-- A node is finished that begins at a mark. -/
theorem made (begins : given → first ≤ mark.pos) :
    Bounded first given known (Grammar.finish mark form) ([·]) :=
  .sealed .plain .finish begins

/-- Nodes are made from their first token on. -/
theorem marked {next : Mark → Parse α} (advances : Advances (Grammar.mark >>= next))
    (whole : ∀ mark, Sealed mark (next mark) nodes) :
    Bounded first given known (Grammar.mark >>= next) nodes :=
  ⟨advances, fun setting state _ begun _ _ => Gives.bind_iff.mpr <| gives_mark.mpr <|
    (whole _ setting state).mono fun _ _ all node inside =>
      ⟨Nat.le_trans begun (all node inside).start, (all node inside).stop⟩⟩

/-- The nodes that a turn of a loop holds are known in the next one. -/
theorem loop (held : α → List Node) {start : α} {turn : α → Parse (Turn α β)}
    (begins : held start ⊆ known) (turns : ∀ gathered,
      Bounded first given (held gathered ++ known) (turn gathered) (Turn.nodes held final)) :
    Bounded first given known (Grammar.loop start turn) final where
  advances := .loop fun gathered => (turns gathered).advances
  inside setting state tracked begun all holds := by
    refine gives_loop (fun gathered now => now.lexer.Tracked setting.toSetting ∧
      first ≤ now.lexer.start ∧ Every (Node.Between first now.lexer) (held gathered ++ known)) _
      (fun gathered now reached => ?_) ⟨tracked, begun, fun node inside => all node ?_⟩
    · obtain ⟨tracked, begun, all⟩ := reached
      intro turned after ends
      have traces := (turns gathered).advances.traces setting now turned after ends
      have onward := traces.onward tracked
      have met := (turns gathered).inside setting now tracked begun all holds turned after ends
      cases turned with
      | more next =>
          exact ⟨traces.tracked tracked, Nat.le_trans begun onward.1, met.append fun node inside =>
            (all node (List.mem_append_right _ inside)).later onward.2⟩
      | done result => exact met
    · exact (List.mem_append.mp inside).elim (fun held => begins held) id

/-- What is bounded is bounded within a scope. -/
theorem within {enter : State → State} {leave : State → State → State} (scope : Scope enter leave)
    (bounded : Bounded first given known action nodes) :
    Bounded first given known (Grammar.within enter leave action) nodes where
  advances := .within scope bounded.advances
  inside setting state tracked begun all holds := by
    have traces : state.lexer.Traces setting.toSetting (enter state).lexer :=
      (scope.entered state).beside.traces
    have onward := traces.onward tracked
    refine gives_within.mpr ((bounded.inside setting (enter state) (traces.tracked tracked)
      (Nat.le_trans begun onward.1) (fun node inside => (all node inside).later onward.2)
      holds).mono ?_)
    intro value after all node inside
    exact (all node inside).later (Nat.le_of_eq (scope.left state after).beside.lastStop.symm)

theorem nested (bounded : Bounded first given known action nodes) :
    Bounded first given known (Grammar.nested action) nodes := by
  rw [nested_eq]
  exact .within .deeper (.step fun _ => .guard bounded)

end Bounded

section Words

variable {given : Prop}

/-- A name lies where it is read. -/
theorem identifier_bounded {liberal : Bool} :
    Bounded first given known (identifier liberal) ([·]) := by
  have advances : Advances (identifier liberal) := .plain
  refine .marked advances fun mark => .last fun _ => .last fun name => ?_
  have tail : ∀ name : String, Sealed mark (do
      if !liberal && name == "await" && (← get).inAsync then raise mark.pos .awaitInAsync
      next
      finish mark (.identifier name none false)) ([·]) := fun _ =>
    .last fun _ => .guard (.last fun _ => .finish)
  refine .ite (.last fun _ => .guard (.last tail)) ?_
  split
  · exact .ite (.last tail) (.last tail)
  · exact .last tail

/-- A literal lies where it has been read. -/
theorem literal_bounded {value : Option RawValue} :
    Bounded first given known (literal form value) ([·]) :=
  .marked .plain fun _ => .last fun _ => .last fun _ => .noted

/-- A value that is used as an expression lies where it did. -/
theorem settle_bounded {cover : Cover Node} (inside : cover.value ∈ known) :
    Bounded first given known cover.settle ([·]) := by
  unfold Cover.settle
  split
  · exact .unexpectedAt
  · exact .same inside

end Words

end Grammar

end EcmaSyntax
