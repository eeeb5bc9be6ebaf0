import EcmaSyntax.Grammar.Statement.Basic
import EcmaSyntax.Proofs.Yield.Begin
import EcmaSyntax.Proofs.Yield.Statement

namespace EcmaSyntax

namespace Grammar

variable {law : Law} {enclosures : List Enclosure} {given : Prop} {rules : Rules} {mark : Mark}
  {node : Node} {α : Type}

section Jump

/-- A form that jumps. -/
def jumpForm (isBreak : Bool) (label : Option Node) : Form :=
  if isBreak then .breakStatement label else .continueStatement label

/-- A jump without a label that is allowed has a loop around it, or a break a switch. -/
theorem Backed.jumps_bare {labels : List Label} {isBreak : Bool}
    (backed : Backed labels enclosures)
    (allowed : (labels.any fun known => known.allows isBreak none) = true) :
    (jumpForm isBreak none).Jumps enclosures := by
  obtain ⟨known, member, allowed⟩ := List.any_eq_true.mp allowed
  simp only [Label.allows, Option.isSome_none, Bool.false_and, Bool.or_false, Bool.and_eq_true,
    Bool.or_eq_true, beq_iff_eq, Bool.false_eq_true, if_false] at allowed
  obtain ⟨target, same⟩ := Option.isSome_iff_exists.mp allowed.1
  have aim := backed.aims known member target same
  cases isBreak with
  | true =>
      cases target with
      | loop => exact .inl aim
      | switch => exact .inr aim
  | false =>
      have loop := allowed.2.resolve_left nofun
      rw [loop, Option.some.injEq] at same
      subst same
      exact aim

/-- A jump with a label that is allowed has its label around it, before a loop if it goes on
there. -/
theorem Backed.jumps_named {labels : List Label} {isBreak : Bool} {name : String}
    (backed : Backed labels enclosures) (named : node.name? = some name)
    (allowed : (labels.any fun known => known.allows isBreak node.name?) = true) :
    (jumpForm isBreak (some node)).Jumps enclosures := by
  obtain ⟨known, member, allowed⟩ := List.any_eq_true.mp allowed
  rw [named] at allowed
  simp only [Label.allows, Option.isSome_some, Bool.true_and, bne_iff_ne, ne_eq, ite_not,
    Bool.if_false_right, Bool.and_eq_true, decide_eq_true_eq, Bool.or_eq_true, beq_iff_eq]
    at allowed
  obtain ⟨same, allowed⟩ := allowed
  obtain ⟨loops, inside, looping⟩ := backed.known known member name same
  cases isBreak with
  | true => exact ⟨name, loops, named, inside⟩
  | false =>
      have loop := (allowed.resolve_right nofun).2.resolve_left nofun
      exact ⟨name, named, looping loop ▸ inside⟩

/-- The word that a jump begins with. -/
def jumpWord (isBreak : Bool) : Kind := if isBreak then .kwBreak else .kwContinue

/-- A label stands on the line of the word before it. -/
theorem word?_jumpForm {isBreak : Bool} {label : Option Node} :
    (jumpForm isBreak label).word? = label.map fun _ => jumpWord isBreak := by
  cases isBreak <;> cases label <;> rfl

/-- What stands around is known to the labels of a state. -/
theorem YieldsFrom.onLabels {here : Lexer.Setting → Lexer.State → Prop} {next : State → Parse α}
    {good : α → Prop} (goesOn : ∀ state : State, YieldsFrom law (some enclosures) here
      (given ∧ Backed state.labels enclosures) (next state) good) :
    YieldsFrom law (some enclosures) here given (get >>= next) good where
  steps := .step fun state => (goesOn state).steps
  good setting state under here := by
    rw [Gives.bind_iff, gives_get]
    intro value after ends within stands waiting known
    exact (goesOn state).good setting state under here value after ends within stands waiting
      ⟨known, (stands enclosures rfl).backed⟩

/-- A jump begins behind its labels, and has an aim. -/
theorem jumpStatement_begins {isBreak : Bool} :
    Begins law (fun lexer => lexer.start = mark.pos ∧ lexer.kind = jumpWord isBreak)
      (jumpStatement mark isBreak) := by
  refine .enterWord (by cases isBreak <;> rfl) (next_passes (by cases isBreak <;> decide))
    fun enclosures => ?_
  have rest : ∀ {given : Prop} (label : Option Node), (given → PartLawful law label) →
      (given → ∀ node ∈ label, node.isIdentifier = true ∧
        law.layout.leads (jumpWord isBreak) mark.pos) →
      YieldsFrom law (some enclosures) (fun setting lexer => lexer.Closes setting) given (do
        let name := label.bind Node.name?
        if !(← get).labels.any fun known => known.allows isBreak name then
          raise mark.pos (.jumpWithoutTarget (if isBreak then "break" else "continue"))
        finish mark (jumpForm isBreak label)) (Node.Follows law enclosures) := by
    refine fun label lawful named => .onLabels fun state =>
      .ite (fun _ => .ofYields .raised) fun allowed => .refine .finishEnd ?_
    rw [Bool.not_eq_true', Bool.not_eq_false] at allowed
    rintro node ⟨known, backed⟩ ⟨⟨same, start⟩, ends⟩
    refine law.placed (same ▸ ?_) (same ▸ ?_) (same ▸ Form.permitted_of_isFree ?_)
      ⟨.ofEnds (same ▸ ?_) ends ?_, same ▸ Form.linked_of_isFree ?_,
        .ofUnspelled (same ▸ ?_)⟩
      (same ▸ (Form.placed_iff_around ?_).mpr ?_)
    · cases isBreak <;> rfl
    · cases label with
      | none => exact backed.jumps_bare allowed
      | some node =>
          obtain ⟨name, same⟩ := Option.isSome_iff_exists.mp (named known node rfl).1
          exact backed.jumps_named same allowed
    · cases isBreak <;> rfl
    · cases isBreak <;> rfl
    · rw [same, word?_jumpForm, start]
      intro _ word
      obtain ⟨node, inside, rfl⟩ := Option.map_eq_some_iff.mp word
      exact (named known node inside).2
    · cases isBreak <;> rfl
    · cases isBreak <;> rfl
    · cases isBreak <;> rfl
    · have held := fun node inside => lawful known node inside enclosures
      cases isBreak <;> exact held
  refine .maybeEnd (.look fun _ => .ite
    (fun _ => .value (rest none (fun _ => .none) fun _ => nofun))
    fun goesOn => absurd rfl goesOn) (.look fun _ => .ite nofun fun _ => .ite (fun _ => .led ?_)
      fun _ => .ofYields .fail)
  have read : Yields law (True ∧ law.layout.leads (jumpWord isBreak) mark.pos) (identifier false)
      fun node => node.Lawful law ∧ node.isIdentifier = true :=
    identifier_reads.weaken fun _ known => ⟨known.1.lawful, known.2.1⟩
  refine .read read fun label => .ofFrom (.ended (.value (rest (some label)
    (fun known => .some known.2.1) ?_)))
  rintro known _ ⟨rfl⟩
  exact ⟨known.2.2, known.1.2⟩

end Jump

section Label

/-- What can be aimed at without a label may be put before the labels that are known. -/
theorem Settled.aimed {target : LabelTarget} {state : State} (settled : Settled enclosures state)
    (aim : target.enclosure ∈ enclosures) :
    Settled enclosures { state with labels := ⟨none, some target, none⟩ :: state.labels } where
  passed := List.forall_mem_cons.mpr ⟨by simp, settled.passed⟩
  backed := by
    have backed := settled.backed
    refine ⟨fun name flag member => ?_,
      List.forall_mem_cons.mpr ⟨by simp, backed.known⟩,
      List.forall_mem_cons.mpr ⟨?_, backed.aims⟩⟩
    · obtain ⟨label, inside, same⟩ := backed.named name flag member
      exact ⟨label, List.mem_cons_of_mem _ inside, same⟩
    · rintro _ ⟨rfl⟩
      exact aim

/-- A label is a scope. -/
theorem labeled_eq (label : Label) (action : Parse α) : labeled label action =
    within (fun state => { state with labels := label :: state.labels })
      (fun _ state => { state with labels := state.labels.drop 1 }) action := rfl

/-- A label that is put before those around is taken away again. -/
theorem Scope.labeled {label : Label} : Scope
    (fun state => { state with labels := label :: state.labels })
    (fun _ state => { state with labels := state.labels.drop 1 }) where
  entered _ := ⟨⟨_, _, rfl⟩, rfl, rfl⟩
  left _ _ := ⟨⟨_, _, rfl⟩, rfl, rfl⟩
  flags before after same := by
    rw [State.flags_eq_iff] at same ⊢
    simp_all
  decorators _ := rfl
  decorated _ _ := rfl
  labels _ _ same := congrArg (List.drop 1) same

/-- A step behind a label is a step. -/
theorem labeled_steps {label : Label} {action : Parse α} (steps : Steps action) :
    Steps (labeled label action) := by
  rw [labeled_eq]
  exact .within .labeled steps

/-- Something that can be aimed at without a label stands around. -/
theorem labeled_yields {target : LabelTarget} {action : Parse α} {good : α → Prop}
    (aim : target.enclosure ∈ enclosures) (yields : YieldsIn law enclosures given action good) :
    YieldsIn law enclosures given (labeled ⟨none, some target, none⟩ action) good where
  steps := labeled_steps yields.steps
  good setting state under := by
    simp only [labeled, Gives.bind_iff, gives_modify, gives_pure]
    intro value after ends within stands waiting known
    have settled : Settled enclosures state := stands enclosures rfl
    obtain ⟨good, kept, labels⟩ := yields.good setting
      { state with labels := ⟨none, some target, none⟩ :: state.labels }
      ⟨under.speaks, under.tracked, under.mode⟩ value after ends
      within (settled.aimed aim).stands waiting known
    exact ⟨good, kept, by rw [labels, List.drop_one, List.tail_cons]⟩

/-- Within a loop, its jumps have an aim. -/
theorem withinLoop_yields {action : Parse α} {good : α → Prop}
    (yields : YieldsIn law (.loop :: enclosures) given action good) :
    YieldsIn law (.loop :: enclosures) given (withinLoop action) good :=
  labeled_yields (List.mem_cons_self ..) yields

variable {chain outer : List Label} {setting : Setting} {state : State} {name : String}

/-- A label takes over the target of the one after it. -/
def Label.retargeted (label : Label) (start : Nat) (target : Option LabelTarget) : Label :=
  { label with start := some start, target := target }

/-- The labels before another one take over its target, and those around do not. -/
theorem retarget_append {pos start : Nat} {target : Option LabelTarget}
    (begun : ∀ label ∈ chain, label.start = some pos)
    (outside : ∀ label ∈ outer, label.start ≠ some pos) :
    retarget pos start target (chain ++ outer) =
      chain.map (·.retargeted start target) ++ outer := by
  induction chain with
  | nil =>
      cases outer with
      | nil => rfl
      | cons label rest =>
          rw [List.nil_append, retarget, if_neg]
          · rfl
          · simpa using outside label (List.mem_cons_self ..)
  | cons label rest inductionHypothesis =>
      obtain ⟨first, others⟩ := List.forall_mem_cons.mp begun
      rw [List.cons_append, retarget, if_pos (beq_iff_eq.mpr first), inductionHypothesis others]
      rfl

/-- What stands around the statement after a label is the label, besides what stands around it. -/
theorem Labeled.push {loops : Bool} (labeled : Labeled chain outer loops enclosures)
    (start : Nat) (target : Option LabelTarget) :
    Labeled (⟨some name, target, some start⟩ :: chain.map (·.retargeted start target)) outer loops
      (.label name loops :: enclosures) where
  named other flag member := by
    rcases List.mem_cons.mp member with same | inside
    · cases same
      exact ⟨_, List.mem_cons_self .., rfl⟩
    · obtain ⟨label, known, same⟩ := labeled.named other flag inside
      rcases List.mem_append.mp known with before | around
      · exact ⟨label.retargeted start target,
          List.mem_cons_of_mem _ (List.mem_append_left _ (List.mem_map_of_mem before)), same⟩
      · exact ⟨label, List.mem_cons_of_mem _ (List.mem_append_right _ around), same⟩
  chain label member other same := by
    rcases List.mem_cons.mp member with rfl | inside
    · cases same
      exact List.mem_cons_self ..
    · obtain ⟨before, known, rfl⟩ := List.mem_map.mp inside
      exact List.mem_cons_of_mem _ (labeled.chain before known other same)
  known label member other same := by
    obtain ⟨flag, inside, loop⟩ := labeled.known label member other same
    exact ⟨flag, List.mem_cons_of_mem _ inside, loop⟩
  aims label member target same := List.mem_cons_of_mem _ (labeled.aims label member target same)

theorem gives_labelTarget {post : Option LabelTarget → State → Prop} :
    Gives labelTarget setting state post ↔ post (Kind.target? state.lexer.kind) state := by
  rw [labelTarget, Gives.bind_iff, gives_kind, Kind.target?]
  split
  · exact gives_pure
  · split <;> exact gives_pure

/-- What a label stands before is no part of its name. -/
theorem retarget_names (pos start : Nat) (target : Option LabelTarget) (labels : List Label) :
    (retarget pos start target labels).map Label.name = labels.map Label.name := by
  induction labels with
  | nil => rfl
  | cons label outer inductionHypothesis =>
      rw [retarget]
      split
      · rw [List.map_cons, List.map_cons, inductionHypothesis]
      · rfl

theorem labeledStatement_steps (lawful : rules.Lawful law) :
    Steps (labeledStatement rules mark name node) := by
  have rest : ∀ (target : Option LabelTarget) (start : Nat), Steps (do
      modify fun state => { state with labels := retarget mark.pos start target state.labels }
      let body ← labeled ⟨some name, target, some start⟩ (rules.statement true false)
      finish mark (.labeledStatement node body)) := by
    refine fun target start => .bind (.modify (fun _ => ⟨⟨_, _, rfl⟩, rfl, rfl⟩) fun state => ?_)
      fun _ => .bind (labeled_steps (lawful.begins _ _).steps) fun _ => .plain
    simp only [State.flags, retarget_names]
  have targets : Steps (do
      let target ← labelTarget
      let start := (← get).lexer.start
      modify fun state => { state with labels := retarget mark.pos start target state.labels }
      let body ← labeled ⟨some name, target, some start⟩ (rules.statement true false)
      finish mark (.labeledStatement node body)) := .step fun _ => .step fun _ => rest _ _
  exact .step fun _ => .ite (.step fun _ => targets) targets

/-- A statement after a label follows the law in its place, if the labels directly before it are
those that start where it does. -/
theorem labeledStatement_gives (lawful : rules.Lawful law) (under : state.Under law setting)
    (labels : state.labels = chain ++ outer)
    (begun : ∀ label ∈ chain, label.start = some mark.pos)
    (passed : ∀ label ∈ outer, ∀ start, label.start = some start → Passed state.lexer start) :
    Gives (labeledStatement rules mark name node) setting state fun statement after =>
      law.within after.lexer → Waiting law state →
      (∀ label ∈ outer, label.start ≠ some mark.pos) → node.Lawful law →
      node.name? = some name → ∀ enclosures, Labeled chain outer statement.isLoop enclosures →
        statement.Follows law enclosures ∧ Waiting law after ∧
          ∃ others, others.length = chain.length ∧ after.labels = others ++ outer := by
  simp only [labeledStatement, labeled, Gives.bind_iff, gives_get]
  refine gives_ite (fun _ => fun _ _ absent => by cases absent) fun fresh => ?_
  simp only [Gives.bind_iff, gives_labelTarget, gives_get, gives_modify, gives_pure]
  intro body ended read statement after finished within waiting outside good named enclosures around
  have form : statement.form = .labeledStatement node body := Ends.finish _ _ _ _ finished
  rw [Node.isLoop_labeled form] at around
  have steps := (lawful.begins true false).steps
  have still := (steps.traces setting _ body ended read).tracked under.tracked
  have plain : Plain (finish mark (.labeledStatement node body)) := inferInstance
  have traces := plain.traces setting _ statement after finished
  have inside : law.within ended.lexer := law.earlier traces still within
  have begins : Fresh (⟨some name, Kind.target? state.lexer.kind, some state.lexer.start⟩ ::
      chain.map (·.retargeted state.lexer.start (Kind.target? state.lexer.kind))) outer
      { state with
        labels := ⟨some name, Kind.target? state.lexer.kind, some state.lexer.start⟩ ::
          retarget mark.pos state.lexer.start (Kind.target? state.lexer.kind) state.labels } := by
    refine ⟨?_, List.forall_mem_cons.mpr ⟨⟨rfl, rfl⟩, ?_⟩, passed⟩
    · rw [labels, retarget_append begun outside]
      rfl
    · intro label member
      obtain ⟨before, -, rfl⟩ := List.mem_map.mp member
      exact ⟨rfl, rfl⟩
  obtain ⟨follows, kept, others, count, same⟩ := (lawful.begins true false).good setting _ _ outer
    (by exact ⟨under.speaks, under.tracked, under.mode⟩) trivial begins body ended read inside
    waiting _ (around.push _ _)
  refine ⟨law.placed (form ▸ rfl) (form ▸ ?_) (form ▸ Form.permitted_of_isFree rfl)
    (.ofUnlaid (form ▸ rfl)) (form ▸ (Form.placed_iff_around rfl).mpr ?_), ?_, ?_⟩
  · refine ⟨name, named, fun loops member => fresh ?_⟩
    obtain ⟨label, known, repeated⟩ := around.named name loops member
    exact List.any_eq_true.mpr ⟨label, labels ▸ known, beq_iff_eq.mpr repeated⟩
  · exact ⟨good enclosures, by rwa [named]⟩
  · rwa [Waiting, plain.decorators setting _ statement after finished]
  · refine ⟨others.tail, by simp [count], ?_⟩
    rw [plain.labels setting _ statement after finished, same, List.drop_one]
    exact List.tail_append_of_ne_nil (List.ne_nil_of_length_eq_add_one count)

/-- A statement that begins with an expression, after the expression. -/
def plainTail (rules : Rules) (mark : Mark) (startsWithName : Bool) (name : String)
    (inner : Node) : Parse Node := do
  let isLabel ← if startsWithName && inner.isIdentifier then eat .colon else pure false
  if isLabel then labeledStatement rules mark name inner
  else expressionStatement rules mark inner

variable {startsWithName : Bool}

theorem plainTail_steps (lawful : rules.Lawful law) :
    Steps (plainTail rules mark startsWithName name node) := by
  have known : Yields law (node.Lawful law) (expressionStatement rules mark node)
      (Node.Lawful law) := expressionStatement_yields lawful id
  unfold plainTail
  split
  · exact .step fun _ => .ite (labeledStatement_steps lawful) known.steps
  · exact .step fun _ => .ite (labeledStatement_steps lawful) known.steps

/-- A statement that begins with a name follows the law, whether the name is a label or not. -/
theorem plainTail_gives (lawful : rules.Lawful law) (under : state.Under law setting)
    (labels : state.labels = chain ++ outer)
    (begun : ∀ label ∈ chain, label.start = some mark.pos)
    (passed : ∀ label ∈ outer, ∀ start, label.start = some start → Passed state.lexer start) :
    Gives (plainTail rules mark startsWithName name node) setting state fun statement after =>
      law.within after.lexer → Waiting law state →
      (startsWithName = true → (∀ label ∈ outer, label.start ≠ some mark.pos) ∧
        node.Echoes name) → node.Lawful law →
      ∀ enclosures, Labeled chain outer statement.isLoop enclosures →
        statement.Follows law enclosures ∧ Waiting law after ∧
          ∃ others, others.length = chain.length ∧ after.labels = others ++ outer := by
  have expression : ∀ state : State, state.Under law setting → state.labels = chain ++ outer →
      Gives (expressionStatement rules mark node) setting state fun statement after =>
        law.within after.lexer → Waiting law state → node.Lawful law →
        ∀ enclosures, statement.Follows law enclosures ∧ Waiting law after ∧
          ∃ others, others.length = chain.length ∧ after.labels = others ++ outer := by
    intro state under labels statement after ends within waiting good enclosures
    obtain ⟨lawful, kept, same⟩ := (expressionStatement_yields lawful id).good setting state under
      statement after ends within .anywhere waiting good
    exact ⟨lawful enclosures, kept, chain, rfl, same.trans labels⟩
  refine gives_ite (fun maybe => ?_) fun _ => ?_
  · have plain : Plain (eat .colon) := inferInstance
    rw [Gives.bind_iff]
    intro found middle read
    have grown := plain.extends_ setting state
    rw [read] at grown
    have still := plain.under under found middle read
    have same := (plain.labels setting state found middle read).trans labels
    rw [Waiting, ← plain.decorators setting state found middle read]
    refine gives_ite (fun _ => ?_) fun _ => ?_
    · rw [Bool.and_eq_true] at maybe
      refine (labeledStatement_gives lawful still same begun fun label member start known =>
        (passed label member start known).later grown).mono ?_
      intro statement after follows within waiting known good
      obtain ⟨word, named⟩ := Option.isSome_iff_exists.mp maybe.2
      obtain ⟨outside, echoes⟩ := known maybe.1
      exact follows within waiting outside good (echoes word named ▸ named)
    · exact (expression middle still same).mono fun _ _ met within waiting _ good enclosures _ =>
        met within waiting good enclosures
  · rw [pure_bind]
    exact (expression state under labels).mono fun _ _ met within waiting _ good enclosures _ =>
      met within waiting good enclosures

/-- A statement that begins with an expression or a word begins behind its labels. -/
theorem plainStatement_begins (lawful : rules.Lawful law) (echoing : rules.Echoing) :
    Begins law (fun lexer => lexer.start = mark.pos) (plainStatement rules mark) where
  steps := .step fun _ => .step fun _ =>
    (expression_yields lawful : Yields law True _ _).steps.bind fun _ => plainTail_steps lawful
  good setting state chain outer under here fresh := by
    have yields : Yields law True (expression rules false) (Node.Lawful law) :=
      expression_yields lawful
    change Gives (atKind .name >>= fun startsWithName => valueText >>= fun name =>
      expression rules false >>= plainTail rules mark startsWithName name) setting state _
    rw [Gives.bind_iff, gives_atKind, Gives.bind_iff, gives_valueText, Gives.bind_iff]
    intro inner middle read statement after ends within waiting enclosures labeled
    have grown := yields.steps.extends_ setting state
    rw [read] at grown
    have still := yields.steps.under under inner middle read
    have later := (plainTail_steps lawful).traces setting middle statement after ends
    have inside := law.earlier later still.tracked within
    obtain ⟨good, kept, labels⟩ := yields.good setting state under inner middle read inside
      .anywhere waiting trivial
    refine plainTail_gives lawful still (labels.trans fresh.labels)
      (fun label member => here ▸ (fresh.chain label member).1)
      (fun label member start same => (fresh.outer label member start same).later grown)
      statement after ends within kept (fun named => ?_) good enclosures labeled
    rw [beq_iff_eq] at named
    refine ⟨fun label member same => ?_, expression_echoes echoing named inner middle read⟩
    have settled := law.ascending (law.earlier
      (yields.steps.traces setting state inner middle read) under.tracked inside)
    exact absurd here (Nat.ne_of_gt ((fresh.outer label member _ same).lt named settled))

end Label

end Grammar

end EcmaSyntax
