import EcmaSyntax.Proofs.Yield.Echo
import EcmaSyntax.Proofs.Yield.Line
import EcmaSyntax.Proofs.Yield.Rules

namespace EcmaSyntax

namespace Grammar

variable {law : Law} {enclosures : List Enclosure} {given : Prop} {chain outer : List Label}
  {setting : Setting} {state : State} {start : Nat} {α : Type}

section Passed

/-- A step passes the current token if it is of a kind. -/
def Passes (kind : Kind) (action : Parse α) : Prop :=
  ∀ setting (state : State), state.lexer.Tracked setting.toSetting → state.lexer.kind = kind →
    Gives action setting state fun _ after => Passed after.lexer state.lexer.start

variable {kind : Kind} {action : Parse α} {β : Type}

/-- A token is passed as soon as the next one is read. -/
theorem Passed.ofNext {scanning : Lexer.Setting} {lexer : Lexer.State}
    (known : lexer.kind ≠ .eof ∧ lexer.kind ≠ .template) (tracked : lexer.Tracked scanning) :
    Gives Lexer.next scanning lexer fun _ after => Passed after lexer.start := by
  have here : lexer.At (· = lexer.token) scanning := rfl
  refine (Lexer.next_after tracked here).mono ?_
  rintro _ after ⟨token, last, rfl⟩
  exact ⟨_, List.mem_of_getLast? last, rfl, known⟩

/-- Passing a token of a kind passes this token. -/
theorem next_passes (known : kind ≠ .eof ∧ kind ≠ .template) : Passes kind next := by
  intro setting state tracked here
  rw [Grammar.next, gives_lex]
  exact Passed.ofNext (here ▸ known) tracked

theorem Passes.bind {rest : α → Parse β} (passes : Passes kind action)
    (steps : ∀ value, Steps (rest value)) : Passes kind (action >>= rest) := by
  intro setting state tracked here
  rw [Gives.bind_iff]
  intro value middle begun result last ends
  have grown := (steps value).extends_ setting middle
  rw [ends] at grown
  exact (passes setting state tracked here value middle begun).later grown

/-- A token that has to be there is passed. -/
theorem expect_passes (known : kind ≠ .eof ∧ kind ≠ .template) : Passes kind (expect kind) := by
  refine Passes.bind (fun setting state tracked here => ?_) fun _ => .ite .plain .plain
  rw [eat, gives_lex, Lexer.eat, Lexer.atKind]
  simp only [Gives.bind_iff, gives_get, gives_pure]
  refine gives_ite (fun _ => Gives.bind_iff.mpr ?_) fun other => ?_
  · exact (Passed.ofNext (here ▸ known) tracked).mono fun _ _ passed => gives_pure.mpr passed
  · exact absurd (beq_iff_eq.mpr here) other

/-- What has been passed starts before a name that is read. -/
theorem Passed.lt (passed : Passed state.lexer start) (named : state.lexer.kind = .name)
    (ascending : Ascending state.lexer.settled) : start < state.lexer.start := by
  have settled : state.lexer.settled = state.lexer.recorded ++ [state.lexer.token] := by
    rw [Lexer.State.settled, named]
    rfl
  rw [settled] at ascending
  obtain ⟨token, member, rfl, goesOn, other⟩ := passed
  have filled := ascending.filled token (List.mem_append_left _ member) goesOn other
  exact Nat.lt_of_lt_of_le filled (ascending.before token member)

end Passed

section Labeled

/-- What a token opens that is the first one of a statement. -/
def Kind.opened (kind : Kind) : List Enclosure :=
  ((Kind.target? kind).map LabelTarget.enclosure).toList

/-- Within a statement the labels before it are like those around it. -/
theorem Labeled.backed {kind : Kind} {loops : Bool} (labeled : Labeled chain outer loops enclosures)
    (targets : ∀ label ∈ chain, label.target = Kind.target? kind)
    (kept : kind.isLoop = true → loops = true) :
    Backed (chain ++ outer) (Kind.opened kind ++ enclosures) := by
  have aimed : ∀ target, Kind.target? kind = some target →
      target.enclosure ∈ Kind.opened kind := by
    intro target same
    simp [Kind.opened, same]
  have looping : Kind.target? kind = some .loop → kind.isLoop = true := by
    unfold Kind.target?
    split
    · next loop => exact fun _ => loop
    · split <;> exact nofun
  refine ⟨fun name flag member => ?_, fun label member name same => ?_,
    fun label member target same => ?_⟩
  · refine labeled.named name flag ((List.mem_append.mp member).resolve_left fun inside => ?_)
    obtain ⟨target, -, same⟩ := Option.map_eq_some_iff.mp (Option.mem_toList.mp inside)
    cases target <;> cases same
  · rcases List.mem_append.mp member with inside | around
    · refine ⟨loops, List.mem_append_right _ (labeled.chain label inside name same), ?_⟩
      exact fun loop => kept (looping (targets label inside ▸ loop))
    · obtain ⟨flag, known, loop⟩ := labeled.known label around name same
      exact ⟨flag, List.mem_append_right _ known, loop⟩
  · rcases List.mem_append.mp member with inside | around
    · exact List.mem_append_left _ (aimed target (targets label inside ▸ same))
    · exact List.mem_append_right _ (labeled.aims label around target same)

/-- Labels that are fresh stand before a token that has been passed. -/
theorem Fresh.passed {after : State} (fresh : Fresh chain outer state)
    (here : Passed after.lexer state.lexer.start) (grown : state.lexer.Extends after.lexer) :
    ∀ label ∈ chain ++ outer, ∀ start, label.start = some start → Passed after.lexer start := by
  intro label member start same
  rcases List.mem_append.mp member with inside | around
  · rw [(fresh.chain label inside).1, Option.some.injEq] at same
    exact same ▸ here
  · exact (fresh.outer label around start same).later grown

end Labeled

namespace Begins

variable {here wider : Lexer.State → Prop} {action first second : Parse Node}
  {next : α → Parse Node} {peek : Parse α}

theorem mono (begins : Begins law wider action) (implies : ∀ lexer, here lexer → wider lexer) :
    Begins law here action :=
  ⟨begins.steps, fun setting state chain outer under known =>
    begins.good setting state chain outer under (implies _ known)⟩

/-- What is lawful anywhere is a statement. -/
theorem ofFrom (yields : YieldsFrom law none (fun _ => here) True action (Node.Lawful law)) :
    Begins law here action where
  steps := yields.steps
  good setting state chain outer under known fresh node after ends within waiting enclosures _ := by
    obtain ⟨lawful, kept, labels⟩ :=
      yields.good setting state under known node after ends within .anywhere waiting trivial
    exact ⟨lawful enclosures, kept, chain, rfl, labels.trans fresh.labels⟩

/-- A statement that is yielded anywhere begins behind its labels. -/
theorem ofYields (yields : Yields law True action (Node.Lawful law)) : Begins law here action :=
  .ofFrom (.ofYields yields)

theorem ite {condition : Prop} [Decidable condition] (holds : condition → Begins law here first)
    (fails : ¬condition → Begins law here second) :
    Begins law here (if condition then first else second) := by
  split
  · exact holds ‹_›
  · exact fails ‹_›

/-- A step that leaves everything as it is may come first. -/
theorem still [plain : Plain peek] (same : ∀ setting state,
    Gives peek setting state fun _ after => after = state)
    (goesOn : ∀ value, Begins law here (next value)) : Begins law here (peek >>= next) where
  steps := plain.toSteps.bind fun value => (goesOn value).steps
  good setting state chain outer under known fresh := by
    rw [Gives.bind_iff]
    intro value middle begun
    rw [same setting state value middle begun]
    exact (goesOn value).good setting state chain outer under known fresh

/-- A look may come before a statement begins. -/
theorem look [Looks peek] (goesOn : ∀ value, Begins law here (next value)) :
    Begins law here (peek >>= next) := .still Looks.still goesOn

/-- What follows depends on the start of the current token. -/
theorem onMark {next : Mark → Parse Node}
    (goesOn : ∀ mark, Begins law (fun lexer => here lexer ∧ lexer.start = mark.pos) (next mark)) :
    Begins law here (mark >>= next) where
  steps := .step fun mark => (goesOn mark).steps
  good setting state chain outer under known fresh := by
    rw [Gives.bind_iff, gives_mark]
    exact (goesOn _).good setting state chain outer under ⟨known, rfl⟩ fresh

/-- What follows depends on the kind of the current token. -/
theorem onKind {next : Kind → Parse Node}
    (goesOn : ∀ kind, Begins law (fun lexer => here lexer ∧ lexer.kind = kind) (next kind)) :
    Begins law here (kind >>= next) where
  steps := .step fun kind => (goesOn kind).steps
  good setting state chain outer under known fresh := by
    rw [Gives.bind_iff, gives_kind]
    exact (goesOn _).good setting state chain outer under ⟨known, rfl⟩ fresh

/-- A statement begins one level deeper as it would elsewhere. -/
theorem nested (begins : Begins law here action) : Begins law here (nested action) where
  steps := nested_steps begins.steps
  good setting state chain outer under known fresh := by
    simp only [Grammar.nested, Gives.bind_iff, gives_modify, gives_get]
    refine gives_ite (fun _ => fun _ _ absent => by cases absent) fun _ => Gives.bind_iff.mpr ?_
    refine (begins.good setting { state with depth := state.depth + 1 } chain outer
      ⟨under.speaks, under.tracked, under.mode⟩ known
      ⟨fresh.labels, fresh.chain, fresh.outer⟩).mono fun node after met => ?_
    simp only [Gives.bind_iff, gives_modify, gives_pure]
    exact met

/-- A statement is entered with its first token, which may open something. -/
theorem enter {kind : Kind} (there : Lexer.Setting → Lexer.State → Prop) {rest : α → Parse Node}
    [plain : Plain peek] (first : ∀ lexer, here lexer → lexer.kind = kind)
    (passes : Passes kind peek)
    (leads : ∀ setting (state : State), state.lexer.Tracked setting.toSetting →
      here state.lexer →
        Gives peek setting state fun _ after => there setting.toSetting after.lexer)
    (loops : kind.isLoop = true → Ends (peek >>= rest) fun node => node.isLoop = true)
    (goesOn : ∀ value enclosures, YieldsFrom law (some (Kind.opened kind ++ enclosures)) there True
      (rest value) (Node.Follows law enclosures)) : Begins law here (peek >>= rest) where
  steps := .step fun value => (goesOn value []).steps
  good setting state chain outer under here fresh := by
    obtain rfl := first _ here
    rw [Gives.bind_iff]
    intro value middle passed node after ends within waiting enclosures labeled
    have grown := plain.extends_ setting state
    rw [passed] at grown
    have labels := plain.labels setting state value middle passed
    have settled : Settled (Kind.opened state.lexer.kind ++ enclosures) middle := by
      rw [fresh.labels] at labels
      have begun := passes setting state under.tracked rfl value middle passed
      refine ⟨labels ▸ fresh.passed begun grown, labels ▸ ?_⟩
      exact labeled.backed (fun label inside => (fresh.chain label inside).2)
        fun loop => Gives.bind_iff.mp (loops loop setting state) value middle passed node after ends
    rw [Waiting, ← plain.decorators setting state value middle passed] at waiting
    obtain ⟨follows, kept, same⟩ := (goesOn value enclosures).good setting middle
      (plain.under under value middle passed)
      (leads setting state under.tracked here value middle passed) node after ends within
      settled.stands waiting trivial
    exact ⟨follows, kept, chain, rfl, (same.trans labels).trans fresh.labels⟩

/-- What is known of the first token does not matter. -/
theorem enterAny {kind : Kind} {rest : α → Parse Node} [Plain peek] (passes : Passes kind peek)
    (loops : kind.isLoop = true → Ends (peek >>= rest) fun node => node.isLoop = true)
    (goesOn : ∀ value enclosures, YieldsIn law (Kind.opened kind ++ enclosures) True (rest value)
      (Node.Follows law enclosures)) :
    Begins law (fun lexer => lexer.kind = kind) (peek >>= rest) :=
  .enter (fun _ _ => True) (fun _ => id) passes (fun _ _ _ _ _ _ _ => trivial) loops
    fun value enclosures => .ofYields (goesOn value enclosures)

/-- A statement is entered that nothing can be aimed at. -/
theorem enterPlain {kind : Kind} {rest : α → Parse Node} [Plain peek]
    (quiet : Kind.target? kind = none) (passes : Passes kind peek)
    (goesOn : ∀ value enclosures, YieldsIn law enclosures True (rest value)
      (Node.Follows law enclosures)) :
    Begins law (fun lexer => lexer.kind = kind) (peek >>= rest) := by
  refine .enterAny passes (fun loop => ?_) fun value enclosures => ?_
  · simp [Kind.target?, loop] at quiet
  · rw [Kind.opened, quiet]
    exact goesOn value enclosures

/-- A statement is entered with a word that nothing can be aimed at. -/
theorem enterWord {kind : Kind} {rest : PUnit → Parse Node} (quiet : Kind.target? kind = none)
    (passes : Passes kind Grammar.next) (goesOn : ∀ enclosures, YieldsFrom law (some enclosures)
      (Lexer.State.After (Token.Starts kind start)) True (rest ⟨⟩) (Node.Follows law enclosures)) :
    Begins law (fun lexer => lexer.start = start ∧ lexer.kind = kind)
      (Grammar.next >>= rest) := by
  refine .enter (Lexer.State.After (Token.Starts kind start)) (fun _ => And.right) passes
    (fun setting state tracked known => ?_) (fun loop => ?_) fun _ enclosures => ?_
  · rw [Grammar.next, gives_lex]
    exact Lexer.next_after tracked ⟨known.2, known.1⟩
  · simp [Kind.target?, loop] at quiet
  · rw [Kind.opened, quiet]
    exact goesOn enclosures

/-- A loop is entered. -/
theorem enterLoop {kind : Kind} {rest : α → Parse Node} [Plain peek]
    (target : Kind.target? kind = some .loop) (passes : Passes kind peek)
    (loops : Ends (peek >>= rest) fun node => node.isLoop = true)
    (goesOn : ∀ value enclosures, YieldsIn law (.loop :: enclosures) True (rest value)
      (Node.Follows law enclosures)) :
    Begins law (fun lexer => lexer.kind = kind) (peek >>= rest) := by
  refine .enterAny passes (fun _ => loops) fun value enclosures => ?_
  rw [Kind.opened, target]
  exact goesOn value enclosures

/-- A step comes first after which the labels before the statement are like those around it. -/
theorem later {kind : Kind} {good : α → Prop} (quiet : Kind.target? kind = none)
    (passes : Passes kind peek) (yields : Yields law True peek good)
    (goesOn : ∀ value, Begins law (fun _ => True) (next value)) :
    Begins law (fun lexer => lexer.kind = kind) (peek >>= next) where
  steps := yields.steps.bind fun value => (goesOn value).steps
  good setting state chain outer under here fresh := by
    subst here
    rw [Gives.bind_iff]
    intro value middle begun node after ends within waiting enclosures labeled
    have grown := yields.steps.extends_ setting state
    rw [begun] at grown
    have still := yields.steps.under under value middle begun
    have inside := law.earlier ((goesOn value).steps.traces setting middle node after ends)
      still.tracked within
    obtain ⟨-, kept, labels⟩ :=
      yields.good setting state under value middle begun inside .anywhere waiting trivial
    have backed : Backed (chain ++ outer) enclosures := by
      have opened := labeled.backed (fun label inside => (fresh.chain label inside).2)
        fun loop => by simp [Kind.target?, loop] at quiet
      rwa [Kind.opened, quiet] at opened
    have settled : Fresh [] (chain ++ outer) middle :=
      ⟨labels.trans fresh.labels, nofun,
        fresh.passed (passes setting state under.tracked rfl value middle begun) grown⟩
    obtain ⟨follows, kept, others, empty, same⟩ := (goesOn value).good setting middle [] _ still
      trivial settled node after ends within kept enclosures
      ⟨backed.named, nofun, backed.known, backed.aims⟩
    rw [List.length_eq_zero_iff.mp empty, List.nil_append] at same
    exact ⟨follows, kept, chain, rfl, same⟩

/-- A declaration that a step may find comes instead of what follows. -/
theorem orElse {find : Parse (Option Node)} {rest : Parse Node}
    (yields : YieldsFrom law none (fun _ => here) True find (PartLawful law))
    (same : ∀ setting (state : State), Gives find setting state fun found after =>
      found = none → after = state)
    (goesOn : Begins law here rest) :
    Begins law here (find >>= fun found =>
      match found with
      | some declaration => pure declaration
      | none => rest) where
  steps := yields.steps.bind fun found => by
    cases found with
    | some declaration => exact .plain
    | none => exact goesOn.steps
  good setting state chain outer under known fresh := by
    rw [Gives.bind_iff]
    intro found middle begun
    cases found with
    | some declaration =>
        refine gives_pure.mpr fun within waiting enclosures _ => ?_
        obtain ⟨lawful, kept, labels⟩ := yields.good setting state under known _ middle begun within
          .anywhere waiting trivial
        exact ⟨lawful declaration rfl enclosures, kept, chain, rfl, labels.trans fresh.labels⟩
    | none =>
        rw [same setting state none middle begun rfl]
        exact goesOn.good setting state chain outer under known fresh

end Begins

end Grammar

end EcmaSyntax
