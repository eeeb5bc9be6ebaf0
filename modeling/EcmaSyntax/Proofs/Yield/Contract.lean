import EcmaSyntax.Proofs.Yield.Basic
import EcmaSyntax.Proofs.Yield.Law

namespace EcmaSyntax

namespace Grammar

variable {α β γ : Type}

/-- Nodes that a parse holds are lawful. -/
abbrev AllLawful (law : Law) : List Node → Prop := Every (Node.Lawful law)

/-- A node that a parse may hold is lawful. -/
abbrev PartLawful (law : Law) : Option Node → Prop := Maybe (Node.Lawful law)

/-- The elements of a list that are no holes are lawful. -/
abbrev SlotsLawful (law : Law) : List (Option Node) → Prop := Slots (Node.Lawful law)

/-- Expressions are lawful, or may still be read as patterns. -/
abbrev AllCovers (law : Law) : List Node → Prop := Every (Node.Covers law)

/-- The elements of a list that are no holes are lawful, or may still be read as patterns. -/
abbrev SlotsCovers (law : Law) : List (Option Node) → Prop := Slots (Node.Covers law)

/-- The decorators that wait for their class were lawful where they were read. -/
abbrev Waiting (law : Law) (state : State) : Prop := Every (Node.Somewhere law) state.decorators

/-- The mode of code in a language with types or without. -/
def Flags.mode (flags : Flags) (types : Bool) : Mode := ⟨flags.strict, flags.inGenerator, types⟩

/-- The mode of the code after a state. -/
abbrev State.mode (state : State) (types : Bool) : Mode := state.flags.mode types

/-- The law speaks of the code after a state. -/
structure State.Under (law : Law) (setting : Setting) (state : State) : Prop where
  speaks : law.speaks setting.toSetting
  tracked : state.lexer.Tracked setting.toSetting
  mode : state.mode setting.flow = law.mode

/-- What a jump may be aimed at through a label of a target. -/
def LabelTarget.enclosure : LabelTarget → Enclosure
  | .loop => .loop
  | .switch => .switch

/-- The labels that a parse knows of are those that stand around: a jump that a label allows has
an aim, and no name is forgotten. -/
structure Backed (labels : List Label) (enclosures : List Enclosure) : Prop where
  named : ∀ name loops, .label name loops ∈ enclosures → ∃ label ∈ labels, label.name = some name
  known : ∀ label ∈ labels, ∀ name, label.name = some name →
    ∃ loops, .label name loops ∈ enclosures ∧ (label.target = some .loop → loops = true)
  aims : ∀ label ∈ labels, ∀ target, label.target = some target → target.enclosure ∈ enclosures

/-- A token has been passed which started at an offset, and which has a text. -/
def Passed (lexer : Lexer.State) (start : Nat) : Prop :=
  ∃ token ∈ lexer.recorded, token.start = start ∧ token.kind ≠ .eof ∧ token.kind ≠ .template

/-- The statements after the labels that a parse knows of have begun before the current token. -/
structure Settled (enclosures : List Enclosure) (state : State) : Prop where
  passed : ∀ label ∈ state.labels, ∀ start, label.start = some start → Passed state.lexer start
  backed : Backed state.labels enclosures

/-- If it is known what stands around a state, its labels are settled. -/
def Stands (place : Option (List Enclosure)) (state : State) : Prop :=
  ∀ enclosures ∈ place, Settled enclosures state

/-- A step leaves the code that the law speaks of what it is. -/
theorem Steps.under {law : Law} {action : Parse α} (steps : Steps action) {setting : Setting}
    {state : State} (under : state.Under law setting) :
    Gives action setting state fun _ after => after.Under law setting := fun value after ends =>
  ⟨under.speaks, (steps.traces setting state value after ends).tracked under.tracked,
    (congrArg (Flags.mode · _) (steps.flags setting state value after ends)).trans under.mode⟩

/-- If a step succeeds, begun in code and at a place where something is given, its value is good, as
long as the tokens that have been read by then are those that the law speaks of. The decorators that
wait stay lawful, and the labels stay as they are. -/
structure YieldsAt (law : Law) (place : Option (List Enclosure)) (given : Prop) (action : Parse α)
    (good : α → Prop) : Prop where
  steps : Steps action
  good : ∀ setting (state : State), state.Under law setting →
    Gives action setting state fun value after =>
      law.within after.lexer → Stands place state → Waiting law state → given →
        good value ∧ Waiting law after ∧ after.labels = state.labels

/-- A step yields good values wherever it is taken. -/
abbrev Yields (law : Law) (given : Prop) (action : Parse α) (good : α → Prop) : Prop :=
  YieldsAt law none given action good

/-- A step yields good values, given what stands around it. -/
abbrev YieldsIn (law : Law) (enclosures : List Enclosure) (given : Prop) (action : Parse α)
    (good : α → Prop) : Prop :=
  YieldsAt law (some enclosures) given action good

section Place

variable {place : Option (List Enclosure)} {enclosures : List Enclosure} {state after : State}
  {lexer last : Lexer.State} {start : Nat}

/-- A token that has been passed stays so. -/
theorem Passed.later (passed : Passed lexer start) (grown : lexer.Extends last) :
    Passed last start := by
  obtain ⟨token, member, known⟩ := passed
  refine ⟨token, ?_, known⟩
  rw [Lexer.State.recorded, List.mem_reverse] at member ⊢
  exact (grown.entries.filterMap _).subset member

/-- What stands around a state stands around later ones. -/
theorem Stands.later (stands : Stands place state) (grown : state.lexer.Extends after.lexer)
    (labels : after.labels = state.labels) : Stands place after := by
  intro enclosures known
  obtain ⟨passed, backed⟩ := stands enclosures known
  refine ⟨fun label member start same => ?_, labels ▸ backed⟩
  exact (passed label (labels ▸ member) start same).later grown

theorem Stands.anywhere : Stands none state := nofun

/-- Labels that are settled stand around. -/
theorem Settled.stands (settled : Settled enclosures state) : Stands (some enclosures) state := by
  rintro _ ⟨rfl⟩
  exact settled

/-- Where no labels are known, nothing stands around. -/
theorem Settled.unlabeled (none : state.labels = []) : Settled [] state := by
  refine ⟨?_, ⟨?_, ?_, ?_⟩⟩ <;> simp [none]

end Place

namespace YieldsAt

variable {law : Law} {place : Option (List Enclosure)} {given stronger : Prop}
  {action first second : Parse α} {next : α → Parse β} {good better : α → Prop} {final : β → Prop}

/-- What is yielded anywhere is yielded in a place. -/
theorem ofAnywhere (yields : Yields law given action good) : YieldsAt law place given action good :=
  ⟨yields.steps, fun setting state under value after ends within _ =>
    yields.good setting state under value after ends within .anywhere⟩

/-- How a step reads does not depend on what is given. -/
theorem advances {action : Parse α} (yields : YieldsAt law place False action good) :
    Advances action := yields.steps.toAdvances

/-- More may be given, and less asked for. -/
theorem mono (yields : YieldsAt law place given action good) (implied : stronger → given)
    (implies : ∀ value, good value → better value) : YieldsAt law place stronger action better where
  steps := yields.steps
  good setting state under value after ends within stands waiting known :=
    (yields.good setting state under value after ends within stands waiting
      (implied known)).imp_left (implies value)

/-- What is given also helps to tell that a value is better. -/
theorem refine (yields : YieldsAt law place given action good)
    (implies : ∀ value, given → good value → better value) :
    YieldsAt law place given action better where
  steps := yields.steps
  good setting state under value after ends within stands waiting known :=
    (yields.good setting state under value after ends within stands waiting known).imp_left
      (implies value known)

/-- What a step ends with because of what is given is known, too. -/
theorem learn {fact : α → Prop} (yields : YieldsAt law place given action good)
    (ends : given → Ends action fact) :
    YieldsAt law place given action fun value => good value ∧ fact value where
  steps := yields.steps
  good setting state under value after ended within stands waiting known :=
    (yields.good setting state under value after ended within stands waiting known).imp_left
      fun good => ⟨good, ends known setting state value after ended⟩

/-- What a step ends with wherever it begins is known anyway. -/
theorem also {fact : α → Prop} (ends : Ends action fact)
    (yields : YieldsAt law place given action good) :
    YieldsAt law place given action fun value => good value ∧ fact value :=
  yields.learn fun _ => ends

/-- What a step ends with in a language without types is known, too, if the law speaks only of
such. -/
theorem learnUntyped {fact : α → Prop} (yields : YieldsAt law place given action good)
    (ends : given → ∀ setting state, setting.flow = false →
      Gives action setting state fun value _ => fact value) :
    YieldsAt law place given action fun value => good value ∧ (law.untyped → fact value) where
  steps := yields.steps
  good setting state under value after ended within stands waiting known :=
    (yields.good setting state under value after ended within stands waiting known).imp_left
      fun good => ⟨good, fun untyped => ends known setting state
        (law.silent untyped under.speaks) value after ended⟩

/-- What is known of a value for two reasons is known together. -/
theorem and (yields : YieldsAt law place given action good)
    (others : YieldsAt law place given action better) :
    YieldsAt law place given action fun value => good value ∧ better value where
  steps := yields.steps
  good setting state under value after ends within stands waiting known := by
    obtain ⟨good, kept⟩ :=
      yields.good setting state under value after ends within stands waiting known
    exact ⟨⟨good,
      (others.good setting state under value after ends within stands waiting known).1⟩, kept⟩

theorem weaken (yields : YieldsAt law place given action good)
    (implies : ∀ value, good value → better value) : YieldsAt law place given action better :=
  yields.mono id implies

/-- Nothing more than what a step asks for is of use to it. -/
theorem ofGiven (yields : YieldsAt law place given action good) (implied : stronger → given) :
    YieldsAt law place stronger action good :=
  yields.mono implied fun _ holds => holds

/-- The second of two steps is also given what the first one yields. -/
theorem bind (begins : YieldsAt law place given action good)
    (goesOn : ∀ value, YieldsAt law place (given ∧ good value) (next value) final) :
    YieldsAt law place given (action >>= next) final where
  steps := begins.steps.bind fun value => (goesOn value).steps
  good setting state under := by
    rw [Gives.bind_iff]
    intro value middle begun last after ends within stands waiting known
    have later := (goesOn value).steps.traces setting middle last after ends
    have still := begins.steps.under under value middle begun
    have grown := begins.steps.extends_ setting state
    rw [begun] at grown
    obtain ⟨good, ordered, labels⟩ := begins.good setting state under value middle begun
      (law.earlier later still.tracked within) stands waiting known
    obtain ⟨better, lawful, same⟩ := (goesOn value).good setting middle still last after ends
      within (stands.later grown labels) ordered ⟨known, good⟩
    exact ⟨better, lawful, same.trans labels⟩

/-- What the first of two steps yields is named. -/
theorem via (good : α → Prop) (begins : YieldsAt law place given action good)
    (goesOn : ∀ value, YieldsAt law place (given ∧ good value) (next value) final) :
    YieldsAt law place given (action >>= next) final := begins.bind goesOn

/-- What is yielded anywhere comes first. -/
theorem read (begins : Yields law given action good)
    (goesOn : ∀ value, YieldsAt law place (given ∧ good value) (next value) final) :
    YieldsAt law place given (action >>= next) final := begins.ofAnywhere.bind goesOn

/-- A plain step yields nothing. -/
theorem plain [plain : Plain action] : YieldsAt law place given action fun _ => True where
  steps := plain.toSteps
  good setting state _ value after ends _ _ waiting _ :=
    ⟨trivial, by rwa [Waiting, plain.decorators setting state value after ends],
      plain.labels setting state value after ends⟩

/-- The value of a step does not matter. -/
theorem after {any : α → Prop} (begins : YieldsAt law place given action any)
    (goesOn : ∀ value, YieldsAt law place given (next value) final) :
    YieldsAt law place given (action >>= next) final :=
  begins.bind fun value => (goesOn value).ofGiven And.left

/-- A plain step comes first. -/
theorem step [Plain action] (goesOn : ∀ value, YieldsAt law place given (next value) final) :
    YieldsAt law place given (action >>= next) final :=
  plain.after goesOn

/-- A value that is known goes on as it is. -/
theorem value {value : α} (goesOn : YieldsAt law place given (next value) final) :
    YieldsAt law place given (Pure.pure value >>= next) final := by
  rw [pure_bind]
  exact goesOn

theorem pure {value : α} (holds : given → good value) :
    YieldsAt law place given (Pure.pure value) good where
  steps := (inferInstance : Plain (Pure.pure value)).toSteps
  good _ _ _ := gives_pure.mpr fun _ _ waiting known => ⟨holds known, waiting, rfl⟩

theorem map {change : α → β} (yields : YieldsAt law place given action good)
    (implies : ∀ value, good value → final (change value)) :
    YieldsAt law place given (change <$> action) final := by
  rw [map_eq_pure_bind]
  exact yields.bind fun value => .pure fun known => implies value known.2

theorem ite {condition : Prop} [Decidable condition]
    (holds : condition → YieldsAt law place given first good)
    (fails : ¬condition → YieldsAt law place given second good) :
    YieldsAt law place given (if condition then first else second) good := by
  split
  · exact holds ‹_›
  · exact fails ‹_›

/-- A choice between two steps after which the parse goes on alike. -/
theorem choose {condition : Prop} [Decidable condition] (good : α → Prop)
    (either : YieldsAt law place given (if condition then first else second) good)
    (goesOn : ∀ value, YieldsAt law place (given ∧ good value) (next value) final) :
    YieldsAt law place given (if condition then first >>= next else second >>= next) final := by
  rw [← ite_bind]
  exact either.bind goesOn

/-- A step that is taken under a condition, after which the parse goes on alike. -/
theorem guard {condition : Prop} [Decidable condition] {check : Parse PUnit}
    {next : PUnit → Parse β} [Plain check] (goesOn : YieldsAt law place given (next ⟨⟩) final) :
    YieldsAt law place given (if condition then check >>= next else next ⟨⟩) final :=
  ite (fun _ => .step fun _ => goesOn) fun _ => goesOn

/-- A step that never succeeds yields anything. -/
theorem never [plain : Plain action]
    (fails : ∀ setting state, Gives action setting state fun _ _ => False) :
    YieldsAt law place given action good :=
  ⟨plain.toSteps, fun setting state _ value after ends =>
    (fails setting state value after ends).elim⟩

theorem raise {pos : Nat} {problem : Problem} :
    YieldsAt law place given (Grammar.raise pos problem) good := .never fun _ _ _ _ absent => by
  cases absent

theorem unexpected : YieldsAt law place given Grammar.unexpected good :=
  .never fun _ _ _ _ absent => by cases absent

theorem unexpectedAt {pos : Nat} : YieldsAt law place given (Grammar.unexpectedAt pos) good :=
  .never fun _ _ _ _ absent => by cases absent

theorem tooDeep : YieldsAt law place given Grammar.tooDeep good :=
  .never fun _ _ _ _ absent => by cases absent

/-- What would follow a failure is never reached. -/
theorem fail {next : α → Parse β} :
    YieldsAt law place given (Grammar.unexpected >>= next) final :=
  (unexpected : YieldsAt law place given Grammar.unexpected final)

theorem raised {pos : Nat} {problem : Problem} {next : α → Parse β} :
    YieldsAt law place given (Grammar.raise pos problem >>= next) final :=
  (raise : YieldsAt law place given (Grammar.raise pos problem) final)

theorem failAt {pos : Nat} {next : α → Parse β} :
    YieldsAt law place given (Grammar.unexpectedAt pos >>= next) final :=
  (unexpectedAt : YieldsAt law place given (Grammar.unexpectedAt pos) final)

/-- A change of what neither the reading of tokens nor the law sees comes first. -/
theorem change {change : State → State} {next : PUnit → Parse β}
    (notes : ∀ state : State, state.Notes (change state))
    (flags : ∀ state, (change state).flags = state.flags)
    (decorators : ∀ state, (change state).decorators = state.decorators)
    (labels : ∀ state, (change state).labels = state.labels)
    (goesOn : YieldsAt law place given (next ⟨⟩) final) :
    YieldsAt law place given (modify change >>= next) final :=
  have := Plain.modify notes flags decorators labels
  .step fun _ => goesOn

/-- A loop yields what its last turn yields, given that each turn keeps to an invariant. -/
theorem loop (invariant : α → Prop) {start : α} {turn : α → Parse (Turn α β)}
    (begins : given → invariant start)
    (turns : ∀ gathered,
      YieldsAt law place (given ∧ invariant gathered) (turn gathered) (Turned invariant final)) :
    YieldsAt law place given (Grammar.loop start turn) final := by
  refine .step fun _ => .ofGiven (loopWithin_induction (fun gathered action =>
    YieldsAt law place (given ∧ invariant gathered) action final) (fun _ => tooDeep)
    (fun gathered rest goesOn => (turns gathered).bind fun turned => ?_) _ start)
      fun known => ⟨known, begins known⟩
  cases turned with
  | more next => exact (goesOn next).ofGiven fun known => ⟨known.1.1, known.2⟩
  | done result => exact .pure And.right

/-- A turn that goes on keeps what is known. -/
theorem more {invariant : α → Prop} {gathered : α} (holds : given → invariant gathered) :
    YieldsAt law place given (Pure.pure (Turn.more gathered)) (Turned invariant final) :=
  .pure holds

/-- The last turn yields what the loop is to yield. -/
theorem done {invariant : α → Prop} {result : β} (holds : given → final result) :
    YieldsAt law place given (Pure.pure (Turn.done result)) (Turned invariant final) :=
  .pure holds

/-- A trial yields what its step yields, or nothing. -/
theorem attempt (yields : YieldsAt law place given action good) :
    YieldsAt law place given (Grammar.attempt action) fun result =>
      ∀ value ∈ result, good value where
  steps := yields.steps.attempt
  good setting state under := by
    have yielded := yields.good setting state under
    intro result last ends within stands waiting known
    unfold Grammar.attempt at ends
    split at ends
    · next value after same =>
        cases ends
        obtain ⟨good, kept⟩ := yielded value last same within stands waiting known
        refine ⟨?_, kept⟩
        rintro _ ⟨rfl⟩
        exact good
    · next error after same =>
        cases ends
        rw [yields.steps.rolledBack same]
        exact ⟨nofun, waiting, rfl⟩
    · cases ends

/-- What is yielded by the rules for code of another mode is yielded where the code enters it. -/
theorem within {mode : Mode} {inner : Option (List Enclosure)} {enter : State → State}
    {leave : State → State → State} (scope : Scope enter leave)
    (entered : ∀ (state : State) types, state.mode types = law.mode →
      (enter state).mode types = mode)
    (stands : ∀ state, Stands place state → Stands inner (enter state))
    (yields : YieldsAt (law.under mode) inner given action good) :
    YieldsAt law place given (Grammar.within enter leave action) good where
  steps := yields.steps.within scope
  good setting state under := gives_within.mpr fun value after ends within known waiting holds => by
    have begun : (enter state).Under (law.under mode) setting :=
      ⟨under.speaks, (scope.entered state).beside.traces.tracked under.tracked, entered state _ under.mode⟩
    have traces := yields.steps.traces setting (enter state) value after ends
    obtain ⟨met, kept, labels⟩ := yields.good setting (enter state) begun value after ends
      (law.earlier (scope.left state after).beside.traces (traces.tracked begun.tracked) within)
      (stands state known) (by rwa [Waiting, scope.decorators]) holds
    exact ⟨met, by rwa [Waiting, scope.decorated], scope.labels state after labels⟩

/-- The place stays what it is where no labels are changed. -/
theorem inside {mode : Mode} {enter : State → State} {leave : State → State → State}
    (scope : Scope enter leave)
    (entered : ∀ (state : State) types, state.mode types = law.mode →
      (enter state).mode types = mode)
    (labels : ∀ state, (enter state).labels = state.labels)
    (yields : YieldsAt (law.under mode) place given action good) :
    YieldsAt law place given (Grammar.within enter leave action) good :=
  yields.within scope entered fun state stands =>
    stands.later (scope.entered state).beside.extends_ (labels state)

/-- What is changed on the way in may be set back before the parse goes on. -/
theorem between {mode : Mode} {enter : State → State} {leave : State → State → State}
    (scope : Scope enter leave)
    (entered : ∀ (state : State) types, state.mode types = law.mode →
      (enter state).mode types = mode)
    (labels : ∀ state, (enter state).labels = state.labels)
    (yields : YieldsAt (law.under mode) place given action good)
    (goesOn : ∀ value, YieldsAt law place (given ∧ good value) (next value) final) :
    YieldsAt law place given (do
      let before ← get
      modify enter
      let value ← action
      modify (leave before)
      next value) final := by
  have whole := (yields.inside scope entered labels).bind goesOn
  simpa only [Grammar.within, bind_assoc, pure_bind] using whole

/-- What a step yields it yields one level deeper, too. -/
theorem nested (yields : YieldsAt law place given action good) :
    YieldsAt law place given (Grammar.nested action) good := by
  rw [nested_eq]
  exact .inside .deeper (fun _ _ same => same) (fun _ => rfl) (.step fun _ => .guard yields)

end YieldsAt

end Grammar

end EcmaSyntax
