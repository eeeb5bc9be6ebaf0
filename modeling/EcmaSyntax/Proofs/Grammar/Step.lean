import EcmaSyntax.Proofs.Lexer.Frame
import EcmaSyntax.Proofs.Yield.Basic

namespace EcmaSyntax

/-- No node is given an empty list of comments after it. -/
def Attachments.Filled (attachments : Attachments) : Prop :=
  ∀ (id : NodeId) (attached : Attached), attachments[id]? = some attached →
    attached.trailing ≠ some []

theorem Attachments.filled_empty : Attachments.Filled {} := by
  intro id attached found
  simp at found

/-- The lists after nodes stay filled when one that is filled is added. -/
theorem Attachments.Filled.insert {attachments : Attachments} (filled : attachments.Filled)
    {id : NodeId} {attached : Attached} (full : attached.trailing ≠ some []) :
    Attachments.Filled (attachments.insert id attached) := by
  intro other found same
  rw [Std.TreeMap.getElem?_insert] at same
  split at same
  · rw [← Option.some.inj same]
    exact full
  · exact filled other found same

/-- A token of such a kind may be passed without a look at the constructs around it. -/
def Kind.isPassable (kind : Kind) : Bool := kind.isStill && kind != .eof && kind != .template

/-- Every keyword may be passed. -/
theorem Kind.isPassable_of_keyword? {kind : Kind} {word : String}
    (known : kind.keyword? = some word) : kind.isPassable = true := by
  cases kind <;> first | rfl | simp [keyword?, traits] at known

namespace Grammar

open Lexer (View Frame Over Nests)

/-- What holds of the state of a parse between any two of its steps: its reading has been
reached, and the current token is as the view has it. -/
structure Held (setting : Setting) (view : View) (state : State) : Prop where
  reached : Lexer.Reached setting.toSetting setting.options.startsStrict state.lexer
  here : view state.lexer.kind state.lexer.contexts
  filled : state.attachments.Filled

/-- A step leads from each state with one view of the current token to a state whose view
depends on its value. -/
def Leads {α : Type} (setting : Setting) (before : View) (action : Parse α) (after : α → View) :
    Prop :=
  ∀ state, Held setting before state →
    Meets action setting state fun value state => Held setting (after value) state

/-- The current token is of a kind. -/
def Here (kind : Kind) (view : View) : View := fun current contexts =>
  current = kind ∧ view current contexts

/-- A test tells whether the current token is of a kind. -/
def Tested (found : Bool) (kind : Kind) (view : View) : View := fun current contexts =>
  (found = true → current = kind) ∧ view current contexts

/-- A fact holds besides a view. -/
def With (fact : Prop) (view : View) : View := fun kind contexts => fact ∧ view kind contexts

/-- After a turn of a loop the next one may begin, or the loop ends. -/
def afterTurn {α β : Type} (invariant : α → View) (after : β → View) : Turn α β → View
  | .more gathered => invariant gathered
  | .done result => after result

variable {setting : Setting} {state : State} {view other : View} {α β : Type}

section Held

/-- The reading is sound wherever a parse has come. -/
theorem Held.sound (held : Held setting view state) : state.lexer.Sound setting.toSetting :=
  held.reached.sound

theorem Held.mono (held : Held setting view state)
    (implies : view state.lexer.kind state.lexer.contexts →
      other state.lexer.kind state.lexer.contexts) : Held setting other state :=
  ⟨held.reached, implies held.here, held.filled⟩

/-- A step that no reading of tokens is part of keeps any view. -/
theorem Held.mark {after : State} (held : Held setting view state)
    (marked : Lexer.Marked setting.options.startsStrict state.lexer after.lexer)
    (filled : after.attachments.Filled) : Held setting view after := by
  refine ⟨held.reached.mark marked, ?_, filled⟩
  obtain ⟨⟨strict, inType, leading, trailing, same⟩, -⟩ := marked
  rw [same]
  exact held.here

end Held

section Reads

variable {post : α → State → Prop}

theorem meets_lex {action : Lexer.Scan α} :
    Meets (lex action) setting state post ↔
      Meets action setting.toSetting state.lexer
        fun value lexer => post value { state with lexer := lexer } := by
  unfold Meets lex
  cases action setting.toSetting state.lexer <;> rfl

@[simp] theorem meets_raise {pos : Nat} {problem : Problem} :
    Meets (raise pos problem) setting state post ↔ True := by
  rw [raise, meets_lex, Lexer.meets_raise]

@[simp] theorem meets_unexpected : Meets unexpected setting state post ↔ True := by
  rw [unexpected, meets_lex, Lexer.meets_unexpected]

@[simp] theorem meets_unexpectedAt {pos : Nat} :
    Meets (unexpectedAt pos) setting state post ↔ True := by
  rw [unexpectedAt, meets_lex, Lexer.meets_unexpected]

theorem meets_tooDeep : Meets tooDeep setting state post := by
  simp only [tooDeep, Meets.bind_iff, meets_get, meets_throw]
  rfl

@[simp] theorem meets_kind {post : Kind → State → Prop} :
    Meets kind setting state post ↔ post state.lexer.kind state := Iff.rfl

@[simp] theorem meets_atKind {expected : Kind} {post : Bool → State → Prop} :
    Meets (atKind expected) setting state post ↔
      post (state.lexer.kind == expected) state := Iff.rfl

@[simp] theorem meets_valueText {post : String → State → Prop} :
    Meets valueText setting state post ↔
      post (state.lexer.value.text?.getD "") state := Iff.rfl

@[simp] theorem meets_valueNumber {post : Float → State → Prop} :
    Meets valueNumber setting state post ↔
      post (state.lexer.value.number?.getD (0.0 / 0.0)) state := Iff.rfl

@[simp] theorem meets_isStrict {post : Bool → State → Prop} :
    Meets isStrict setting state post ↔ post state.lexer.strict state := Iff.rfl

@[simp] theorem meets_hasTypes {post : Bool → State → Prop} :
    Meets hasTypes setting state post ↔ post setting.flow state := Iff.rfl

@[simp] theorem meets_atWord {word : String} {post : Bool → State → Prop} :
    Meets (atWord word) setting state post ↔
      post (state.lexer.kind == .name && state.lexer.value.text? == some word) state := Iff.rfl

@[simp] theorem meets_atAngle {bracket : String} {post : Bool → State → Prop} :
    Meets (atAngle bracket) setting state post ↔
      post (state.lexer.kind == .relational && state.lexer.value.text? == some bracket)
        state := Iff.rfl

end Reads

namespace Leads

variable {action first second : Parse α} {next : α → Parse β} {before middle stronger : View}
  {after final : α → View} {last : β → View}

/-- What a step needs of the view may be less than what is known. -/
theorem weaken (leads : Leads setting before action after)
    (implies : ∀ kind contexts, stronger kind contexts → before kind contexts) :
    Leads setting stronger action after := fun _ held =>
  leads _ (held.mono (implies _ _))

/-- Less may be said of the state that is led to. -/
theorem strengthen (leads : Leads setting before action after)
    (implies : ∀ value kind contexts, after value kind contexts → final value kind contexts) :
    Leads setting before action final := fun _ held =>
  (leads _ held).mono fun value _ met => met.mono (implies value _ _)

theorem bind (leads : Leads setting before action after)
    (goesOn : ∀ value, Leads setting (after value) (next value) last) :
    Leads setting before (action >>= next) last := fun _ held =>
  (leads _ held).bind fun value _ met => goesOn value _ met

/-- A step whose value does not matter for the view. -/
theorem via (middle : View) (leads : Leads setting before action fun _ => middle)
    (goesOn : ∀ value, Leads setting middle (next value) last) :
    Leads setting before (action >>= next) last := leads.bind goesOn

theorem pure {value : α} : Leads setting view (Pure.pure value) fun _ => view := fun _ held => held

/-- A value fulfils what is asked of it. -/
theorem give {value : α} (implies : ∀ kind contexts, view kind contexts →
    after value kind contexts) : Leads setting view (Pure.pure value) after := fun _ held =>
  held.mono (implies _ _)

theorem map {change : α → β} (leads : Leads setting before action fun _ => middle) :
    Leads setting before (change <$> action) fun _ => middle := fun _ held =>
  Meets.map_iff.mpr (leads _ held)

/-- A fact that is known besides the view. -/
theorem assume {fact : Prop} (leads : fact → Leads setting view action after) :
    Leads setting (With fact view) action after := fun _ held =>
  leads held.here.1 _ (held.mono And.right)

/-- What a view says of something is used for it. -/
theorem obtained {γ : Type} {of : γ → View}
    (each : ∀ known, Leads setting (of known) action after) :
    Leads setting (fun kind contexts => ∃ known, of known kind contexts) action after := by
  intro state held
  obtain ⟨known, here⟩ := held.here
  exact each known _ ⟨held.reached, here, held.filled⟩

/-- A step that only looks at the state or the setting. -/
theorem look [looking : Looks action] (each : ∀ value, Leads setting before (next value) last) :
    Leads setting before (action >>= next) last := by
  intro state held
  obtain ⟨value, same⟩ := looking.looks setting state
  rw [Meets.bind_iff, Meets, same]
  exact each value _ held

/-- What follows depends on the kind of the current token. -/
theorem onKind {next : Kind → Parse β}
    (each : ∀ current, Leads setting (Here current before) (next current) last) :
    Leads setting before (kind >>= next) last := fun _ held =>
  each _ _ ⟨held.reached, ⟨rfl, held.here⟩, held.filled⟩

/-- The kind of the current token is known. -/
theorem known {current : Kind} {next : Kind → Parse β}
    (leads : Leads setting (Here current before) (next current) last) :
    Leads setting (Here current before) (kind >>= next) last := by
  intro state held
  rw [Meets.bind_iff, meets_kind, held.here.1]
  exact leads _ held

/-- What follows depends on whether the current token is of a kind. -/
theorem ifAt {expected : Kind} {first second : Parse β}
    (holds : Leads setting (Here expected before) first last)
    (fails : Leads setting before second last) :
    Leads setting before
      (atKind expected >>= fun found => if found = true then first else second) last := by
  intro state held
  rw [Meets.bind_iff, meets_atKind]
  apply meets_ite
  · intro same
    exact holds _ ⟨held.reached, ⟨beq_iff_eq.mp same, held.here⟩, held.filled⟩
  · intro _
    exact fails _ held

/-- What follows depends on whether the current token is of a kind, and on more. -/
theorem test {expected : Kind} {next : Bool → Parse β}
    (each : ∀ found, Leads setting (Tested found expected before) (next found) last) :
    Leads setting before (atKind expected >>= next) last := fun _ held =>
  each _ _ ⟨held.reached, ⟨beq_iff_eq.mp, held.here⟩, held.filled⟩

/-- A test for a word tells that the current token is a name. -/
theorem testWord {word : String} {next : Bool → Parse β}
    (each : ∀ found, Leads setting (Tested found .name before) (next found) last) :
    Leads setting before (atWord word >>= next) last := by
  refine fun _ held => each _ _ ⟨held.reached, ⟨fun found => ?_, held.here⟩, held.filled⟩
  rw [Bool.and_eq_true, beq_iff_eq] at found
  exact found.1

/-- The test has found the current token to be of the kind. -/
theorem found {found : Bool} {expected : Kind} (known : found = true)
    (leads : Leads setting (Here expected before) action after) :
    Leads setting (Tested found expected before) action after :=
  leads.weaken fun _ _ tested => ⟨tested.1 known, tested.2⟩

/-- What the test has found does not matter any more. -/
theorem anyway {found : Bool} {expected : Kind} (leads : Leads setting before action after) :
    Leads setting (Tested found expected before) action after :=
  leads.weaken fun _ _ tested => tested.2

/-- Code that is strict from its start on is found to be strict. -/
theorem onStrict {next : Bool → Parse β}
    (each : ∀ strict, (setting.options.startsStrict = true → strict = true) →
      Leads setting before (next strict) last) :
    Leads setting before (isStrict >>= next) last := fun _ held =>
  each _ held.reached.strict _ held

theorem ite {condition : Prop} [Decidable condition]
    (holds : condition → Leads setting before first after)
    (fails : ¬condition → Leads setting before second after) :
    Leads setting before (if condition then first else second) after := fun _ held =>
  meets_ite (fun known => holds known _ held) fun known => fails known _ held

/-- A choice between two steps after which the parse goes on alike. -/
theorem choose {condition : Prop} [Decidable condition]
    (either : Leads setting before (if condition then first else second) after)
    (goesOn : ∀ value, Leads setting (after value) (next value) last) :
    Leads setting before (if condition then first >>= next else second >>= next) last := by
  intro state held
  rw [meets_ite_bind]
  exact either.bind goesOn _ held

/-- A step that is taken under a condition, after which the parse goes on alike. -/
theorem guard {condition : Prop} [Decidable condition] {check : Parse PUnit}
    {next : PUnit → Parse β} (checks : condition → Leads setting before check fun _ => before)
    (goesOn : Leads setting before (next ⟨⟩) last) :
    Leads setting before (if condition then check >>= next else next ⟨⟩) last :=
  ite (fun known => (checks known).bind fun _ => goesOn) fun _ => goesOn

/-- A problem that is raised leads nowhere. -/
theorem raise {pos : Nat} {problem : Problem} :
    Leads setting view (Grammar.raise pos problem) after :=
  fun _ _ => meets_raise.mpr trivial

theorem unexpected : Leads setting view Grammar.unexpected after :=
  fun _ _ => meets_unexpected.mpr trivial

/-- What would follow a failure is never reached. -/
theorem fail : Leads setting view (Grammar.unexpected >>= next) last :=
  fun _ _ => Meets.bind_iff.mpr (meets_unexpected.mpr trivial)

theorem failAt {pos : Nat} :
    Leads setting view (Grammar.unexpectedAt pos >>= next) last :=
  fun _ _ => Meets.bind_iff.mpr (meets_unexpectedAt.mpr trivial)

theorem unexpectedAt {pos : Nat} : Leads setting view (Grammar.unexpectedAt pos) after :=
  fun _ _ => meets_unexpectedAt.mpr trivial

/-- A change of what the reading of tokens does not see. -/
theorem alter {change : State → State}
    (lexer : ∀ state, (change state).lexer = state.lexer)
    (attachments : ∀ state, (change state).attachments = state.attachments) :
    Leads setting view (modify change) fun _ => view := by
  intro state held
  rw [meets_modify]
  refine ⟨?_, ?_, ?_⟩
  · rw [lexer]
    exact held.reached
  · rw [lexer]
    exact held.here
  · rw [attachments]
    exact held.filled

/-- Such a change does not matter to what comes next. -/
theorem change {change : State → State} {next : PUnit → Parse β}
    (lexer : ∀ state, (change state).lexer = state.lexer)
    (attachments : ∀ state, (change state).attachments = state.attachments)
    (goesOn : Leads setting view (next ⟨⟩) last) :
    Leads setting view (modify change >>= next) last :=
  (alter lexer attachments).bind fun _ => goesOn

/-- The state may go back to one that was reached before. -/
theorem restore {earlier : State} (held : Held setting view earlier) :
    Leads setting other (set earlier) fun _ => view := fun _ _ => held

/-- A trial that fails goes back to where it began. -/
theorem attempt {result : Option α → View} (steps : Steps action)
    (leads : Leads setting view action fun value => result (some value))
    (fails : ∀ kind contexts, view kind contexts → result none kind contexts) :
    Leads setting view (attempt action) result := by
  intro state held
  have met := leads _ held
  unfold Meets at met ⊢
  unfold Grammar.attempt
  split at met
  · next same =>
      rw [same]
      exact met
  · next failure failed same =>
      rw [same]
      cases failure with
      | syntaxError error =>
          change Held setting (result none) (failed.rolledBack state)
          rw [steps.rolledBack same]
          exact ⟨held.reached, fails _ _ held.here, held.filled⟩
      | nestingTooDeep pos loc => exact met
      | fault reason => exact met

/-- A construct one level deeper leads where it leads by itself. -/
theorem nested (leads : Leads setting before action after) :
    Leads setting before (Grammar.nested action) after := by
  intro state held
  simp only [Grammar.nested, Meets.bind_iff, meets_modify, meets_get]
  apply meets_ite
  · intro deep
    exact meets_tooDeep
  · intro shallow
    have deeper : Held setting before { state with depth := state.depth + 1 } :=
      ⟨held.reached, held.here, held.filled⟩
    refine (leads _ deeper).bind ?_
    intro value last met
    exact ⟨met.reached, met.here, met.filled⟩

/-- A loop keeps what each of its turns keeps, until the last one ends it. -/
theorem loopUntil (invariant : α → State → Prop) (ends : β → State → Prop) {start : α}
    {turn : α → Parse (Turn α β)}
    (turns : ∀ gathered state, invariant gathered state →
      Meets (turn gathered) setting state fun turned state =>
        match turned with
        | .more next => invariant next state
        | .done result => ends result state)
    (begins : invariant start state) :
    Meets (Grammar.loop start turn) setting state ends := by
  rw [Grammar.loop, Meets.bind_iff, meets_read]
  refine loopWithin_induction (fun gathered action => ∀ state, invariant gathered state →
    Meets action setting state ends) (fun _ _ _ => meets_tooDeep)
    (fun gathered rest goesOn state known => ?_) _ start _ begins
  refine (turns gathered state known).bind fun turned last met => ?_
  cases turned with
  | more next => exact goesOn next last met
  | done result => exact met

/-- A loop keeps its invariant from turn to turn. -/
theorem loop (invariant : α → View) {start : α} {turn : α → Parse (Turn α β)}
    (turns : ∀ gathered,
      Leads setting (invariant gathered) (turn gathered) (afterTurn invariant last)) :
    Leads setting (invariant start) (Grammar.loop start turn) last := by
  intro state held
  refine loopUntil (fun gathered => Held setting (invariant gathered))
    (fun result => Held setting (last result)) (fun gathered _ held => ?_) held
  refine (turns gathered _ held).mono ?_
  intro turned _ met
  cases turned with
  | more next => exact met
  | done result => exact met

/-- A loop whose turns all stand in the same view. -/
theorem loops {start : α} {turn : α → Parse (Turn α β)}
    (turns : ∀ gathered,
      Leads setting view (turn gathered) (afterTurn (fun _ => view) last)) :
    Leads setting view (Grammar.loop start turn) last := loop (fun _ => view) turns

/-- A turn that goes on keeps the invariant. -/
theorem more {gathered : α} :
    Leads setting view (Pure.pure (Turn.more gathered)) (afterTurn (fun _ => view) last) :=
  fun _ held => held

/-- The last turn gives what the loop results in. -/
theorem done {invariant : α → View} {result : β} :
    Leads setting view (Pure.pure (Turn.done result)) (afterTurn invariant fun _ => view) :=
  fun _ held => held

end Leads

end Grammar

end EcmaSyntax
