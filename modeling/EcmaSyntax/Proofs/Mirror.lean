import EcmaSyntax.Proofs.Outcome

namespace EcmaSyntax

variable {Setting State α β : Type}

/-- A second run follows a first one: when the first succeeds, the second succeeds too and the
two results are related, unless the second ends in a fault. -/
def Follows (first second : ReaderT Setting (EStateM Failure State) α) (setting : Setting)
    (state beside : State) (post : α → State → α → State → Prop) : Prop :=
  match first setting state, second setting beside with
  | .ok value after, .ok other later => post value after other later
  | .ok _ _, .error failure _ => failure.isFault = true
  | .error _ _, _ => True

/-- Two runs of a step come to the same value, and related states lead to related states. -/
def Mirrors (setting : Setting) (before after : State → State → Prop)
    (action : ReaderT Setting (EStateM Failure State) α) : Prop :=
  ∀ state beside, before state beside → Follows action action setting state beside
    fun value last other later => value = other ∧ after last later

/-- So do they unless the first run comes to an exception. -/
def MirrorsUnless (excepted : State → Prop) (setting : Setting)
    (before after : State → State → Prop)
    (action : ReaderT Setting (EStateM Failure State) α) : Prop :=
  ∀ state beside, before state beside → Gives action setting state fun _ last => ¬excepted last →
    Follows action action setting state beside
      fun value last other later => value = other ∧ after last later

namespace Follows

variable {first second : ReaderT Setting (EStateM Failure State) α}
  {next later : α → ReaderT Setting (EStateM Failure State) β}
  {setting : Setting} {state beside : State} {post weaker : α → State → α → State → Prop}
  {final : β → State → β → State → Prop}

/-- The second of two steps goes on from what the first one has come to. -/
theorem bind (follows : Follows first second setting state beside post)
    (goesOn : ∀ value last other final', post value last other final' →
      Follows (next value) (later other) setting last final' final) :
    Follows (first >>= next) (second >>= later) setting state beside final := by
  change (match EStateM.bind (first setting) (fun value => next value setting) state,
      EStateM.bind (second setting) (fun value => later value setting) beside with
    | .ok value after, .ok other last => final value after other last
    | .ok _ _, .error failure _ => failure.isFault = true
    | .error _ _, _ => True)
  unfold Follows at follows
  unfold EStateM.bind
  cases one : first setting state with
  | error failure last => trivial
  | ok value last =>
      rw [one] at follows
      cases two : second setting beside with
      | error failure other =>
          rw [two] at follows
          simp only
          split
          · next same => simp at same
          · next same =>
              rw [← (EStateM.Result.error.inj same).1]
              exact follows
          · trivial
      | ok other final' =>
          rw [two] at follows
          exact goesOn _ _ _ _ follows

theorem get {next later : State → ReaderT Setting (EStateM Failure State) β}
    (follows : Follows (next state) (later beside) setting state beside final) :
    Follows (MonadState.get >>= next) (MonadState.get >>= later) setting state beside final :=
  follows

theorem ite {condition : Prop} [Decidable condition]
    {other same : ReaderT Setting (EStateM Failure State) α}
    (holds : condition → Follows first second setting state beside post)
    (fails : ¬condition → Follows other same setting state beside post) :
    Follows (if condition then first else other) (if condition then second else same) setting
      state beside post := by
  by_cases known : condition
  · rw [if_pos known, if_pos known]
    exact holds known
  · rw [if_neg known, if_neg known]
    exact fails known

/-- Two runs that succeed follow each other if their results are as they should be. -/
theorem succeeds {value other : α} {last final : State}
    (one : first setting state = .ok value last) (two : second setting beside = .ok other final)
    (fulfilled : post value last other final) :
    Follows first second setting state beside post := by
  unfold Follows
  rw [one, two]
  exact fulfilled

/-- A run that fails has nothing to be followed in. -/
theorem failed {failure : Failure} {last : State}
    (fails : first setting state = .error failure last) :
    Follows first second setting state beside post := by
  unfold Follows
  rw [fails]
  trivial

/-- Of two runs that follow each other and succeed, the results are as they should be. -/
theorem both (follows : Follows first second setting state beside post) {value other : α}
    {last final : State} (one : first setting state = .ok value last)
    (two : second setting beside = .ok other final) : post value last other final := by
  unfold Follows at follows
  rw [one, two] at follows
  exact follows

/-- What the first run has come to may be named. -/
theorem named (follows : Follows first second setting state beside post) {value : α}
    {last : State} (success : first setting state = .ok value last) :
    Follows first second setting state beside fun same after other later =>
      (same = value ∧ after = last) ∧ post value last other later := by
  unfold Follows at follows ⊢
  rw [success] at follows ⊢
  cases known : second setting beside with
  | ok other later =>
      rw [known] at follows
      exact ⟨⟨rfl, rfl⟩, follows⟩
  | error failure later =>
      rw [known] at follows
      exact follows

/-- What follows a success, and ends in no fault, is a success. -/
theorem of_ok (follows : Follows first second setting state beside post) {value : α}
    {last : State} (success : first setting state = .ok value last)
    (met : Meets second setting beside fun _ _ => True) :
    ∃ other final, second setting beside = .ok other final ∧ post value last other final := by
  unfold Follows at follows
  rw [success] at follows
  cases same : second setting beside with
  | ok other final =>
      rw [same] at follows
      exact ⟨other, final, rfl, follows⟩
  | error failure final =>
      rw [same] at follows
      change failure.isFault = true at follows
      rw [met.not_fault same] at follows
      simp at follows

end Follows

namespace Mirrors

variable {setting : Setting} {before middle after : State → State → Prop}
  {action : ReaderT Setting (EStateM Failure State) α}
  {next : α → ReaderT Setting (EStateM Failure State) β}

theorem bind (first : Mirrors setting before middle action)
    (second : ∀ value, Mirrors setting middle after (next value)) :
    Mirrors setting before after (action >>= next) := by
  intro state beside related
  refine (first state beside related).bind ?_
  rintro value last _ final ⟨rfl, related⟩
  exact second value last final related

theorem strengthen {stronger : State → State → Prop} (mirrors : Mirrors setting before after action)
    (implies : ∀ state beside, stronger state beside → before state beside) :
    Mirrors setting stronger after action :=
  fun state beside related => mirrors state beside (implies state beside related)

/-- Two runs that have come to the same value may go on in their own ways. -/
theorem andThen {later : α → ReaderT Setting (EStateM Failure State) β}
    {post : β → State → β → State → Prop} (first : Mirrors setting before middle action)
    (goesOn : ∀ value state beside, middle state beside →
      Follows (next value) (later value) setting state beside post) :
    ∀ state beside, before state beside →
      Follows (action >>= next) (action >>= later) setting state beside post := by
  intro state beside related
  refine (first state beside related).bind ?_
  rintro value last _ final ⟨rfl, related⟩
  exact goesOn value last final related

theorem pure (value : α) : Mirrors setting before before (Pure.pure value) :=
  fun _ _ related => ⟨rfl, related⟩

theorem ite {condition : Prop} [Decidable condition]
    {other : ReaderT Setting (EStateM Failure State) α}
    (holds : condition → Mirrors setting before after action)
    (fails : ¬condition → Mirrors setting before after other) :
    Mirrors setting before after (if condition then action else other) := by
  split
  · exact holds ‹_›
  · exact fails ‹_›

/-- What is read of the state is the same in both runs. -/
theorem get {next : State → ReaderT Setting (EStateM Failure State) β}
    (same : ∀ state beside, before state beside → next state = next beside)
    (goesOn : ∀ state, Mirrors setting before after (next state)) :
    Mirrors setting before after (MonadState.get >>= next) := by
  intro state beside related
  have follows := goesOn state state beside related
  change Follows (next state) (next beside) setting state beside _
  rw [← same state beside related]
  exact follows

theorem modify {change : State → State}
    (related : ∀ state beside, before state beside → after (change state) (change beside)) :
    Mirrors setting before after (modify change) :=
  fun state beside begins => ⟨rfl, related state beside begins⟩

theorem read {next : Setting → ReaderT Setting (EStateM Failure State) β}
    (goesOn : Mirrors setting before after (next setting)) :
    Mirrors setting before after (MonadReader.read >>= next) := goesOn

/-- Of a step that always fails no run has to be followed. -/
theorem stops (failing : ∀ state, ∃ failure last, action setting state = .error failure last) :
    Mirrors setting before after action := by
  intro state beside related
  obtain ⟨failure, last, failed⟩ := failing state
  exact .failed failed

end Mirrors

section Unless

variable {excepted : State → Prop} {setting : Setting} {before middle after : State → State → Prop}
  {action : ReaderT Setting (EStateM Failure State) α}
  {next : α → ReaderT Setting (EStateM Failure State) β}

/-- Runs that always mirror each other also do so unless something is excepted. -/
theorem Mirrors.unless (mirrors : Mirrors setting before after action) :
    MirrorsUnless excepted setting before after action :=
  fun state beside related _ _ _ _ => mirrors state beside related

namespace MirrorsUnless

/-- An exception is what the second of two steps ends in. -/
theorem bind (first : Mirrors setting before middle action)
    (second : ∀ value, MirrorsUnless excepted setting middle after (next value)) :
    MirrorsUnless excepted setting before after (action >>= next) := by
  intro state beside related
  rw [Gives.bind_iff]
  intro value last ran final ended goesOn kept
  refine ((first state beside related).named ran).bind ?_
  rintro _ _ _ later ⟨⟨rfl, rfl⟩, rfl, related⟩
  exact second _ _ later related final ended goesOn kept

theorem ite {condition : Prop} [Decidable condition]
    {other : ReaderT Setting (EStateM Failure State) α}
    (holds : condition → MirrorsUnless excepted setting before after action)
    (fails : ¬condition → MirrorsUnless excepted setting before after other) :
    MirrorsUnless excepted setting before after (if condition then action else other) := by
  split
  · exact holds ‹_›
  · exact fails ‹_›

/-- What is read of the state is the same in both runs. -/
theorem get {next : State → ReaderT Setting (EStateM Failure State) β}
    (same : ∀ state beside, before state beside → next state = next beside)
    (goesOn : ∀ state, MirrorsUnless excepted setting before after (next state)) :
    MirrorsUnless excepted setting before after (MonadState.get >>= next) := by
  intro state beside related value last ran kept
  have follows := goesOn state state beside related value last ran kept
  change Follows (next state) (next beside) setting state beside _
  rw [← same state beside related]
  exact follows

theorem read {next : Setting → ReaderT Setting (EStateM Failure State) β}
    (goesOn : MirrorsUnless excepted setting before after (next setting)) :
    MirrorsUnless excepted setting before after (MonadReader.read >>= next) := goesOn

/-- The two runs may part where the first one comes to an exception. -/
theorem parts {condition : State → Prop} [DecidablePred condition]
    {other : ReaderT Setting (EStateM Failure State) α}
    (later : ∀ state beside, before state beside → condition beside → condition state)
    (ends : ∀ state, condition state → Gives action setting state fun _ last => excepted last)
    (goesOn : MirrorsUnless excepted setting before after other) :
    MirrorsUnless excepted setting before after (do
      let state ← MonadState.get
      if condition state then action else other) := by
  intro state beside related value last ran kept
  refine .get ?_
  change (if condition state then action else other) setting state = .ok value last at ran
  by_cases holds : condition state
  · rw [if_pos holds] at ran
    exact absurd (ends state holds value last ran) kept
  · rw [if_neg holds] at ran ⊢
    rw [if_neg fun there => holds (later state beside related there)]
    exact goesOn state beside related value last ran kept

end MirrorsUnless

end Unless

end EcmaSyntax
