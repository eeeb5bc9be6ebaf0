import EcmaSyntax.Diagnostic

namespace EcmaSyntax

/-- A fault is no answer about a text. -/
def Failure.isFault : Failure → Bool
  | fault _ => true
  | _ => false

variable {Setting State α β : Type}

/-- The state in which a step ends, whether it succeeds or fails. -/
def lastState : EStateM.Result Failure State α → State
  | .ok _ last => last
  | .error _ last => last

/-- The state in which a step ends that succeeds. -/
def okState? : EStateM.Result Failure State α → Option State
  | .ok _ last => some last
  | .error _ _ => none

/-- A run that has a state after its success has succeeded. -/
theorem exists_ok_of_okState? {result : EStateM.Result Failure State α} {last : State}
    (known : okState? result = some last) : ∃ value, result = .ok value last := by
  cases result with
  | ok value after => exact ⟨value, congrArg _ (Option.some.inj known)⟩
  | error failure after => cases known

/-- The same outcome with a change to the state in which the step ends. -/
def overState (change : State → State) :
    EStateM.Result Failure State α → EStateM.Result Failure State α
  | .ok value last => .ok value (change last)
  | .error failure last => .error failure (change last)

/-- A step meets a condition: if it succeeds, its value and its state fulfil it, and if it
fails, the failure is no fault. -/
def Meets (action : ReaderT Setting (EStateM Failure State) α) (setting : Setting)
    (state : State) (post : α → State → Prop) : Prop :=
  match action setting state with
  | .ok value after => post value after
  | .error failure _ => failure.isFault = false

namespace Meets

variable {action : ReaderT Setting (EStateM Failure State) α}
  {next : α → ReaderT Setting (EStateM Failure State) β}
  {setting : Setting} {state : State} {post weaker : α → State → Prop}
  {final : β → State → Prop}

theorem mono (met : Meets action setting state post)
    (implies : ∀ value after, post value after → weaker value after) :
    Meets action setting state weaker := by
  unfold Meets at met ⊢
  split
  · next value after same =>
      rw [same] at met
      exact implies value after met
  · next failure after same =>
      rw [same] at met
      exact met

/-- A condition that is met holds of each success. -/
theorem of_ok (met : Meets action setting state post) {value : α} {after : State}
    (success : action setting state = .ok value after) : post value after := by
  unfold Meets at met
  rw [success] at met
  exact met

/-- A condition that is met is no fault. -/
theorem not_fault (met : Meets action setting state post) {failure : Failure} {after : State}
    (failed : action setting state = .error failure after) : failure.isFault = false := by
  unfold Meets at met
  rw [failed] at met
  exact met

/-- A condition is met with what is known of each success. -/
theorem and_ok (met : Meets action setting state post) :
    Meets action setting state fun value after =>
      post value after ∧ action setting state = .ok value after := by
  unfold Meets at met ⊢
  split
  · next value after same =>
      rw [same] at met
      exact ⟨met, same⟩
  · next failure after same =>
      rw [same] at met
      exact met

@[simp] theorem bind_iff :
    Meets (action >>= next) setting state final ↔
      Meets action setting state fun value after => Meets (next value) setting after final := by
  change (match EStateM.bind (action setting) (fun value => next value setting) state with
    | .ok value after => final value after
    | .error failure _ => failure.isFault = false) ↔ _
  unfold EStateM.bind Meets
  cases action setting state <;> rfl

/-- The second of two steps goes on from what the first one has met. -/
theorem bind (met : Meets action setting state post)
    (goesOn : ∀ value after, post value after → Meets (next value) setting after final) :
    Meets (action >>= next) setting state final :=
  bind_iff.mpr (met.mono goesOn)

@[simp] theorem map_iff {change : α → β} :
    Meets (change <$> action) setting state final ↔
      Meets action setting state fun value after => final (change value) after := by
  change (match EStateM.map change (action setting) state with
    | .ok value after => final value after
    | .error failure _ => failure.isFault = false) ↔ _
  unfold EStateM.map Meets
  cases action setting state <;> rfl

end Meets

section Steps

variable {setting : Setting} {state : State} {post : α → State → Prop}

@[simp] theorem meets_pure {value : α} :
    Meets (pure value) setting state post ↔ post value state := Iff.rfl

@[simp] theorem meets_get {post : State → State → Prop} :
    Meets get setting state post ↔ post state state := Iff.rfl

@[simp] theorem meets_set {value : State} {post : PUnit → State → Prop} :
    Meets (set value) setting state post ↔ post ⟨⟩ value := Iff.rfl

@[simp] theorem meets_modify {change : State → State} {post : PUnit → State → Prop} :
    Meets (modify change) setting state post ↔ post ⟨⟩ (change state) := Iff.rfl

@[simp] theorem meets_read {post : Setting → State → Prop} :
    Meets read setting state post ↔ post setting state := Iff.rfl

@[simp] theorem meets_throw {failure : Failure} :
    Meets (throw failure) setting state post ↔ failure.isFault = false := Iff.rfl

theorem meets_ite {condition : Prop} [Decidable condition]
    {first second : ReaderT Setting (EStateM Failure State) α}
    (holds : condition → Meets first setting state post)
    (fails : ¬condition → Meets second setting state post) :
    Meets (if condition then first else second) setting state post := by
  split
  · exact holds ‹_›
  · exact fails ‹_›

/-- A choice between two steps that go on alike is one step that goes on. -/
theorem meets_ite_bind {condition : Prop} [Decidable condition]
    {first second : ReaderT Setting (EStateM Failure State) α}
    {next : α → ReaderT Setting (EStateM Failure State) β} {final : β → State → Prop} :
    Meets (if condition then first >>= next else second >>= next) setting state final ↔
      Meets ((if condition then first else second) >>= next) setting state final := by
  split <;> rfl

end Steps

/-- A step maintains a condition on the state, whether it succeeds or fails. -/
def Maintains (condition : State → Prop) (action : ReaderT Setting (EStateM Failure State) α) :
    Prop :=
  ∀ setting state, condition state → condition (lastState (action setting state))

namespace Maintains

variable {condition : State → Prop} {action other : ReaderT Setting (EStateM Failure State) α}
  {next : α → ReaderT Setting (EStateM Failure State) β}

theorem bind (begins : Maintains condition action)
    (goesOn : ∀ value, Maintains condition (next value)) :
    Maintains condition (action >>= next) := by
  intro setting state holds
  have middle := begins setting state holds
  change condition
    (lastState (EStateM.bind (action setting) (fun value => next value setting) state))
  unfold EStateM.bind
  cases ends : action setting state with
  | ok value after =>
      rw [ends] at middle
      exact goesOn value setting after middle
  | error failure after =>
      rw [ends] at middle
      exact middle

theorem pure (value : α) :
    Maintains condition (Pure.pure value : ReaderT Setting (EStateM Failure State) α) :=
  fun _ _ holds => holds

theorem throw (failure : Failure) :
    Maintains condition (throw failure : ReaderT Setting (EStateM Failure State) α) :=
  fun _ _ holds => holds

/-- A step that leaves the state as it is. -/
theorem still (same : ∀ setting state, lastState (action setting state) = state) :
    Maintains condition action := fun setting state holds => (same setting state).symm ▸ holds

theorem read {next : Setting → ReaderT Setting (EStateM Failure State) β}
    (goesOn : ∀ setting, Maintains condition (next setting)) :
    Maintains condition (MonadReader.read >>= next) :=
  fun setting state holds => goesOn setting setting state holds

/-- What is taken from the state fulfils the condition. -/
theorem get {next : State → ReaderT Setting (EStateM Failure State) β}
    (goesOn : ∀ state, condition state → Maintains condition (next state)) :
    Maintains condition (MonadState.get >>= next) :=
  fun setting state holds => goesOn state holds setting state holds

theorem set {state : State} (holds : condition state) :
    Maintains condition (set state : ReaderT Setting (EStateM Failure State) PUnit) :=
  fun _ _ _ => holds

theorem modify {change : State → State}
    (keeps : ∀ state, condition state → condition (change state)) :
    Maintains condition (modify change : ReaderT Setting (EStateM Failure State) PUnit) :=
  fun _ state holds => keeps state holds

theorem ite {choice : Prop} [Decidable choice] (holds : Maintains condition action)
    (fails : Maintains condition other) :
    Maintains condition (if choice then action else other) := by
  split
  · exact holds
  · exact fails

end Maintains

/-- If a step succeeds, its value and its state fulfil a condition. -/
def Gives (action : ReaderT Setting (EStateM Failure State) α) (setting : Setting) (state : State)
    (post : α → State → Prop) : Prop :=
  ∀ value after, action setting state = .ok value after → post value after

section Gives

variable {action : ReaderT Setting (EStateM Failure State) α}
  {next : α → ReaderT Setting (EStateM Failure State) β}
  {setting : Setting} {state : State} {post : α → State → Prop} {final : β → State → Prop}

@[simp] theorem Gives.bind_iff :
    Gives (action >>= next) setting state final ↔
      Gives action setting state fun value after => Gives (next value) setting after final := by
  have run : (action >>= next) setting state =
      EStateM.bind (action setting) (fun value => next value setting) state := rfl
  unfold Gives
  rw [run, EStateM.bind]
  cases action setting state with
  | ok value middle =>
      refine ⟨?_, fun gives => gives value middle rfl⟩
      rintro gives _ _ ⟨rfl⟩
      exact gives
  | error failure middle =>
      constructor <;> rintro - _ _ absent <;> cases absent

theorem Gives.mono {weaker : α → State → Prop} (gives : Gives action setting state post)
    (implies : ∀ value after, post value after → weaker value after) :
    Gives action setting state weaker :=
  fun value after success => implies value after (gives value after success)

/-- What comes before the last step may not matter. -/
theorem Gives.last (gives : ∀ value after, Gives (next value) setting after final) :
    Gives (action >>= next) setting state final :=
  Gives.bind_iff.mpr fun value after _ => gives value after

@[simp] theorem gives_pure {value : α} :
    Gives (pure value) setting state post ↔ post value state := by
  constructor
  · exact fun gives => gives value state rfl
  · rintro fulfilled _ _ ⟨rfl⟩
    exact fulfilled

@[simp] theorem gives_get {post : State → State → Prop} :
    Gives get setting state post ↔ post state state := by
  constructor
  · exact fun gives => gives state state rfl
  · rintro fulfilled _ _ ⟨rfl⟩
    exact fulfilled

@[simp] theorem gives_read {post : Setting → State → Prop} :
    Gives read setting state post ↔ post setting state := by
  constructor
  · exact fun gives => gives setting state rfl
  · rintro fulfilled _ _ ⟨rfl⟩
    exact fulfilled

@[simp] theorem gives_modify {change : State → State} {post : PUnit → State → Prop} :
    Gives (modify change) setting state post ↔ post ⟨⟩ (change state) := by
  constructor
  · exact fun gives => gives ⟨⟩ (change state) rfl
  · rintro fulfilled _ _ ⟨rfl⟩
    exact fulfilled

@[simp] theorem gives_set {value : State} {post : PUnit → State → Prop} :
    Gives (set value) setting state post ↔ post ⟨⟩ value := by
  constructor
  · exact fun gives => gives ⟨⟩ value rfl
  · rintro fulfilled _ _ ⟨rfl⟩
    exact fulfilled

@[simp] theorem gives_throw {failure : Failure} :
    Gives (throw failure) setting state post ↔ True :=
  ⟨fun _ => trivial, by rintro - _ _ ⟨⟩⟩

theorem gives_ite {condition : Prop} [Decidable condition]
    {first second : ReaderT Setting (EStateM Failure State) α}
    (holds : condition → Gives first setting state post)
    (fails : ¬condition → Gives second setting state post) :
    Gives (if condition then first else second) setting state post := by
  split
  · exact holds ‹_›
  · exact fails ‹_›

end Gives

/-- A step succeeds, and its value and its state fulfil a condition. -/
def Succeeds (action : ReaderT Setting (EStateM Failure State) α) (setting : Setting)
    (state : State) (post : α → State → Prop) : Prop :=
  match action setting state with
  | .ok value after => post value after
  | .error _ _ => False

section Succeeds

variable {action : ReaderT Setting (EStateM Failure State) α}
  {next : α → ReaderT Setting (EStateM Failure State) β}
  {setting : Setting} {state : State} {post : α → State → Prop} {final : β → State → Prop}

theorem succeeds_iff : Succeeds action setting state post ↔
    ∃ value after, action setting state = .ok value after ∧ post value after := by
  unfold Succeeds
  cases action setting state with
  | ok value after =>
      refine ⟨fun fulfilled => ⟨value, after, rfl, fulfilled⟩, ?_⟩
      rintro ⟨_, _, ⟨rfl⟩, fulfilled⟩
      exact fulfilled
  | error failure after => simp

/-- A run ends in a value and a state if it succeeds with just these. -/
theorem eq_ok_iff_succeeds {value : α} {after : State} :
    action setting state = .ok value after ↔
      Succeeds action setting state fun found last => found = value ∧ last = after := by
  unfold Succeeds
  cases action setting state <;> simp

theorem Succeeds.mono {weaker : α → State → Prop} (succeeds : Succeeds action setting state post)
    (implies : ∀ value after, post value after → weaker value after) :
    Succeeds action setting state weaker := by
  obtain ⟨value, after, success, fulfilled⟩ := succeeds_iff.mp succeeds
  exact succeeds_iff.mpr ⟨value, after, success, implies value after fulfilled⟩

@[simp] theorem Succeeds.bind_iff :
    Succeeds (action >>= next) setting state final ↔
      Succeeds action setting state fun value after =>
        Succeeds (next value) setting after final := by
  change (match EStateM.bind (action setting) (fun value => next value setting) state with
    | .ok value after => final value after
    | .error _ _ => False) ↔ _
  unfold EStateM.bind Succeeds
  cases action setting state <;> rfl

@[simp] theorem Succeeds.map_iff {change : α → β} :
    Succeeds (change <$> action) setting state final ↔
      Succeeds action setting state fun value after => final (change value) after := by
  change (match EStateM.map change (action setting) state with
    | .ok value after => final value after
    | .error _ _ => False) ↔ _
  unfold EStateM.map Succeeds
  cases action setting state <;> rfl

/-- A step whose outcome is known goes on with it. -/
theorem succeeds_of_eq_ok {value : α} {after : State}
    (success : action setting state = .ok value after) :
    Succeeds action setting state post ↔ post value after := by
  unfold Succeeds
  rw [success]

@[simp] theorem succeeds_pure {value : α} :
    Succeeds (pure value) setting state post ↔ post value state := Iff.rfl

@[simp] theorem succeeds_get {post : State → State → Prop} :
    Succeeds get setting state post ↔ post state state := Iff.rfl

@[simp] theorem succeeds_read {post : Setting → State → Prop} :
    Succeeds read setting state post ↔ post setting state := Iff.rfl

@[simp] theorem succeeds_modify {change : State → State} {post : PUnit → State → Prop} :
    Succeeds (modify change) setting state post ↔ post ⟨⟩ (change state) := Iff.rfl

end Succeeds

end EcmaSyntax
