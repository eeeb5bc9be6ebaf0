import EcmaSyntax.Proofs.Attendance

namespace EcmaSyntax

namespace Kind

/-- A token of such a kind has a text. Only the end of a text has none, and maybe a chunk of a
template. -/
@[reducible] def isFilled : Kind → Bool
  | .eof => false
  | .template => false
  | _ => true

variable {kind : Kind}

theorem ne_of_isFilled (filled : kind.isFilled = true) : kind ≠ .eof ∧ kind ≠ .template := by
  constructor <;> rintro rfl <;> cases filled

/-- The tokens of a kind have texts if it has a mark that those two kinds do not have. -/
theorem isFilled_of (marked : Kind → Bool) (found : marked kind = true)
    (eof : marked .eof = false := by rfl) (template : marked .template = false := by rfl) :
    kind.isFilled = true := by
  cases kind with
  | eof => exact absurd found (eof ▸ Bool.false_ne_true)
  | template => exact absurd found (template ▸ Bool.false_ne_true)
  | _ => rfl

/-- The token of a keyword has a text. -/
theorem isFilled_of_keyword? {word : String} (known : kind.keyword? = some word) :
    kind.isFilled = true :=
  isFilled_of (fun kind => kind.keyword?.isSome) (by rw [known]; rfl)

end Kind

namespace Grammar

variable {α β : Type}

/-- A step fulfils a condition if it succeeds, and if it fails since the nesting is too deep, then
more constructs are nested than may be. -/
def Endures (action : Parse α) (setting : Setting) (state : State) (post : α → State → Prop) :
    Prop :=
  match action setting state with
  | .ok value after => post value after
  | .error (.nestingTooDeep _ _) after => depthLimit < after.depth
  | .error _ _ => True

/-- A step has moved on to a later token, whatever its value is. -/
def always (_ : α) : Bool := true

/-- A step may have stayed at the current token, whatever its value is. -/
def never (_ : α) : Bool := false

/-- A turn of a loop is not the last one. -/
def Turn.isMore : Turn α β → Bool
  | .more _ => true
  | .done _ => false

/-- The bounds on rules and turns suffice for a step that begins where less than so many bytes of
the text are left, and maybe at a known kind of token: if it fails since the nesting is too deep,
this is so. If it succeeds with one of some values, it has moved on to a later token. -/
class Suffices (setting : Setting) (rest : Nat) (here : Option Kind) (moves : α → Bool)
    (action : Parse α) : Prop where
  endures : ∀ state : State, state.Orderly setting →
    setting.source.size < state.lexer.start + rest → (∀ kind ∈ here, state.lexer.kind = kind) →
    Endures action setting state fun value after => after.Orderly setting ∧
      state.lexer.start + (moves value).toNat ≤ after.lexer.start

variable {setting : Setting} {rest : Nat} {here : Option Kind} {moves : α → Bool}
  {final : β → Bool} {action first second : Parse α} {next : α → Parse β} {state : State}

section Endures

variable {post weaker : α → State → Prop} {last : β → State → Prop}

theorem Endures.mono (endures : Endures action setting state post)
    (implies : ∀ value after, post value after → weaker value after) :
    Endures action setting state weaker := by
  unfold Endures at endures ⊢
  cases ends : action setting state with
  | ok value after =>
      rw [ends] at endures
      exact implies value after endures
  | error failure after =>
      rw [ends] at endures
      cases failure <;> exact endures

/-- If a step endures and fails for the nesting, this is deeper than it may be. -/
theorem Endures.exceeds (endures : Endures action setting state post) {pos : Nat} {loc : Position}
    {after : State} (ends : action setting state = .error (.nestingTooDeep pos loc) after) :
    depthLimit < after.depth := by
  unfold Endures at endures
  rwa [ends] at endures

theorem Endures.bind_iff : Endures (action >>= next) setting state last ↔
    Endures action setting state fun value after => Endures (next value) setting after last := by
  change (match EStateM.bind (action setting) (fun value => next value setting) state with
    | .ok value after => last value after
    | .error (.nestingTooDeep _ _) after => depthLimit < after.depth
    | .error _ _ => True) ↔ _
  unfold EStateM.bind Endures
  cases action setting state with
  | ok value after => rfl
  | error failure after => cases failure <;> rfl

/-- A step that succeeds endures. -/
theorem Endures.of_ok {value : α} {after : State} (ends : action setting state = .ok value after)
    (holds : post value after) : Endures action setting state post := by
  unfold Endures
  rwa [ends]

/-- A step that endures gives what it gives anyway. -/
theorem Endures.and_gives (endures : Endures action setting state post)
    (gives : Gives action setting state weaker) :
    Endures action setting state fun value after => post value after ∧ weaker value after := by
  unfold Endures at endures ⊢
  cases ends : action setting state with
  | ok value after =>
      rw [ends] at endures
      exact ⟨endures, gives value after ends⟩
  | error failure after =>
      rw [ends] at endures
      cases failure <;> exact endures

/-- What a step gives that fails for nothing to do with nesting. -/
theorem Endures.of_flat (gives : Gives action setting state post)
    (flat : Fails action setting state Failure.IsFlat) : Endures action setting state post := by
  unfold Endures
  cases ends : action setting state with
  | ok value after => exact gives value after ends
  | error failure after =>
      cases failure with
      | nestingTooDeep pos loc => exact absurd rfl (flat _ _ ends pos loc)
      | syntaxError error => trivial
      | fault reason => trivial

end Endures

/-- A step that stays at the current token. -/
class Stays (action : Parse α) : Prop where
  stays : ∀ setting state, Gives action setting state fun _ after =>
    after.lexer.kind = state.lexer.kind

section Stays

instance (priority := low) [Looks action] : Stays action :=
  ⟨fun setting state => (Looks.still setting state).mono fun _ _ same => same ▸ rfl⟩

instance [begins : Stays action] [goesOn : ∀ value, Stays (next value)] : Stays (action >>= next) :=
  ⟨fun setting state => Gives.bind_iff.mpr <| (begins.stays setting state).mono
    fun value middle first => ((goesOn value).stays setting middle).mono
      fun _ _ last => last.trans first⟩

instance {value : α} : Stays (pure value) := ⟨fun _ _ => gives_pure.mpr rfl⟩

instance {condition : Prop} [Decidable condition] [holds : Stays first] [fails : Stays second] :
    Stays (if condition then first else second) := by
  split
  · exact holds
  · exact fails

instance (pos : Nat) (problem : Problem) : Stays (raise pos problem : Parse α) :=
  ⟨fun _ _ _ _ absent => by cases absent⟩

instance : Stays (unexpected : Parse α) := ⟨fun _ _ _ _ absent => by cases absent⟩

/-- A step of the reading of tokens that leaves the kind of the current token. -/
theorem Stays.ofScan {action : Lexer.Scan α} (kept : ∀ setting state,
    Gives action setting state fun _ after => after.kind = state.kind) : Stays (lex action) :=
  ⟨fun _ _ => gives_lex.mpr (kept _ _)⟩

/-- A look at the text leaves everything. -/
theorem Stays.still {action : Lexer.Scan α}
    (same : ∀ setting state, lastState (action setting state) = state) : Stays (lex action) :=
  .ofScan fun setting state value after ends => by
    have still := same setting state
    rw [ends] at still
    exact congrArg Lexer.State.kind still

instance (start stop : Nat) : Stays (lex (Lexer.slice start stop)) :=
  .still (Lexer.slice_still start stop)

instance (start stop : Nat) : Stays (lex (Lexer.breaksBetween start stop)) :=
  .still (Lexer.breaksBetween_still start stop)

instance : Stays (lex Lexer.lookahead) := .ofScan fun setting state value after ends => by
  unfold Lexer.lookahead at ends
  split at ends <;> cases ends
  rfl

instance {mark : Mark} {form : Form} : Stays (finish mark form) :=
  ⟨fun _ _ => finish_aside.mono fun _ _ aside => aside.lexer.kind⟩

instance : Stays rawText := inferInstanceAs (Stays (get >>= _))

instance : Stays onNewLine := inferInstanceAs (Stays (get >>= _))

instance : Stays mayEndStatement := inferInstanceAs (Stays (kind >>= _))

end Stays

namespace Suffices

/-- A step that reads on, and whose failures have nothing to do with nesting. -/
theorem ofAdvances (advances : Advances action)
    (flat : ∀ state : State, state.Orderly setting → Fails action setting state Failure.IsFlat) :
    Suffices setting rest here never action where
  endures state orderly _ _ := by
    refine .of_flat (fun value after ends => ?_) (flat state orderly)
    obtain ⟨calls, called⟩ := advances.called setting state
    exact ⟨(called.keeps (State.Orderly.kept setting) orderly).1 value after ends,
      ((advances.traces setting state value after ends).onward orderly.sited.tracked).1⟩

/-- The second step goes on from where the first one has moved to, or from where it has stayed. -/
theorem bind (begins : Suffices setting rest here moves action)
    (moved : ∀ value, moves value = true → Suffices setting (rest - 1) none never (next value))
    (stayed : ∀ value, moves value = false → Suffices setting rest none final (next value)) :
    Suffices setting rest here final (action >>= next) where
  endures state orderly ahead known := by
    rw [Endures.bind_iff]
    refine (begins.endures state orderly ahead known).mono ?_
    rintro value middle ⟨later, onward⟩
    cases goes : moves value with
    | true =>
        rw [goes, Bool.toNat_true] at onward
        refine ((moved value goes).endures middle later (by omega) nofun).mono ?_
        rintro result after ⟨last, further⟩
        have bound := (final result).toNat_le
        exact ⟨last, by omega⟩
    | false =>
        rw [goes, Bool.toNat_false] at onward
        refine ((stayed value goes).endures middle later (by omega) nofun).mono ?_
        rintro result after ⟨last, further⟩
        exact ⟨last, by omega⟩

/-- After a step that moves on nothing else has to do so. -/
theorem step [begins : Suffices setting rest here always action]
    (goesOn : ∀ value, Suffices setting (rest - 1) none never (next value)) :
    Suffices setting rest here final (action >>= next) :=
  bind begins (fun value _ => goesOn value) fun _ absent => by cases absent

/-- A step that may stay where it is comes before the rest. -/
theorem via (begins : Suffices setting rest here never action)
    (goesOn : ∀ value, Suffices setting rest none final (next value)) :
    Suffices setting rest here final (action >>= next) :=
  bind begins (fun _ absent => by cases absent) fun value _ => goesOn value

theorem after [begins : Suffices setting rest here never action]
    (goesOn : ∀ value, Suffices setting rest none final (next value)) :
    Suffices setting rest here final (action >>= next) := via begins goesOn

/-- A step that moves on if it finds something. -/
theorem onSome {action : Parse (Option α)} {next : Option α → Parse β}
    [begins : Suffices setting rest here Option.isSome action]
    (found : ∀ value, Suffices setting (rest - 1) none never (next (some value)))
    (absent : Suffices setting rest none final (next none)) :
    Suffices setting rest here final (action >>= next) := by
  refine bind begins (fun value known => ?_) fun value known => ?_
  · cases value with
    | some value => exact found value
    | none => cases known
  · cases value with
    | some value => cases known
    | none => exact absent

/-- A step that moves on if it finds a token to pass. -/
theorem onEaten {action : Parse Bool} {next : Bool → Parse β}
    [begins : Suffices setting rest here id action]
    (moved : Suffices setting (rest - 1) none never (next true))
    (stayed : Suffices setting rest none final (next false)) :
    Suffices setting rest here final (action >>= next) := by
  refine bind begins (fun found same => ?_) fun found same => ?_
  · obtain rfl : found = true := same
    exact moved
  · obtain rfl : found = false := same
    exact stayed

/-- A step that moves on with some values need not do so. -/
theorem weaken {fewer : α → Bool} (suffices_ : Suffices setting rest none moves action)
    (implies : ∀ value, fewer value = true → moves value = true) :
    Suffices setting rest here fewer action where
  endures state orderly ahead _ := by
    refine (suffices_.endures state orderly ahead nofun).mono ?_
    rintro value after ⟨last, onward⟩
    have bound := Bool.toNat_le_toNat (implies value)
    exact ⟨last, by omega⟩

end Suffices

/-- A condition that instances can be chosen by. -/
class Is (condition : Bool) : Prop where
  holds : condition = true

instance : Is true := ⟨rfl⟩

/-- A test that only a token of one kind passes. -/
class Tells (kind : outParam Kind) (tests : Parse Bool) : Prop where
  tells : ∀ setting state, ∃ found, tests setting state = .ok found state ∧
    (found = true → state.lexer.kind = kind)

instance (kind : Kind) : Tells kind (atKind kind) :=
  ⟨fun _ _ => ⟨_, rfl, fun found => beq_iff_eq.mp found⟩⟩

instance (word : String) : Tells .name (atWord word) :=
  ⟨fun _ _ => ⟨_, rfl, fun found => beq_iff_eq.mp (Bool.and_eq_true_iff.mp found).1⟩⟩

instance (bracket : String) : Tells .relational (atAngle bracket) :=
  ⟨fun _ _ => ⟨_, rfl, fun found => beq_iff_eq.mp (Bool.and_eq_true_iff.mp found).1⟩⟩

namespace Suffices

/-- Less of the text may be left. -/
theorem mono {more : Nat} (suffices_ : Suffices setting more here moves action)
    (less : rest ≤ more) : Suffices setting rest here moves action where
  endures state orderly ahead known := suffices_.endures state orderly (by omega) known

/-- What follows depends on the text. -/
theorem onRead {next : Setting → Parse β}
    (goesOn : Suffices setting rest here final (next setting)) :
    Suffices setting rest here final (read >>= next) where
  endures state orderly ahead known :=
    Endures.bind_iff.mpr (goesOn.endures state orderly ahead known)

/-- What follows depends on the kind of the current token. -/
theorem onKind {next : Kind → Parse β}
    (each : ∀ current, Suffices setting rest (some current) final (next current)) :
    Suffices setting rest here final (kind >>= next) where
  endures state orderly ahead _ :=
    (each state.lexer.kind).endures state orderly ahead (by rintro _ ⟨⟩; rfl)

/-- A step that stays at the current token does not matter. -/
theorem stay [stays : Stays action] (begins : Suffices setting rest here never action)
    (each : ∀ value, Suffices setting rest here final (next value)) :
    Suffices setting rest here final (action >>= next) where
  endures state orderly ahead known := by
    refine Endures.bind_iff.mpr (((begins.endures state orderly ahead known).and_gives
      (stays.stays setting state)).mono ?_)
    rintro value middle ⟨⟨later, onward⟩, stayed⟩
    have onward : state.lexer.start ≤ middle.lexer.start := onward
    refine ((each value).endures middle later (by omega) fun kind same =>
      stayed.trans (known kind same)).mono ?_
    exact fun result after ⟨last, further⟩ => ⟨last, by omega⟩

/-- What follows a test knows what the test has found. -/
theorem test {expected : Kind} {tests : Parse Bool} [told : Tells expected tests]
    {next : Bool → Parse β} (holds : Suffices setting rest (some expected) final (next true))
    (fails : Suffices setting rest here final (next false)) :
    Suffices setting rest here final (tests >>= next) where
  endures state orderly ahead known := by
    obtain ⟨found, ends, same⟩ := told.tells setting state
    refine Endures.bind_iff.mpr (.of_ok ends ?_)
    cases found with
    | true => exact holds.endures state orderly ahead (by rintro _ ⟨⟩; exact same rfl)
    | false => exact fails.endures state orderly ahead known

/-- What follows depends on a test of the current token. -/
theorem ifAt {expected : Kind} {tests : Parse Bool} [Tells expected tests] {first second : Parse β}
    (holds : Suffices setting rest (some expected) final first)
    (fails : Suffices setting rest here final second) :
    Suffices setting rest here final
      (tests >>= fun found => if found = true then first else second) :=
  test holds fails

/-- The kind of the current token is known already. -/
theorem ifKnown {expected : Kind} {first second : Parse β}
    (holds : Suffices setting rest (some expected) final first) :
    Suffices setting rest (some expected) final
      (atKind expected >>= fun found => if found = true then first else second) where
  endures state orderly ahead known := by
    change Endures (if (state.lexer.kind == expected) = true then first else second) setting state _
    rw [if_pos (beq_iff_eq.mpr (known expected rfl))]
    exact holds.endures state orderly ahead known

theorem ite {condition : Prop} [Decidable condition]
    (holds : condition → Suffices setting rest here moves first)
    (fails : ¬condition → Suffices setting rest here moves second) :
    Suffices setting rest here moves (if condition then first else second) := by
  split
  · exact holds ‹_›
  · exact fails ‹_›

/-- A step that is taken under a condition, after which the parse goes on alike. -/
theorem guard {condition : Prop} [Decidable condition] {check : Parse PUnit}
    {next : PUnit → Parse β} (checks : Suffices setting rest none never check)
    (goesOn : ∀ value, Suffices setting rest none final (next value)) :
    Suffices setting rest here final (if condition then check >>= next else next ⟨⟩) :=
  ite (fun _ => (bind checks (fun _ absent => by cases absent) fun value _ =>
    goesOn value).weaken fun _ => id) fun _ => (goesOn ⟨⟩).weaken fun _ => id

/-- So may be a check that stays at the current token. -/
theorem guardStay {condition : Prop} [Decidable condition] {check : Parse PUnit}
    {next : PUnit → Parse β} [Stays check]
    (checks : Suffices setting rest here never check)
    (goesOn : ∀ value, Suffices setting rest here final (next value)) :
    Suffices setting rest here final (if condition then check >>= next else next ⟨⟩) :=
  .ite (fun _ => .stay checks goesOn) fun _ => goesOn ⟨⟩

/-- What is kept for the kind of the current token may not matter. -/
theorem anywhere (suffices_ : Suffices setting rest none moves action) :
    Suffices setting rest here moves action := suffices_.weaken fun _ => id

/-- A step that never fails. -/
theorem easy (advances : Advances action)
    (easy : ∀ state, ∃ value after, action setting state = .ok value after) :
    Suffices setting rest here never action :=
  ofAdvances advances fun state _ => .never (easy state)

/-- A step that fails. -/
theorem fails (never : ∀ state, ∃ failure after, action setting state = .error failure after ∧
    failure.IsFlat) : Suffices setting rest here moves action where
  endures state _ _ _ := by
    obtain ⟨failure, after, same, flat⟩ := never state
    refine .of_flat (fun _ _ ends => by rw [same] at ends; cases ends) fun _ _ failed => ?_
    rw [same] at failed
    cases failed
    exact flat

end Suffices

section Instances

instance (priority := low) [looks : Looks action] : Suffices setting rest here never action :=
  .easy .plain fun state => by
    obtain ⟨value, same⟩ := looks.looks setting state
    exact ⟨_, _, same⟩

instance {value : α} : Suffices setting rest here never (pure value) :=
  .easy .plain fun _ => ⟨_, _, rfl⟩

instance : Suffices setting rest here id (pure false : Parse Bool) where
  endures _ orderly _ _ := ⟨orderly, Nat.le_refl _⟩

instance : Suffices setting rest here Option.isSome (pure none : Parse (Option α)) where
  endures _ orderly _ _ := ⟨orderly, Nat.le_refl _⟩

instance {result : β} :
    Suffices setting rest here Turn.isMore (pure (Turn.done result) : Parse (Turn α β)) where
  endures _ orderly _ _ := ⟨orderly, Nat.le_refl _⟩

instance (priority := 900) [begins : Suffices setting rest here always action] :
    Suffices setting rest here never action where
  endures state orderly ahead known :=
    (begins.endures state orderly ahead known).mono fun _ _ ⟨last, onward⟩ =>
      ⟨last, Nat.le_of_succ_le onward⟩

instance (priority := 800) {kind : Kind} [suffices_ : Suffices setting rest none moves action] :
    Suffices setting rest (some kind) moves action := suffices_.anywhere

instance (priority := 1100) {action : Parse Bool} [Suffices setting rest here id action]
    {first second : Parse β} [moved : Suffices setting (rest - 1) none never first]
    [stayed : Suffices setting rest none final second] : Suffices setting rest here final
      (action >>= fun found => if found = true then first else second) :=
  .onEaten moved stayed

instance (priority := 1100) {action : Parse Bool} [Suffices setting rest here id action]
    {first second : Parse β} [moved : Suffices setting (rest - 1) none never second]
    [stayed : Suffices setting rest none final first] : Suffices setting rest here final
      (action >>= fun found => if (!found) = true then first else second) :=
  .onEaten moved stayed

instance (priority := 1100) {expected : Kind} {tests : Parse Bool} [Tells expected tests]
    {first second : Parse β} [holds : Suffices setting rest (some expected) final first]
    [fails : Suffices setting rest here final second] :
    Suffices setting rest here final
      (tests >>= fun found => if found = true then first else second) :=
  .ifAt holds fails

instance (priority := 1110) {expected : Kind} {first second : Parse β}
    [holds : Suffices setting rest (some expected) final first] :
    Suffices setting rest (some expected) final
      (atKind expected >>= fun found => if found = true then first else second) :=
  .ifKnown holds

-- Behind a step that moves on any rule may begin; where the kind of the token is known, a step
-- that stays there keeps it known.
instance (priority := 1050) [Suffices setting rest here always action]
    [goesOn : ∀ value, Suffices setting (rest - 1) none never (next value)] :
    Suffices setting rest here final (action >>= next) := .step goesOn

instance (priority := 1040) [Stays action] [begins : Suffices setting rest here never action]
    [goesOn : ∀ value, Suffices setting rest here final (next value)] :
    Suffices setting rest here final (action >>= next) := .stay begins goesOn

instance [Suffices setting rest here never action]
    [goesOn : ∀ value, Suffices setting rest none final (next value)] :
    Suffices setting rest here final (action >>= next) := .after goesOn

instance {condition : Prop} [Decidable condition]
    [holds : Suffices setting rest here moves first]
    [fails : Suffices setting rest here moves second] :
    Suffices setting rest here moves (if condition then first else second) :=
  .ite (fun _ => holds) fun _ => fails

instance {change : α → β} [Suffices setting rest here never action] :
    Suffices setting rest here never (change <$> action) := by
  rw [map_eq_pure_bind]
  infer_instance

instance {change : α → β} [suffices_ : Suffices setting rest here always action] :
    Suffices setting rest here always (change <$> action) := by
  rw [map_eq_pure_bind]
  infer_instance

/-- A step of the reading of tokens that stays in place. -/
theorem Suffices.ofScan {action : Lexer.Scan α} (advances : Advances (lex action))
    (inPlace : ∀ {setting} {state : Lexer.State}, state.Sited setting →
      Lexer.InPlace action setting state) : Suffices setting rest here never (lex action) :=
  .ofAdvances advances fun _ orderly =>
    fails_lex ((inPlace orderly.sited).flat orderly.sited.octal)

/-- A look at the text. -/
theorem Suffices.still {action : Lexer.Scan α} [Lexer.Tame action]
    (same : ∀ setting state, lastState (action setting state) = state) :
    Suffices setting rest here never (lex action) :=
  .ofScan (Plain.still same).toAdvances fun _ => .tame

/-- A change of what is known of the code around. -/
theorem Suffices.modify {change : State → State}
    (notes : ∀ state : State, state.Notes (change state)) :
    Suffices setting rest here never (modify change : Parse PUnit) :=
  .easy (.modify notes) fun _ => ⟨_, _, rfl⟩

/-- What is noted beside the nodes and the tokens does not matter. -/
instance {arrowAt : State → Option Nat} {inMethod : State → Option MethodKind}
    {inFunction inGenerator inAsync : State → Bool} {labels : State → List Label}
    {decorators : State → List Node} {identities : State → Identities} {depth : State → Nat} :
    Suffices setting rest here never (modify fun state =>
      { state with
        arrowAt := arrowAt state, inMethod := inMethod state, inFunction := inFunction state
        inGenerator := inGenerator state, inAsync := inAsync state, labels := labels state
        decorators := decorators state, identities := identities state, depth := depth state } :
      Parse PUnit) :=
  .modify fun _ => ⟨⟨_, _, rfl⟩, rfl, rfl⟩

instance {strict inType : State → Bool} :
    Suffices setting rest here never (modify fun state =>
      { state with lexer := { state.lexer with strict := strict state, inType := inType state } } :
      Parse PUnit) :=
  .modify fun _ => ⟨⟨_, _, rfl⟩, rfl, rfl⟩

instance : Suffices setting rest here never Grammar.next :=
  .ofScan (inferInstance : Plain Grammar.next).toAdvances
    fun sited => Lexer.next_inPlace sited.sound sited.posted.pos

/-- A token starts within the text. -/
theorem State.Orderly.start_le (orderly : state.Orderly setting) :
    state.lexer.start ≤ setting.source.size :=
  have sound := orderly.sited.sound
  Nat.le_trans sound.within (Source.le_size_of_isBoundary sound.closing)

/-- The next token starts later than one with a text. -/
theorem State.Orderly.next_later (orderly : state.Orderly setting)
    (filled : state.lexer.kind.isFilled = true) : Gives Lexer.next setting.toSetting state.lexer
      fun _ after => state.lexer.start < after.start := by
  intro _ after read
  have known := Kind.ne_of_isFilled filled
  have passed := orderly.sited.passesFilled known.1 known.2 _ _ read
  exact Nat.lt_of_lt_of_le passed (orderly.sited.next _ _ read).sound.ordered

/-- A step that does not stay at the current token. -/
theorem Suffices.moving (suffices_ : Suffices setting rest here never action)
    (moving : ∀ state : State, state.Orderly setting → (∀ kind ∈ here, state.lexer.kind = kind) →
      Gives action setting state fun value after =>
        moves value = true → state.lexer.start < after.lexer.start) :
    Suffices setting rest here moves action where
  endures state orderly ahead known := by
    refine ((suffices_.endures state orderly ahead known).and_gives
      (moving state orderly known)).mono ?_
    rintro value after ⟨⟨last, onward⟩, further⟩
    refine ⟨last, ?_⟩
    cases goes : moves value with
    | true => exact further goes
    | false => exact onward

instance {kind : Kind} [filled : Is kind.isFilled] :
    Suffices setting rest (some kind) always Grammar.next :=
  .moving inferInstance fun _ orderly known => gives_lex.mpr <|
    (orderly.next_later (known kind rfl ▸ filled.holds)).mono fun _ _ later _ => later

instance (kind : Kind) : Suffices setting rest here never (eat kind) :=
  .ofScan (inferInstance : Plain (eat kind)).toAdvances
    fun sited => Lexer.eat_inPlace sited.sound sited.posted.pos

instance (kind : Kind) [filled : Is kind.isFilled] : Suffices setting rest here id (eat kind) :=
  .moving inferInstance fun state orderly _ => gives_lex.mpr <| by
    simp only [Lexer.eat, Lexer.atKind, Gives.bind_iff, gives_get, gives_pure]
    refine gives_ite (fun same => ?_) fun _ => gives_pure.mpr nofun
    have later := orderly.next_later (beq_iff_eq.mp same ▸ filled.holds)
    exact Gives.bind_iff.mpr (later.mono fun _ _ later => gives_pure.mpr fun _ => later)

instance : Suffices setting rest here never (lex Lexer.lookahead) :=
  .ofScan (inferInstance : Plain (lex Lexer.lookahead)).toAdvances
    fun sited => Lexer.lookahead_inPlace sited.tracked.recording sited.sound sited.posted.pos

instance (strict : Bool) : Suffices setting rest here never (lex (Lexer.setStrict strict)) :=
  .ofScan (setStrict_advances strict)
    fun sited => Lexer.setStrict_inPlace sited.sound sited.posted.start

instance (start stop : Nat) : Suffices setting rest here never (lex (Lexer.slice start stop)) :=
  .still (Lexer.slice_still start stop)

instance (start stop : Nat) :
    Suffices setting rest here never (lex (Lexer.breaksBetween start stop)) :=
  .still (Lexer.breaksBetween_still start stop)

instance (word : String) : Suffices setting rest here never (lex (Lexer.isKeyword word)) :=
  .still (isKeyword_still word)

instance (pos : Nat) (problem : Problem) :
    Suffices setting rest here moves (raise pos problem : Parse α) :=
  .fails fun _ => ⟨_, _, rfl, nofun⟩

/-- Comments are given to a node whatever is nested. -/
theorem attach_flat {id : NodeId} {start stop : Nat} :
    Fails (attach id start stop) setting state Failure.IsFlat := by
  intro failure after failed
  unfold attach at failed
  split at failed <;> cases failed
  exact nofun

instance (id : NodeId) (start stop : Nat) :
    Suffices setting rest here never (attach id start stop) :=
  .ofAdvances (inferInstance : Plain (attach id start stop)).toAdvances fun _ _ => attach_flat

instance : Suffices setting rest here never freshId :=
  .easy (inferInstance : Plain freshId).toAdvances fun _ => ⟨_, _, rfl⟩

instance : Suffices setting rest here moves (unexpected : Parse α) :=
  .fails fun _ => ⟨_, _, rfl, nofun⟩

instance (pos : Nat) : Suffices setting rest here moves (unexpectedAt pos : Parse α) :=
  .fails fun _ => ⟨_, _, rfl, nofun⟩

instance {check : α → Parse PUnit} [checks : ∀ item, Suffices setting rest none never (check item)]
    (items : List α) : Suffices setting rest none never (items.forM check) := by
  induction items with
  | nil => exact inferInstanceAs (Suffices setting rest none never (pure PUnit.unit))
  | cons item rest inductionHypothesis =>
      exact inferInstanceAs (Suffices _ _ _ _ (check item >>= fun _ => rest.forM check))

end Instances

/-- One level deeper the same suffices. -/
theorem Suffices.nested (suffices_ : Suffices setting rest here moves action) :
    Suffices setting rest here moves (nested action) where
  endures state orderly ahead known := by
    have notes : state.Notes { state with depth := state.depth + 1 } := ⟨⟨_, _, rfl⟩, rfl, rfl⟩
    have deeper := orderly.note notes
    change Endures (if state.depth + 1 > depthLimit then _ else _ : Parse α) setting
      { state with depth := state.depth + 1 } _
    split
    · next deep => exact deep
    · refine Endures.bind_iff.mpr ((suffices_.endures _ deeper ahead known).mono ?_)
      rintro value after ⟨last, onward⟩
      exact ⟨last.note ⟨⟨_, _, rfl⟩, rfl, rfl⟩, onward⟩

instance [suffices_ : Suffices setting rest here moves action] :
    Suffices setting rest here moves (nested action) := suffices_.nested

/-- A trial that is taken back begins again where it began. -/
theorem Suffices.attempt (suffices_ : Suffices setting rest here never action)
    (steps : Steps action) : Suffices setting rest here never (attempt action) where
  endures state orderly ahead known := by
    have endures := suffices_.endures state orderly ahead known
    unfold Endures Grammar.attempt at *
    cases ends : action setting state with
    | ok value after =>
        rw [ends] at endures
        exact endures
    | error failure after =>
        rw [ends] at endures
        cases failure with
        | syntaxError error =>
            change (after.rolledBack state).Orderly setting ∧
              _ ≤ (after.rolledBack state).lexer.start
            rw [steps.rolledBack ends]
            exact ⟨orderly.note ⟨⟨_, _, rfl⟩, rfl, rfl⟩, Nat.le_refl _⟩
        | nestingTooDeep pos loc => exact endures
        | fault reason => trivial

section Loop

variable {start : α} {turn : α → Parse (Turn α β)}

/-- As long as turns are left for the rest of the text, and one for a turn that need not move on, a
loop takes no more of them than it may. -/
theorem endures_loopWithin (steady : α → Bool)
    (turns : ∀ gathered,
      Suffices setting rest none (fun turned => steady gathered && turned.isMore) (turn gathered))
    (steadies : ∀ gathered, Ends (turn gathered) (Turned (fun next => steady next) fun _ => True))
    (count : Nat) (gathered : α) : ∀ {state : State}, state.Orderly setting →
      setting.source.size < state.lexer.start + rest →
      setting.source.size + (!steady gathered).toNat < state.lexer.start + count →
      Endures (loopWithin turn count gathered) setting state fun _ after =>
        after.Orderly setting ∧ state.lexer.start ≤ after.lexer.start := by
  refine loopWithin_countdown (fun count gathered action => ∀ {state : State},
    state.Orderly setting → setting.source.size < state.lexer.start + rest →
      setting.source.size + (!steady gathered).toNat < state.lexer.start + count →
      Endures action setting state fun _ after =>
        after.Orderly setting ∧ state.lexer.start ≤ after.lexer.start) ?_ ?_ count gathered
  · intro gathered state orderly _ enough
    have inside := orderly.start_le
    omega
  · intro count gathered goOn inductionHypothesis state orderly ahead enough
    refine Endures.bind_iff.mpr ((((turns gathered).endures state orderly ahead nofun).and_gives
      (steadies gathered setting state)).mono ?_)
    rintro turned middle ⟨⟨later, onward⟩, steadily⟩
    cases turned with
    | done result => exact ⟨later, Nat.le_trans (Nat.le_add_right _ _) onward⟩
    | more next =>
        have steadily : steady next = true := steadily
        have onward : state.lexer.start + (steady gathered).toNat ≤ middle.lexer.start := by
          simpa [Turn.isMore] using onward
        refine (inductionHypothesis next later (by omega) ?_).mono
          fun result after ⟨last, further⟩ => ⟨last, by omega⟩
        rw [steadily]
        cases known : steady gathered <;> simp [known] at onward enough ⊢ <;> omega

/-- A loop takes so many turns. -/
theorem endures_loop {post : β → State → Prop} : Endures (loop start turn) setting state post ↔
    Endures (loopWithin turn (2 * setting.source.size + 3 + 1) start) setting state post :=
  Endures.bind_iff

/-- A loop takes no more turns than it may if all but the last one move on, and maybe the first. -/
theorem Suffices.loop (steady : α → Bool)
    (turns : ∀ gathered,
      Suffices setting rest none (fun turned => steady gathered && turned.isMore) (turn gathered))
    (steadies : ∀ gathered, Ends (turn gathered) (Turned (fun next => steady next) fun _ => True)) :
    Suffices setting rest here never (Grammar.loop start turn) where
  endures state orderly ahead _ := by
    have bound := (!steady start).toNat_le
    exact endures_loop.mpr
      (endures_loopWithin steady turns steadies _ start orderly ahead (by omega))

/-- So may the first turn of a loop that knows which turn is the first. -/
theorem Suffices.loopFirst {γ : Type} {start : Bool × γ}
    {turn : Bool × γ → Parse (Turn (Bool × γ) β)}
    (begins : ∀ gathered, Suffices setting rest none never (turn (true, gathered)))
    (goesOn : ∀ gathered, Suffices setting rest none Turn.isMore (turn (false, gathered)))
    (later : ∀ gathered, Ends (turn gathered) (Turned (fun next => next.1 = false) fun _ => True)) :
    Suffices setting rest here never (Grammar.loop start turn) := by
  refine .loop (fun gathered => !gathered.1) ?_ fun gathered setting state turned after ends => ?_
  · rintro ⟨first, gathered⟩
    cases first with
    | true => exact begins gathered
    | false => exact goesOn gathered
  · have known := later gathered setting state turned after ends
    cases turned with
    | more next => exact congrArg (!·) known
    | done result => trivial

/-- Nothing is asked of what a turn ends with. -/
theorem ends_turned {action : Parse (Turn α β)} :
    Ends action (Turned (fun _ => true = true) fun _ => True) := by
  rintro setting state turned after -
  cases turned with
  | more next => rfl
  | done result => trivial

/-- Every turn is steady that moves on unless it is the last one. -/
theorem Suffices.steady (turns : ∀ gathered, Suffices setting rest none Turn.isMore (turn gathered))
    (gathered : α) : Suffices setting rest none (fun turned => true && turned.isMore)
      (turn gathered) :=
  (turns gathered).weaken fun _ moves => by simpa using moves

/-- A loop takes no more turns than it may if all but the last one move on. -/
theorem Suffices.turns
    (turns : ∀ gathered, Suffices setting rest none Turn.isMore (turn gathered)) :
    Suffices setting rest here never (Grammar.loop start turn) :=
  .loop (fun _ => true) (steady turns) fun _ => ends_turned

variable [turns : ∀ gathered, Suffices setting rest none Turn.isMore (turn gathered)]

include turns

instance : Suffices setting rest here never (loop start turn) := .turns turns

/-- A loop moves on if its first turn does. -/
instance [begins : Suffices setting rest here always (turn start)] :
    Suffices setting rest here always (loop start turn) where
  endures state orderly ahead known := by
    refine endures_loop.mpr (Endures.bind_iff.mpr
      ((begins.endures state orderly ahead known).mono ?_))
    rintro turned middle ⟨later, onward⟩
    cases turned with
    | done result => exact ⟨later, onward⟩
    | more next =>
        have onward : state.lexer.start + 1 ≤ middle.lexer.start := onward
        have goesOn := endures_loopWithin (fun _ => true) (.steady turns) (fun _ => ends_turned)
          (2 * setting.source.size + 3) next later (by omega)
          (by rw [Bool.not_true, Bool.toNat_false]; omega)
        exact goesOn.mono fun result after ⟨last, further⟩ => ⟨last, Nat.le_trans onward further⟩

end Loop

/-- A goal of the circle is not reached without moving on, but for the operators, of which there
may be none. -/
def Goal.movesOn : Goal → Bool
  | .operators .. => false
  | _ => true

/-- For every goal the bounds suffice where less than so many bytes are left. A rule that passes a
token before it comes to the others asks this of one byte less; one that comes to some of them first
asks it of those for the bytes that are left, too. -/
class Sated (setting : Setting) (rest : Nat) (rules : Rules) : Prop where
  lawful : rules.Lawful .jumping
  each : ∀ goal, Suffices setting rest none (fun _ => goal.movesOn) (rules goal)

section Rules

variable {rules : Rules}

instance [sated : Sated setting rest rules] : Sated setting (rest - 1) rules :=
  ⟨sated.lawful, fun goal => (sated.each goal).mono (Nat.sub_le _ _)⟩

section Goals

variable [sated : Sated setting rest rules]

include sated

instance (declaration topLevel : Bool) :
    Suffices setting rest none always (rules (.statement declaration topLevel)) := sated.each _

instance (noIn inParens : Bool) :
    Suffices setting rest none always (rules (.assignment noIn inParens)) := sated.each _

instance (left : Node) (mark : Mark) (level : Nat) (noIn : Bool) :
    Suffices setting rest none never (rules (.operators left mark level noIn)) := sated.each _

instance : Suffices setting rest none always (rules .unary) := sated.each _

instance : Suffices setting rest none always (rules .atom) := sated.each _

instance : Suffices setting rest none always (rules .binding) := sated.each _

instance (mark : Mark) : Suffices setting rest none always (rules (.element mark)) := sated.each _

instance : Suffices setting rest none always (rules .type) := sated.each _

instance : Suffices setting rest none always (rules .prefixType) := sated.each _

instance : Suffices setting rest none always (rules .primaryType) := sated.each _

instance (mark : Mark) : Suffices setting rest none always (rules (.declared mark)) := sated.each _

end Goals

instance {cover : Cover α} : Suffices setting rest here never cover.settle := by
  unfold Cover.settle
  cases cover.pending <;> infer_instance

instance (declaration topLevel : Bool)
    [stated : Suffices setting rest none always (rules (.statement declaration topLevel))] :
    Suffices setting rest none always (rules.statement declaration topLevel) := stated

instance (noIn : Bool)
    [assigned : Suffices setting rest none always (rules (.assignment noIn false))] :
    Suffices setting rest none always (rules.cover noIn) := assigned

instance (noIn : Bool) [Suffices setting rest none always (rules (.assignment noIn false))] :
    Suffices setting rest none always (rules.assignment noIn) :=
  inferInstanceAs (Suffices _ _ _ _ (rules.cover noIn >>= _))

instance [Suffices setting rest none always (rules .unary)] :
    Suffices setting rest none always rules.operand :=
  inferInstanceAs (Suffices _ _ _ _ (rules .unary >>= _))

instance [Suffices setting rest none always (rules .atom)] :
    Suffices setting rest none always rules.atom :=
  inferInstanceAs (Suffices _ _ _ _ (rules .atom >>= _))

instance [bound : Suffices setting rest none always (rules .binding)] :
    Suffices setting rest none always rules.binding := bound

instance [typed : Suffices setting rest none always (rules .type)] :
    Suffices setting rest none always rules.type := typed

end Rules

end Grammar

end EcmaSyntax
