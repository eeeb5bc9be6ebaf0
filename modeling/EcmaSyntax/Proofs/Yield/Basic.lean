import EcmaSyntax.Grammar.Pattern
import EcmaSyntax.Proofs.Grammar.Call
import EcmaSyntax.Proofs.Lexer.Passage
import EcmaSyntax.Proofs.Lexer.Trace

namespace EcmaSyntax

/-- Two states differ in nothing but what is known beside the tokens. -/
def Lexer.State.Beside (first last : Lexer.State) : Prop :=
  ∃ strict inType leading trailing, last = { first with
    strict := strict, inType := inType, leading := leading, trailing := trailing }

namespace Lexer.State.Beside

variable {first last : Lexer.State}

theorem extends_ (beside : first.Beside last) : first.Extends last := by
  obtain ⟨_, _, _, _, rfl⟩ := beside
  exact ⟨List.suffix_refl _, List.suffix_refl _⟩

theorem traces {setting : Lexer.Setting} (beside : first.Beside last) :
    first.Traces setting last := by
  obtain ⟨_, _, _, _, rfl⟩ := beside
  exact .noted ..

theorem kind (beside : first.Beside last) : last.kind = first.kind := by
  obtain ⟨_, _, _, _, rfl⟩ := beside
  rfl

theorem lastStop (beside : first.Beside last) : last.lastStop = first.lastStop := by
  obtain ⟨_, _, _, _, rfl⟩ := beside
  rfl

end Lexer.State.Beside

namespace Grammar

variable {α β γ : Type}

/-- A step that only looks at the state or the setting: it succeeds and changes nothing. -/
class Looks (action : Parse α) : Prop where
  looks : ∀ setting state, ∃ value, action setting state = .ok value state
  called : ∀ setting reads state, Called setting reads action state

instance : Looks (get : Parse State) := ⟨fun _ _ => ⟨_, rfl⟩, fun _ _ _ => ⟨_, .get⟩⟩

instance : Looks (read : Parse Setting) := ⟨fun _ _ => ⟨_, rfl⟩, fun _ _ _ => ⟨_, .read⟩⟩

/-- What is found by a look is looked at further. -/
theorem Looks.bind {action : Parse α} {next : α → Parse β} (begins : Looks action)
    (goesOn : ∀ value, Looks (next value)) : Looks (action >>= next) where
  looks setting state := by
    obtain ⟨value, same⟩ := begins.looks setting state
    obtain ⟨result, ends⟩ := (goesOn value).looks setting state
    refine ⟨result, ?_⟩
    change EStateM.bind (action setting) (fun value => next value setting) state = _
    rw [EStateM.bind, same]
    exact ends
  called setting reads state := (begins.called setting reads state).bind fun value middle =>
    (goesOn value).called setting reads middle

/-- Something is told of what is found by a look. -/
theorem Looks.tell [begins : Looks action] {tell : α → β} :
    Looks (do return tell (← action)) :=
  begins.bind fun _ => ⟨fun _ _ => ⟨_, rfl⟩, fun _ _ _ => ⟨_, .pure⟩⟩

instance : Looks kind := .tell

instance (expected : Kind) : Looks (atKind expected) := .tell

instance : Looks valueText := .tell

instance : Looks valueNumber := .tell

instance : Looks isStrict := .tell

instance : Looks hasTypes := .tell

instance (word : String) : Looks (atWord word) := .tell

instance (bracket : String) : Looks (atAngle bracket) := .tell

instance : Looks mark := .tell

instance : Looks allowsYieldName := .bind inferInstance fun _ => .bind inferInstance fun _ => .tell

/-- Notes are made beside the tokens. -/
theorem State.Notes.beside {first last : State} (notes : first.Notes last) :
    first.lexer.Beside last.lexer := by
  obtain ⟨strict, inType, same⟩ := notes.lexer
  exact ⟨strict, inType, _, _, same⟩

/-- The reading of tokens goes on from a state to the one in which a step ends: what has been
recorded stays, also if the step fails, and what is known of the tokens remains known. It is known
which nodes are given comments. -/
structure Advances (action : Parse α) : Prop where
  extends_ : ∀ setting (state : State),
    state.lexer.Extends (lastState (action setting state)).lexer
  traces : ∀ setting (state : State),
    Gives action setting state fun _ after => state.lexer.Traces setting.toSetting after.lexer
  called : ∀ setting (state : State),
    Called setting (Lexer.State.ReadsOn setting.toSetting) action state

/-- Besides, the step leaves behind what it found to be known of the code around. -/
structure Steps (action : Parse α) : Prop extends Advances action where
  flags : ∀ setting (state : State),
    Gives action setting state fun _ after => after.flags = state.flags

/-- Besides, the step leaves the decorators alone that wait for their class, and the labels. -/
class Plain (action : Parse α) : Prop extends Steps action where
  decorators : ∀ setting (state : State),
    Gives action setting state fun _ after => after.decorators = state.decorators
  labels : ∀ setting (state : State),
    Gives action setting state fun _ after => after.labels = state.labels

/-- Nodes that a parse holds are good. -/
def Every (good : Node → Prop) (nodes : List Node) : Prop := ∀ node ∈ nodes, good node

/-- A node that a parse may hold is good. -/
def Maybe (good : Node → Prop) (part : Option Node) : Prop := ∀ node ∈ part, good node

/-- The elements of a list that are no holes are good. -/
def Slots (good : Node → Prop) (slots : List (Option Node)) : Prop :=
  ∀ node, some node ∈ slots → good node

section Held

variable {good better : Node → Prop} {node : Node} {items : List Node} {slot : Option Node}
  {slots : List (Option Node)}

theorem Every.nil : Every good [] := nofun

theorem Every.cons (first : good node) (rest : Every good items) : Every good (node :: items) :=
  List.forall_mem_cons.mpr ⟨first, rest⟩

theorem Every.mono (all : Every good items) (implies : ∀ node, good node → better node) :
    Every better items := fun node inside => implies node (all node inside)

theorem Every.reverse (all : Every good items) : Every good items.reverse :=
  fun node inside => all node (List.mem_reverse.mp inside)

theorem Every.append {others : List Node} (all : Every good items) (more : Every good others) :
    Every good (items ++ others) :=
  List.forall_mem_append.mpr ⟨all, more⟩

theorem Maybe.none : Maybe good none := nofun

/-- A node that a parse holds is good if this one is. -/
theorem Maybe.some (holds : good node) : Maybe good (some node) := by
  rintro _ ⟨rfl⟩
  exact holds

theorem Slots.cons (first : Maybe good slot) (rest : Slots good slots) :
    Slots good (slot :: slots) := by
  intro node member
  rcases List.mem_cons.mp member with same | inside
  · exact first node same.symm
  · exact rest node inside

theorem Slots.reverse (all : Slots good slots) : Slots good slots.reverse :=
  fun node inside => all node (List.mem_reverse.mp inside)

/-- The nodes among elements are good if the elements are. -/
theorem Slots.nodes (all : Slots good slots) : Every good (slots.filterMap id) := by
  intro node inside
  obtain ⟨slot, member, same⟩ := List.mem_filterMap.mp inside
  exact all node (same ▸ member)

end Held

section Steps

variable {action first second : Parse α} {next : α → Parse β}

theorem Advances.bind (begins : Advances action) (goesOn : ∀ value, Advances (next value)) :
    Advances (action >>= next) where
  extends_ setting state := by
    have first := begins.extends_ setting state
    change state.lexer.Extends (lastState
      (EStateM.bind (action setting) (fun value => next value setting) state)).lexer
    unfold EStateM.bind
    cases ends : action setting state with
    | ok value middle =>
        rw [ends] at first
        exact first.trans ((goesOn value).extends_ setting middle)
    | error failure middle =>
        rw [ends] at first
        exact first
  traces setting state := by
    rw [Gives.bind_iff]
    refine (begins.traces setting state).mono fun value middle first => ?_
    exact ((goesOn value).traces setting middle).mono fun _ _ last => first.trans last
  called setting state := (begins.called setting state).bind fun value middle =>
    (goesOn value).called setting middle

theorem Steps.bind (begins : Steps action) (goesOn : ∀ value, Steps (next value)) :
    Steps (action >>= next) where
  toAdvances := begins.toAdvances.bind fun value => (goesOn value).toAdvances
  flags setting state := by
    rw [Gives.bind_iff]
    refine (begins.flags setting state).mono fun value middle first => ?_
    exact ((goesOn value).flags setting middle).mono fun _ _ last => last.trans first

instance (priority := low) [looking : Looks action] : Plain action where
  extends_ setting state := by
    obtain ⟨value, same⟩ := looking.looks setting state
    rw [same]
    exact .refl _
  traces setting state := by
    obtain ⟨value, same⟩ := looking.looks setting state
    intro _ after ends
    rw [same] at ends
    cases ends
    exact .refl _
  called setting state := looking.called setting _ state
  flags setting state := by
    obtain ⟨value, same⟩ := looking.looks setting state
    intro _ after ends
    rw [same] at ends
    cases ends
    rfl
  decorators setting state := by
    obtain ⟨value, same⟩ := looking.looks setting state
    intro _ after ends
    rw [same] at ends
    cases ends
    rfl
  labels setting state := by
    obtain ⟨value, same⟩ := looking.looks setting state
    intro _ after ends
    rw [same] at ends
    cases ends
    rfl

instance [begins : Plain action] [goesOn : ∀ value, Plain (next value)] :
    Plain (action >>= next) where
  toSteps := begins.toSteps.bind fun value => (goesOn value).toSteps
  decorators setting state := by
    rw [Gives.bind_iff]
    refine (begins.decorators setting state).mono fun value middle first => ?_
    exact ((goesOn value).decorators setting middle).mono fun _ _ last => last.trans first
  labels setting state := by
    rw [Gives.bind_iff]
    refine (begins.labels setting state).mono fun value middle first => ?_
    exact ((goesOn value).labels setting middle).mono fun _ _ last => last.trans first

/-- Two plain steps are plain together. -/
theorem Plain.after [Plain action] (goesOn : ∀ value, Plain (next value)) :
    Plain (action >>= next) := inferInstance

instance {value : α} : Plain (pure value) where
  extends_ _ _ := .refl _
  traces _ _ := gives_pure.mpr (.refl _)
  called _ _ := ⟨_, .pure⟩
  flags _ _ := gives_pure.mpr rfl
  decorators _ _ := gives_pure.mpr rfl
  labels _ _ := gives_pure.mpr rfl

instance {failure : Failure} : Plain (throw failure : Parse α) where
  extends_ _ _ := .refl _
  traces _ _ := gives_throw.mpr trivial
  called _ _ := ⟨_, .throw⟩
  flags _ _ := gives_throw.mpr trivial
  decorators _ _ := gives_throw.mpr trivial
  labels _ _ := gives_throw.mpr trivial

instance {condition : Prop} [Decidable condition] [holds : Plain first] [fails : Plain second] :
    Plain (if condition then first else second) := by
  split
  · exact holds
  · exact fails

instance {change : α → β} [Plain action] : Plain (change <$> action) := by
  rw [map_eq_pure_bind]
  infer_instance

instance {check : α → Parse PUnit} [checks : ∀ item, Plain (check item)] (items : List α) :
    Plain (items.forM check) := by
  induction items with
  | nil => exact inferInstanceAs (Plain (pure PUnit.unit))
  | cons item rest inductionHypothesis =>
      exact inferInstanceAs (Plain (check item >>= fun _ => rest.forM check))

theorem ite_bind {condition : Prop} [Decidable condition] :
    (if condition then first else second) >>= next =
      if condition then first >>= next else second >>= next := by
  split <;> rfl

/-- A plain step is a step. -/
theorem Steps.plain [plain : Plain action] : Steps action := plain.toSteps

/-- A plain step may come before any other. -/
theorem Steps.step [plain : Plain action] (goesOn : ∀ value, Steps (next value)) :
    Steps (action >>= next) := plain.toSteps.bind goesOn

theorem Steps.ite {condition : Prop} [Decidable condition] (holds : Steps first)
    (fails : Steps second) : Steps (if condition then first else second) := by
  split
  · exact holds
  · exact fails

theorem Advances.ite {condition : Prop} [Decidable condition] (holds : Advances first)
    (fails : Advances second) : Advances (if condition then first else second) := by
  split
  · exact holds
  · exact fails

/-- A plain step reads on. -/
theorem Advances.plain [plain : Plain action] : Advances action := plain.toAdvances

/-- A plain step may come before one that reads on. -/
theorem Advances.step [plain : Plain action] (goesOn : ∀ value, Advances (next value)) :
    Advances (action >>= next) := plain.toAdvances.bind goesOn

/-- A change that reads and records nothing, and moves no comment. -/
theorem Advances.modify {change : State → State} (notes : ∀ state : State, state.Notes (change state)) :
    Advances (modify change : Parse PUnit) where
  extends_ _ state := (notes state).beside.extends_
  traces _ state := gives_modify.mpr (notes state).beside.traces
  called _ state := ⟨_, .note (notes state)⟩

theorem Steps.modify {change : State → State} (notes : ∀ state : State, state.Notes (change state))
    (flags : ∀ state, (change state).flags = state.flags) :
    Steps (modify change : Parse PUnit) where
  toAdvances := .modify notes
  flags _ state := gives_modify.mpr (flags state)

theorem Plain.modify {change : State → State} (notes : ∀ state : State, state.Notes (change state))
    (flags : ∀ state, (change state).flags = state.flags)
    (decorators : ∀ state, (change state).decorators = state.decorators)
    (labels : ∀ state, (change state).labels = state.labels) :
    Plain (modify change : Parse PUnit) where
  toSteps := .modify notes flags
  decorators _ state := gives_modify.mpr (decorators state)
  labels _ state := gives_modify.mpr (labels state)

/-- A step that fails leaves only identities used up once its state goes back. -/
theorem Steps.rolledBack (steps : Steps action) {setting : Setting} {state last : State}
    {failure : Failure} (ends : action setting state = .error failure last) :
    last.rolledBack state = { state with identities := last.identities } := by
  have grown := steps.extends_ setting state
  rw [ends] at grown
  exact State.rolledBack_eq grown

/-- A trial of a step is a step. -/
theorem Steps.attempt (steps : Steps action) : Steps (attempt action) where
  extends_ setting state := by
    have grown := steps.extends_ setting state
    unfold Grammar.attempt
    cases ends : action setting state with
    | ok value last => rwa [ends] at grown
    | error failure last =>
        cases failure with
        | syntaxError error =>
            change state.lexer.Extends (last.rolledBack state).lexer
            rw [steps.rolledBack ends]
            exact .refl _
        | nestingTooDeep pos loc => rwa [ends] at grown
        | fault reason => rwa [ends] at grown
  traces setting state := by
    have traces := steps.traces setting state
    intro result last ends
    unfold Grammar.attempt at ends
    split at ends
    · next value after same =>
        cases ends
        exact traces value last same
    · next error after same =>
        cases ends
        exact steps.rolledBack same ▸ .refl _
    · cases ends
  called setting state :=
    (steps.called setting state).imp fun _ trial => .attempt trial (steps.extends_ setting state)
  flags setting state := by
    have flags := steps.flags setting state
    intro result last ends
    unfold Grammar.attempt at ends
    split at ends
    · next value after same =>
        cases ends
        exact flags value last same
    · next error after same =>
        cases ends
        exact steps.rolledBack same ▸ rfl
    · cases ends

/-- A step of the reading of tokens. -/
theorem Advances.ofScan {action : Lexer.Scan α}
    (extends_ : ∀ setting state, Lexer.State.Extends state (lastState (action setting state)))
    (traces : ∀ {setting state},
      Gives action setting state fun _ after => state.Traces setting after)
    (reads : ∀ {setting state},
      Gives action setting state fun _ after => state.ReadsOn setting after) :
    Advances (lex action) where
  extends_ setting state := by
    have grown := extends_ setting.toSetting state.lexer
    unfold Grammar.lex
    cases ends : action setting.toSetting state.lexer <;> rwa [ends] at grown
  traces setting state := by
    intro value after ends
    unfold Grammar.lex at ends
    cases same : action setting.toSetting state.lexer with
    | ok value lexer =>
        rw [same] at ends
        cases ends
        exact traces _ _ same
    | error failure lexer =>
        rw [same] at ends
        cases ends
  called _ _ := ⟨_, .lex reads⟩

theorem Plain.ofScan {action : Lexer.Scan α}
    (extends_ : ∀ setting state, Lexer.State.Extends state (lastState (action setting state)))
    (traces : ∀ {setting state},
      Gives action setting state fun _ after => state.Traces setting after)
    (reads : ∀ {setting state},
      Gives action setting state fun _ after => state.ReadsOn setting after)
    (manner : ∀ setting state, (lastState (action setting state)).manner = state.manner) :
    Plain (lex action) where
  toAdvances := .ofScan extends_ traces reads
  flags setting state := by
    have kept := manner setting.toSetting state.lexer
    intro value after ends
    unfold Grammar.lex at ends
    split at ends <;> cases ends
    next lexer same =>
      rw [same, lastState] at kept
      simp only [State.flags, kept]
  decorators setting state := by
    intro value after ends
    unfold Grammar.lex at ends
    split at ends <;> cases ends
    rfl
  labels setting state := by
    intro value after ends
    unfold Grammar.lex at ends
    split at ends <;> cases ends
    rfl

end Steps

section Tokens

instance : Plain next :=
  .ofScan (fun setting state => Lexer.next_maintains Lexer.State.Extends.closed
    Lexer.State.Extends.pass setting state (.refl _)) Lexer.next_traces (fun _ _ => .next)
    Lexer.next_manner

instance (kind : Kind) : Plain (eat kind) :=
  .ofScan (fun setting state => Lexer.eat_maintains kind Lexer.State.Extends.closed
    Lexer.State.Extends.pass setting state (.refl _)) (Lexer.eat_traces kind)
    (Lexer.eat_readsOn kind) (Lexer.eat_manner kind)

instance : Plain (lex Lexer.lookahead) :=
  .ofScan Lexer.lookahead_extends Lexer.lookahead_traces (fun _ _ => .lookahead)
    Lexer.lookahead_manner

/-- A parse reads on where strict code begins or ends. -/
theorem setStrict_advances (strict : Bool) : Advances (lex (Lexer.setStrict strict)) :=
  .ofScan (Lexer.setStrict_extends strict) (Lexer.setStrict_traces strict)
    fun _ _ => .setStrict

/-- Only whether the code is strict changes there. -/
theorem setStrict_keeps {strict : Bool} {setting : Setting} {state : State} :
    Gives (lex (Lexer.setStrict strict)) setting state fun _ after =>
      after.flags = { state.flags with strict := strict } ∧
        after.decorators = state.decorators ∧ after.labels = state.labels := by
  have manner := Lexer.setStrict_manner strict setting.toSetting state.lexer
  intro value after ends
  unfold lex at ends
  split at ends
  · next lexer same =>
      cases ends
      rw [same, lastState] at manner
      refine ⟨?_, rfl, rfl⟩
      simp only [State.flags, manner]
      rfl
  · cases ends

/-- What is read of the text without moving on changes nothing. -/
theorem Plain.still {action : Lexer.Scan α}
    (same : ∀ setting state, lastState (action setting state) = state) : Plain (lex action) := by
  have stays {setting : Lexer.Setting} {state : Lexer.State} :
      Gives action setting state fun _ after => after = state := by
    intro value after ends
    have stays := same setting state
    rwa [ends] at stays
  exact .ofScan (fun setting state => (same setting state).symm ▸ .refl _)
    (stays.mono fun _ _ same => same ▸ .refl _) (stays.mono fun _ _ same => same ▸ .stay)
    fun setting state => (same setting state).symm ▸ rfl

instance (pos : Nat) (problem : Problem) : Plain (raise pos problem : Parse α) :=
  .still fun _ _ => rfl

instance : Plain (unexpected : Parse α) := .still fun _ _ => rfl

instance (pos : Nat) : Plain (unexpectedAt pos : Parse α) := .still fun _ _ => rfl

theorem isKeyword_still (word : String) (setting : Lexer.Setting) (state : Lexer.State) :
    lastState (Lexer.isKeyword word setting state) = state := by
  change lastState ((if _ then pure _ else pure _ : Lexer.Scan Bool) setting state) = state
  split <;> rfl

instance (start stop : Nat) : Plain (lex (Lexer.slice start stop)) :=
  .still (Lexer.slice_still start stop)

instance (start stop : Nat) : Plain (lex (Lexer.breaksBetween start stop)) :=
  .still (Lexer.breaksBetween_still start stop)

instance (word : String) : Plain (lex (Lexer.isKeyword word)) := .still (isKeyword_still word)

instance : Plain (tooDeep : Parse α) := inferInstanceAs (Plain (get >>= _))

instance : Plain rawText := inferInstanceAs (Plain (get >>= _))

instance (expected : Kind) : Plain (expect expected) := inferInstanceAs (Plain (eat _ >>= _))

instance (word : String) : Plain (eatWord word) := inferInstanceAs (Plain (atWord _ >>= _))

instance (word : String) : Plain (expectWord word) := inferInstanceAs (Plain (eatWord _ >>= _))

instance (bracket : String) : Plain (expectAngle bracket) :=
  inferInstanceAs (Plain (atAngle _ >>= _))

instance : Plain onNewLine := inferInstanceAs (Plain (get >>= _))

instance : Plain mayEndStatement := inferInstanceAs (Plain (kind >>= _))

instance : Plain endsStatement := inferInstanceAs (Plain (eat _ >>= _))

instance : Plain endStatement := inferInstanceAs (Plain (endsStatement >>= _))

end Tokens

/-- After a turn that is not the last one comes the rest of a loop. -/
def Turn.goOn (rest : α → Parse β) : Turn α β → Parse β
  | .more gathered => rest gathered
  | .done result => pure result

/-- What holds of a loop without turns, and of a turn that goes on with what holds where one turn
less is left, holds of each loop. -/
theorem loopWithin_countdown (holds : Nat → α → Parse β → Prop) {turn : α → Parse (Turn α β)}
    (spent : ∀ gathered, holds 0 gathered tooDeep)
    (turns : ∀ count gathered (rest : α → Parse β), (∀ next, holds count next (rest next)) →
      holds (count + 1) gathered (turn gathered >>= Turn.goOn rest)) (count : Nat) (gathered : α) :
    holds count gathered (loopWithin turn count gathered) := by
  induction count generalizing gathered with
  | zero => exact spent gathered
  | succ count inductionHypothesis =>
      have step := turns count gathered (loopWithin turn count) inductionHypothesis
      have same : Turn.goOn (loopWithin turn count) = fun turned =>
          match turned with
          | .more next => loopWithin turn count next
          | .done result => pure result := by
        funext turned
        cases turned <;> rfl
      rwa [same] at step

/-- So does what does not depend on how many turns are left. -/
theorem loopWithin_induction (holds : α → Parse β → Prop) {turn : α → Parse (Turn α β)}
    (spent : ∀ gathered, holds gathered tooDeep)
    (turns : ∀ gathered (rest : α → Parse β), (∀ next, holds next (rest next)) →
      holds gathered (turn gathered >>= Turn.goOn rest)) (count : Nat) (gathered : α) :
    holds gathered (loopWithin turn count gathered) :=
  loopWithin_countdown (fun _ => holds) spent (fun _ => turns) count gathered

/-- A loop reads on if each turn does. -/
theorem Advances.loop {start : β} {turn : β → Parse (Turn β γ)}
    (turns : ∀ gathered, Advances (turn gathered)) : Advances (loop start turn) :=
  .step fun _ => loopWithin_induction (fun _ => Advances) (fun _ => .plain)
    (fun gathered rest goesOn => (turns gathered).bind fun turned => by
      cases turned with
      | more next => exact goesOn next
      | done result => exact (.plain : Advances (pure result))) _ start

/-- What a turn of a loop results in keeps to the invariant, or is good. -/
def Turned (invariant : α → Prop) (good : β → Prop) : Turn α β → Prop
  | .more gathered => invariant gathered
  | .done result => good result

/-- A step is taken in a state that is made for it, and what was known before is known again. -/
def within (enter : State → State) (leave : State → State → State) (action : Parse α) :
    Parse α := do
  let before ← get
  modify enter
  let value ← action
  modify (leave before)
  return value

/-- What is known of the code around is changed on the way in and set back on the way out. -/
structure Scope (enter : State → State) (leave : State → State → State) : Prop where
  entered : ∀ state : State, state.Notes (enter state)
  left : ∀ before after : State, after.Notes (leave before after)
  flags : ∀ before after, after.flags = (enter before).flags →
    (leave before after).flags = before.flags
  decorators : ∀ state, (enter state).decorators = state.decorators
  decorated : ∀ before after, (leave before after).decorators = after.decorators
  labels : ∀ before after, after.labels = (enter before).labels →
    (leave before after).labels = before.labels

section Within

variable {enter : State → State} {leave : State → State → State} {action : Parse α}

theorem within_eq (setting : Setting) (state : State) : within enter leave action setting state =
    match action setting (enter state) with
    | .ok value after => .ok value (leave state after)
    | .error failure after => .error failure after := by
  change EStateM.bind (action setting) _ (enter state) = _
  unfold EStateM.bind
  cases action setting (enter state) <;> rfl

theorem gives_within {setting : Setting} {state : State} {post : α → State → Prop} :
    Gives (within enter leave action) setting state post ↔
      Gives action setting (enter state) fun value after => post value (leave state after) := by
  unfold Gives
  rw [within_eq]
  cases action setting (enter state) <;> simp

/-- A step reads on within a scope if it does elsewhere. -/
theorem Advances.within (scope : Scope enter leave) (advances : Advances action) :
    Advances (within enter leave action) where
  extends_ setting state := by
    have grown := advances.extends_ setting (enter state)
    rw [within_eq]
    cases ends : action setting (enter state) with
    | ok value after =>
        rw [ends] at grown
        exact ((scope.entered state).beside.extends_.trans grown).trans
          (scope.left state after).beside.extends_
    | error failure after =>
        rw [ends] at grown
        exact (scope.entered state).beside.extends_.trans grown
  traces setting state := gives_within.mpr <|
    (advances.traces setting (enter state)).mono fun _ after traces =>
      ((scope.entered state).beside.traces.trans traces).trans (scope.left state after).beside.traces
  called setting state := by
    refine .bind ⟨_, .get⟩ fun before _ => .bind ⟨_, .note (scope.entered _)⟩ fun _ middle => ?_
    refine (advances.called setting middle).bind fun value after => ?_
    exact .bind ⟨_, .note (scope.left before after)⟩ fun _ _ => ⟨_, .pure⟩

/-- A step within a scope leaves behind what it found. -/
theorem Steps.within (scope : Scope enter leave) (steps : Steps action) :
    Steps (within enter leave action) where
  toAdvances := .within scope steps.toAdvances
  flags setting state := gives_within.mpr <|
    (steps.flags setting (enter state)).mono fun _ after same => scope.flags state after same

/-- One level deeper. -/
theorem Scope.deeper : Scope (fun state => { state with depth := state.depth + 1 })
    (fun _ state => { state with depth := state.depth - 1 }) where
  entered _ := ⟨⟨_, _, rfl⟩, rfl, rfl⟩
  left _ _ := ⟨⟨_, _, rfl⟩, rfl, rfl⟩
  flags before after same := by
    rw [State.flags_eq_iff] at same ⊢
    simp_all
  decorators _ := rfl
  decorated _ _ := rfl
  labels _ _ same := same

/-- One level deeper is a scope. -/
theorem nested_eq (action : Parse α) : nested action = within
    (fun state => { state with depth := state.depth + 1 })
    (fun _ state => { state with depth := state.depth - 1 })
    (do
      if (← get).depth > depthLimit then tooDeep
      action) := by
  funext setting state
  rw [within_eq]
  change (if state.depth + 1 > depthLimit then _ else _ : Parse α) setting _ =
    match (if state.depth + 1 > depthLimit then _ else _ : Parse α) setting _ with
    | .ok value after => _
    | .error failure after => _
  split
  · rfl
  · change EStateM.bind (action setting) _ _ = _
    unfold EStateM.bind
    cases action setting { state with depth := state.depth + 1 } <;> rfl

/-- A step one level deeper is a step. -/
theorem nested_steps (steps : Steps action) : Steps (nested action) := by
  rw [nested_eq]
  exact .within .deeper (.step fun _ => .ite (.step fun _ => steps) steps)

end Within

section Gives

variable {action : Parse α} {setting : Setting} {state : State}

/-- A look changes nothing. -/
theorem Looks.still [looking : Looks action] (setting : Setting) (state : State) :
    Gives action setting state fun _ after => after = state := by
  obtain ⟨value, same⟩ := looking.looks setting state
  intro _ after ends
  rw [same] at ends
  cases ends
  rfl

/-- A step that only looks comes first. -/
theorem gives_look [looking : Looks action] {next : α → Parse β} {post : β → State → Prop}
    (each : ∀ value, Gives (next value) setting state post) :
    Gives (action >>= next) setting state post := by
  obtain ⟨value, same⟩ := looking.looks setting state
  rw [Gives.bind_iff]
  intro _ _ ends
  rw [same] at ends
  cases ends
  exact each value

theorem gives_kind {post : Kind → State → Prop} :
    Gives kind setting state post ↔ post state.lexer.kind state := by
  simp only [kind, Gives.bind_iff, gives_get, gives_pure]

theorem gives_atKind {expected : Kind} {post : Bool → State → Prop} :
    Gives (atKind expected) setting state post ↔ post (state.lexer.kind == expected) state := by
  simp only [atKind, Gives.bind_iff, gives_kind, gives_pure]

theorem gives_mark {post : Mark → State → Prop} :
    Gives mark setting state post ↔ post ⟨state.lexer.start, state.lexer.startLoc⟩ state := by
  simp only [mark, Gives.bind_iff, gives_get, gives_pure]

theorem gives_valueText {post : String → State → Prop} :
    Gives valueText setting state post ↔ post (state.lexer.value.text?.getD "") state := by
  simp only [valueText, Gives.bind_iff, gives_get, gives_pure]

/-- One level deeper a step gives what it gives anyway. -/
theorem gives_nested (post : α → Lexer.State → Prop)
    (gives : ∀ deeper : State, deeper.lexer = state.lexer →
      Gives action setting deeper fun value after => post value after.lexer) :
    Gives (nested action) setting state fun value after => post value after.lexer := by
  simp only [nested, Gives.bind_iff, gives_modify, gives_get]
  refine gives_ite (fun _ => fun _ _ absent => by cases absent) fun _ => ?_
  rw [Gives.bind_iff]
  refine (gives { state with depth := state.depth + 1 } rfl).mono fun value after met => ?_
  rw [Gives.bind_iff, gives_modify, gives_pure]
  exact met

/-- A loop gives what its last turn gives, given that each turn keeps to an invariant. -/
theorem gives_loop (invariant : α → State → Prop) (ends : β → State → Prop) {start : α}
    {turn : α → Parse (Turn α β)}
    (turns : ∀ gathered state, invariant gathered state →
      Gives (turn gathered) setting state fun turned after =>
        match turned with
        | .more next => invariant next after
        | .done result => ends result after)
    (begins : invariant start state) : Gives (loop start turn) setting state ends := by
  rw [loop, Gives.bind_iff, gives_read]
  refine loopWithin_induction (fun gathered action => ∀ state, invariant gathered state →
    Gives action setting state ends) (fun _ _ _ _ _ absent => by cases absent)
    (fun gathered rest goesOn state known => ?_) _ start state begins
  rw [Gives.bind_iff]
  refine (turns gathered state known).mono fun turned after met => ?_
  cases turned with
  | more next => exact goesOn next after met
  | done result => exact gives_pure.mpr met

end Gives

/-- Whatever a step ends with is good, no matter where it begins. -/
def Ends (action : Parse α) (good : α → Prop) : Prop :=
  ∀ setting state, Gives action setting state fun value _ => good value

namespace Ends

variable {action first second : Parse α} {next : α → Parse β} {good : β → Prop}
  {holds better : α → Prop}

theorem mono (ends : Ends action holds) (implies : ∀ value, holds value → better value) :
    Ends action better := fun setting state =>
  (ends setting state).mono fun value _ => implies value

theorem bind (begins : Ends action holds) (goesOn : ∀ value, holds value → Ends (next value) good) :
    Ends (action >>= next) good := fun setting state =>
  Gives.bind_iff.mpr ((begins setting state).mono fun value after known =>
    goesOn value known setting after)

/-- What comes before the last step does not matter. -/
theorem last (goesOn : ∀ value, Ends (next value) good) : Ends (action >>= next) good :=
  fun setting _ => Gives.last fun value after => goesOn value setting after

/-- A value that is known to be good is a good end. -/
theorem give {value : α} (known : holds value) : Ends (Pure.pure value) holds := fun _ _ =>
  gives_pure.mpr known

/-- Which of two steps is taken tells something. -/
theorem split {condition : Prop} [Decidable condition] (begins : condition → Ends first holds)
    (goesOn : ¬condition → Ends second holds) : Ends (if condition then first else second) holds :=
  fun _ _ => gives_ite (fun known => begins known _ _) fun known => goesOn known _ _

theorem ite {condition : Prop} [Decidable condition] (begins : Ends first holds)
    (goesOn : Ends second holds) : Ends (if condition then first else second) holds :=
  split (fun _ => begins) fun _ => goesOn

/-- What would follow a failure is never reached. -/
theorem raised {pos : Nat} {problem : Problem} {next : α → Parse β} :
    Ends (Grammar.raise pos problem >>= next) good := fun _ _ _ _ absent => by
  cases absent

/-- A choice between two steps after which the parse goes on alike. -/
theorem choose {condition : Prop} [Decidable condition]
    (goesOn : ∀ value, Ends (next value) good) :
    Ends (if condition then first >>= next else second >>= next) good :=
  ite (last goesOn) (last goesOn)

/-- A check may come before a good end. -/
theorem guard {condition : Prop} [Decidable condition] {check : Parse PUnit}
    {next : PUnit → Parse β} (goesOn : Ends (next ⟨⟩) good) :
    Ends (if condition then check >>= next else next ⟨⟩) good :=
  ite (last fun _ => goesOn) goesOn

/-- A loop ends well if it keeps what it begins with. -/
theorem loop (holds : α → Prop) {start : α} {turn : α → Parse (Turn α β)} (begins : holds start)
    (turns : ∀ gathered, holds gathered → Ends (turn gathered) (Turned holds good)) :
    Ends (Grammar.loop start turn) good := fun setting state => by
  refine gives_loop (fun gathered _ => holds gathered) (fun result _ => good result)
    (fun gathered state known => ?_) begins
  refine (turns gathered known setting state).mono ?_
  intro turned _ met
  cases turned with
  | more next => exact met
  | done result => exact met

end Ends

end Grammar

end EcmaSyntax
