import EcmaSyntax.Proofs.Place.Keep

namespace EcmaSyntax

namespace Grammar

variable {α β : Type}

/-- Nothing that has been recorded is lost, and no identity is used again. -/
structure State.Grown (first last : State) : Prop where
  recorded : first.lexer.Extends last.lexer
  ids : first.identities.Before last.identities

/-- Besides, the current token and the one before it lie further on in the text. -/
structure State.Ahead (first last : State) : Prop extends State.Grown first last where
  start : first.lexer.start ≤ last.lexer.start
  lastStop : first.lexer.lastStop ≤ last.lexer.lastStop

/-- Besides, no decorator waits that has not waited before. -/
structure State.Onward (first last : State) : Prop extends State.Ahead first last where
  waiting : last.decorators.Sublist first.decorators

theorem State.Grown.refl (state : State) : state.Grown state := ⟨.refl _, .refl _⟩

theorem State.Grown.trans {first middle last : State} (begins : first.Grown middle)
    (ends : middle.Grown last) : first.Grown last :=
  ⟨begins.recorded.trans ends.recorded, begins.ids.trans ends.ids⟩

theorem State.Ahead.refl (state : State) : state.Ahead state :=
  ⟨.refl _, Nat.le_refl _, Nat.le_refl _⟩

theorem State.Ahead.trans {first middle last : State} (begins : first.Ahead middle)
    (ends : middle.Ahead last) : first.Ahead last :=
  ⟨begins.toGrown.trans ends.toGrown, Nat.le_trans begins.start ends.start,
    Nat.le_trans begins.lastStop ends.lastStop⟩

theorem State.Onward.refl (state : State) : state.Onward state := ⟨.refl _, .refl _⟩

theorem State.Onward.trans {first middle last : State} (begins : first.Onward middle)
    (ends : middle.Onward last) : first.Onward last :=
  ⟨begins.toAhead.trans ends.toAhead, ends.waiting.trans begins.waiting⟩

/-- A step changes nothing about the nodes that have been built, and its problems lie in their
places. -/
class Reads (action : Parse α) : Prop extends Advances action where
  ids : ∀ setting (state : State),
    (lastState (action setting state)).identities = state.identities
  sited : ∀ setting (state : State), state.lexer.Sited setting.toSetting →
    Gives action setting state fun _ after => after.lexer.Sited setting.toSetting
  decorators : ∀ setting (state : State),
    Gives action setting state fun _ after => after.decorators = state.decorators
  attachments : ∀ setting (state : State),
    Gives action setting state fun _ after => after.attachments = state.attachments
  fails : ∀ setting (state : State), state.lexer.Sited setting.toSetting →
    Fails action setting state (Failure.Placed setting.source)

/-- Besides, the step passes at least one token. -/
class Passing (action : Parse α) : Prop extends Reads action where
  passes : ∀ setting (state : State), state.lexer.Sited setting.toSetting →
    Gives action setting state fun _ after => state.lexer.start ≤ after.lexer.lastStop

section Steps

variable {action first second : Parse α} {next : α → Parse β} {setting : Setting} {state : State}

/-- The reading goes on, or it stops. -/
theorem Reads.grown [reads : Reads action] :
    state.Grown (lastState (action setting state)) :=
  ⟨reads.extends_ setting state, (reads.ids setting state).symm ▸ .refl _⟩

theorem Reads.onward [reads : Reads action] (sited : state.lexer.Sited setting.toSetting) :
    Gives action setting state fun _ after => state.Onward after := by
  intro value after ends
  have onward := (reads.traces setting state value after ends).onward sited.tracked
  have grown : state.Grown (lastState (action setting state)) := reads.grown
  rw [ends] at grown
  have waiting := reads.decorators setting state value after ends
  exact ⟨⟨grown, onward.1, onward.2⟩, waiting ▸ .refl _⟩

/-- What is held stays as it is. -/
theorem Reads.keeps [reads : Reads action] {held : List Finished}
    (keeps : state.Keeps setting held) :
    Gives action setting state fun _ after => after.Keeps setting held := by
  intro value after ends
  have onward := reads.onward keeps.sited value after ends
  have ids := reads.ids setting state
  rw [ends] at ids
  exact keeps.goOn (reads.sited _ _ keeps.sited _ _ ends) onward.recorded onward.lastStop
    (reads.decorators _ _ _ _ ends) (reads.attachments _ _ _ _ ends) ids

instance (priority := low) [looking : Looks action] : Reads action where
  toAdvances := .plain
  ids setting state := by
    obtain ⟨value, same⟩ := looking.looks setting state
    rw [same, lastState]
  sited setting state sited := by
    obtain ⟨value, same⟩ := looking.looks setting state
    intro _ after ends
    rw [same] at ends
    cases ends
    exact sited
  decorators setting state := by
    obtain ⟨value, same⟩ := looking.looks setting state
    intro _ after ends
    rw [same] at ends
    cases ends
    rfl
  attachments setting state := by
    obtain ⟨value, same⟩ := looking.looks setting state
    intro _ after ends
    rw [same] at ends
    cases ends
    rfl
  fails setting state _ := .never ((looking.looks setting state).imp fun _ same => ⟨_, same⟩)

instance [begins : Reads action] [goesOn : ∀ value, Reads (next value)] :
    Reads (action >>= next) where
  toAdvances := begins.toAdvances.bind fun value => (goesOn value).toAdvances
  ids setting state := by
    have first := begins.ids setting state
    change (lastState
      (EStateM.bind (action setting) (fun value => next value setting) state)).identities = _
    unfold EStateM.bind
    cases ends : action setting state with
    | ok value middle =>
        rw [ends] at first
        exact ((goesOn value).ids setting middle).trans first
    | error failure middle =>
        rw [ends] at first
        exact first
  sited setting state sited := Gives.bind_iff.mpr <|
    (begins.sited setting state sited).mono fun value middle => (goesOn value).sited setting middle
  decorators setting state := Gives.bind_iff.mpr <|
    (begins.decorators setting state).mono fun value middle first =>
      ((goesOn value).decorators setting middle).mono fun _ _ last => last.trans first
  attachments setting state := Gives.bind_iff.mpr <|
    (begins.attachments setting state).mono fun value middle first =>
      ((goesOn value).attachments setting middle).mono fun _ _ last => last.trans first
  fails setting state sited := (begins.fails setting state sited).bind fun value middle ends =>
    (goesOn value).fails setting middle (begins.sited setting state sited _ _ ends)

instance {value : α} : Reads (pure value) where
  toAdvances := .plain
  ids _ _ := rfl
  sited _ _ sited := gives_pure.mpr sited
  decorators _ _ := gives_pure.mpr rfl
  attachments _ _ := gives_pure.mpr rfl
  fails _ _ _ := .never ⟨_, _, rfl⟩

instance {change : α → β} [reads : Reads action] : Reads (change <$> action) := by
  rw [← bind_pure_comp]
  infer_instance

instance {condition : Prop} [Decidable condition] [holds : Reads first] [fails : Reads second] :
    Reads (if condition then first else second) := by
  split
  · exact holds
  · exact fails

/-- A step of the reading of tokens fails as it does in a parse. -/
theorem fails_lex {α : Type} {action : Lexer.Scan α} {setting : Setting}
    {state : State} {wrong : Failure → Prop}
    (fails : Fails action setting.toSetting state.lexer wrong) :
    Fails (lex action) setting state wrong := by
  intro failure after failed
  unfold lex at failed
  split at failed <;> cases failed
  next lexer same => exact fails _ _ same

/-- A step of the reading of tokens. -/
theorem Reads.ofScan {action : Lexer.Scan α} (advances : Advances (lex action))
    (sited : ∀ {setting} {state : Lexer.State}, state.Sited setting →
      Gives action setting state fun _ after => after.Sited setting)
    (inPlace : ∀ {setting} {state : Lexer.State}, state.Sited setting →
      Lexer.InPlace action setting state) : Reads (lex action) where
  toAdvances := advances
  ids setting state := by
    unfold lex
    cases action setting.toSetting state.lexer <;> rfl
  sited setting state known := by
    intro value after ends
    unfold lex at ends
    split at ends <;> cases ends
    next lexer same => exact sited known _ _ same
  decorators setting state := by
    intro value after ends
    unfold lex at ends
    split at ends <;> cases ends
    rfl
  attachments setting state := by
    intro value after ends
    unfold lex at ends
    split at ends <;> cases ends
    rfl
  fails setting state known := fails_lex ((inPlace known).places known.octal)

/-- A step that looks at the text, and never fails but with a fault. -/
theorem Reads.still {action : Lexer.Scan α} [Lexer.Tame action]
    (same : ∀ setting state, lastState (action setting state) = state) : Reads (lex action) :=
  .ofScan (Plain.still same).toAdvances (fun {setting state} sited value after ends => by
    have stays : after = state := by simpa [ends, lastState] using same setting state
    exact stays ▸ sited) fun _ => .tame

/-- A change of what is known of the code around. -/
theorem Reads.modify {change : State → State} (notes : ∀ state : State, state.Notes (change state))
    (ids : ∀ state, (change state).identities = state.identities)
    (decorators : ∀ state, (change state).decorators = state.decorators) :
    Reads (modify change : Parse PUnit) where
  toAdvances := .modify notes
  ids _ := ids
  sited _ state sited := gives_modify.mpr <| by
    obtain ⟨_, _, same⟩ := (notes state).lexer
    exact same ▸ sited.noted _ _ sited.posted.recalls.leading sited.posted.recalls.trailing
  decorators _ state := gives_modify.mpr (decorators state)
  attachments _ state := gives_modify.mpr (notes state).attachments
  fails _ _ _ := .never ⟨_, _, rfl⟩

instance {condition : Prop} [Decidable condition] [holds : Passing first]
    [fails : Passing second] : Passing (if condition then first else second) := by
  split
  · exact holds
  · exact fails

/-- A token is passed by the second of two steps. -/
theorem Passing.after [begins : Reads action] [goesOn : ∀ value, Passing (next value)] :
    Passing (action >>= next) where
  toReads := inferInstance
  passes setting state sited := Gives.bind_iff.mpr fun value middle ends =>
    have onward := begins.onward sited value middle ends
    ((goesOn value).passes setting middle (begins.sited setting state sited value middle ends)).mono
      fun _ _ passed => Nat.le_trans onward.start passed

end Steps

section Tokens

/-- The current token is passed. -/
instance : Passing next where
  toReads := .ofScan (inferInstance : Plain next).toAdvances Lexer.State.Sited.next
    fun sited => Lexer.next_inPlace sited.sound sited.posted.pos
  passes setting state sited := by
    intro value after ends
    unfold next lex at ends
    split at ends <;> cases ends
    next lexer same => exact sited.passes _ _ same

instance (kind : Kind) : Reads (eat kind) :=
  .ofScan (inferInstance : Plain (eat kind)).toAdvances (fun sited => sited.eat kind)
    fun sited => Lexer.eat_inPlace sited.sound sited.posted.pos

instance : Reads (lex Lexer.lookahead) :=
  .ofScan (inferInstance : Plain (lex Lexer.lookahead)).toAdvances
    (fun sited => sited.lookahead.mono fun _ _ same => same ▸ sited)
    fun sited => Lexer.lookahead_inPlace sited.tracked.recording sited.sound sited.posted.pos

instance (strict : Bool) : Reads (lex (Lexer.setStrict strict)) :=
  .ofScan (setStrict_advances strict) (fun sited => sited.setStrict strict)
    fun sited => Lexer.setStrict_inPlace sited.sound sited.posted.start

instance (start stop : Nat) : Reads (lex (Lexer.slice start stop)) :=
  .still (Lexer.slice_still start stop)

instance (start stop : Nat) : Reads (lex (Lexer.breaksBetween start stop)) :=
  .still (Lexer.breaksBetween_still start stop)

instance (word : String) : Reads (lex (Lexer.isKeyword word)) := .still (isKeyword_still word)

/-- What is unexpected is never passed. -/
instance : Passing (unexpected : Parse α) where
  toReads := .ofScan (inferInstance : Plain unexpected).toAdvances
    (fun _ _ _ absent => by cases absent) fun sited => .onGet (.onGet (.raise sited.posted.start))
  passes _ _ _ _ _ absent := by cases absent

instance : Reads (tooDeep : Parse α) where
  toAdvances := .plain
  ids _ _ := rfl
  sited _ _ _ _ _ absent := by cases absent
  decorators _ _ _ _ absent := by cases absent
  attachments _ _ _ _ absent := by cases absent
  fails _ _ _ := by
    rintro _ _ ⟨⟩
    trivial

instance : Reads rawText := inferInstanceAs (Reads (get >>= _))

theorem eat_passes {kind : Kind} {setting : Setting} {state : State}
    (sited : state.lexer.Sited setting.toSetting) : Gives (eat kind) setting state
      fun passed after => passed = true → state.lexer.start ≤ after.lexer.lastStop := by
  have read : Gives (Lexer.eat kind) setting.toSetting state.lexer
      fun passed after => passed = true → state.lexer.start ≤ after.lastStop := by
    simp only [Lexer.eat, Lexer.atKind, Gives.bind_iff, gives_get, gives_pure]
    refine gives_ite (fun _ => ?_) fun _ =>
      gives_pure.mpr fun passed => absurd passed Bool.false_ne_true
    rw [Gives.bind_iff]
    exact sited.passes.mono fun _ _ passed => gives_pure.mpr fun _ => passed
  intro passed after ends
  unfold eat lex at ends
  split at ends <;> cases ends
  next lexer same => exact read _ _ same

/-- There is something in each token but the end of the text and the chunks of templates. -/
theorem expect_passesFilled {kind : Kind} {setting : Setting} {state : State}
    (sited : state.lexer.Sited setting.toSetting) (more : kind ≠ .eof) (plain : kind ≠ .template) :
    Gives (expect kind) setting state fun _ after => state.lexer.start < after.lexer.lastStop := by
  have read : Gives (Lexer.eat kind) setting.toSetting state.lexer
      fun passed after => passed = true → state.lexer.start < after.lastStop := by
    simp only [Lexer.eat, Lexer.atKind, Gives.bind_iff, gives_get, gives_pure]
    refine gives_ite (fun here => ?_) fun _ =>
      gives_pure.mpr fun passed => absurd passed Bool.false_ne_true
    have same : state.lexer.kind = kind := by simpa using here
    rw [Gives.bind_iff]
    exact (sited.passesFilled (same ▸ more) (same ▸ plain)).mono fun _ _ passed =>
      gives_pure.mpr fun _ => passed
  rw [expect, Gives.bind_iff]
  intro passed after ends
  unfold eat lex at ends
  split at ends <;> cases ends
  next lexer same =>
    cases passed with
    | true => exact gives_pure.mpr (read _ _ same rfl)
    | false =>
        intro _ _ absent
        cases absent

instance (word : String) : Reads (eatWord word) := inferInstanceAs (Reads (atWord _ >>= _))

/-- A word that is eaten has begun before the last token ends. -/
theorem eatWord_passes {word : String} {setting : Setting} {state : State}
    (sited : state.lexer.Sited setting.toSetting) : Gives (eatWord word) setting state
      fun passed after => passed = true → state.lexer.start ≤ after.lexer.lastStop := by
  simp only [eatWord, atWord, Gives.bind_iff, gives_get, gives_pure]
  refine gives_ite (fun _ => ?_) fun _ =>
    gives_pure.mpr fun passed => absurd passed Bool.false_ne_true
  rw [Gives.bind_iff]
  exact (Passing.passes _ _ sited).mono fun _ _ passed => gives_pure.mpr fun _ => passed

/-- What has to be passed is passed. -/
theorem Passing.require {action : Parse Bool} [reads : Reads action]
    (passes : ∀ {setting} {state : State}, state.lexer.Sited setting.toSetting →
      Gives action setting state fun passed after =>
        passed = true → state.lexer.start ≤ after.lexer.lastStop) :
    Passing (do if !(← action) then unexpected) where
  toReads := inferInstance
  passes setting state sited := Gives.bind_iff.mpr fun passed middle ends => by
    cases passed with
    | true => exact gives_pure.mpr (passes sited _ _ ends rfl)
    | false =>
        intro _ _ absent
        cases absent

instance (expected : Kind) : Passing (expect expected) := .require eat_passes

instance (word : String) : Passing (expectWord word) := .require eatWord_passes

instance (bracket : String) : Passing (expectAngle bracket) :=
  have (found : Bool) : Passing (if found = true then next else unexpected) := inferInstance
  .after

instance : Reads onNewLine := inferInstanceAs (Reads (get >>= _))

instance : Reads mayEndStatement := inferInstanceAs (Reads (kind >>= _))

instance : Reads endsStatement := inferInstanceAs (Reads (eat _ >>= _))

instance : Reads endStatement := inferInstanceAs (Reads (endsStatement >>= _))

end Tokens

end Grammar

end EcmaSyntax
