import EcmaSyntax.Lexer.Next
import EcmaSyntax.Proofs.Lexer.Spelling
import EcmaSyntax.Proofs.Text.Seam

namespace EcmaSyntax

section Fails

variable {Setting State α β : Type} {action : ReaderT Setting (EStateM Failure State) α}
  {next : α → ReaderT Setting (EStateM Failure State) β}
  {setting : Setting} {state : State} {wrong : Failure → Prop}

/-- If a step fails, its failure fulfils a condition. -/
def Fails (action : ReaderT Setting (EStateM Failure State) α) (setting : Setting)
    (state : State) (wrong : Failure → Prop) : Prop :=
  ∀ failure after, action setting state = .error failure after → wrong failure

theorem Fails.mono {weaker : Failure → Prop} (fails : Fails action setting state wrong)
    (implies : ∀ failure, wrong failure → weaker failure) : Fails action setting state weaker :=
  fun failure after failed => implies failure (fails failure after failed)

/-- Two steps fail as the first one does, or as the second one does where the first one ends. -/
theorem Fails.bind (begins : Fails action setting state wrong)
    (goesOn : Gives action setting state fun value after =>
      Fails (next value) setting after wrong) :
    Fails (action >>= next) setting state wrong := by
  intro failure after failed
  change EStateM.bind (action setting) (fun value => next value setting) state = _ at failed
  unfold EStateM.bind at failed
  cases ends : action setting state with
  | ok value middle =>
      rw [ends] at failed
      exact goesOn value middle ends failure after failed
  | error other middle =>
      rw [ends] at failed
      cases failed
      exact begins _ _ ends

theorem fails_throw {failure : Failure} (known : wrong failure) :
    Fails (throw failure : ReaderT Setting (EStateM Failure State) α) setting state wrong := by
  rintro _ _ ⟨⟩
  exact known

/-- A step that always succeeds. -/
theorem Fails.never (succeeds : ∃ value after, action setting state = .ok value after) :
    Fails action setting state wrong := by
  obtain ⟨value, after, same⟩ := succeeds
  intro _ _ failed
  rw [same] at failed
  cases failed

end Fails

namespace Lexer

variable {α β : Type} {action first second : Scan α} {next : α → Scan β} {setting : Setting}
  {state : State}

/-- The offset of an escape that is remembered stays the same, or is forgotten. -/
def State.Remembers (first last : State) : Prop :=
  last.octalPosition = first.octalPosition ∨ last.octalPosition = none

theorem State.Remembers.trans {first middle last : State} (begins : first.Remembers middle)
    (ends : middle.Remembers last) : first.Remembers last := by
  rcases ends with same | none
  · exact begins.imp same.trans same.trans
  · exact .inr none

/-- A step that raises no problem and remembers no escape. -/
class Tame (action : Scan α) : Prop where
  tame : ∀ setting state, Fails action setting state fun failure => failure.isFault = true
  remembers : ∀ setting state, Gives action setting state fun _ after => state.Remembers after

/-- A step that leaves the start of the current token. -/
class Anchored (action : Scan α) : Prop where
  anchored : ∀ setting state, Gives action setting state fun _ after => after.start = state.start

section Instances

/-- A step that only looks at the state succeeds, or it fails with a fault. -/
theorem Tame.still (looks : ∀ setting state, (∃ value, action setting state = .ok value state) ∨
    ∃ reason, action setting state = .error (.fault reason) state) : Tame action where
  tame setting state := by
    rintro _ _ failed
    rcases looks setting state with ⟨_, same⟩ | ⟨_, same⟩ <;> rw [same] at failed <;> cases failed
    rfl
  remembers setting state := by
    rintro _ _ ends
    rcases looks setting state with ⟨_, same⟩ | ⟨_, same⟩ <;> rw [same] at ends <;> cases ends
    exact .inl rfl

theorem Tame.modify {change : State → State}
    (remembers : ∀ state : State, state.Remembers (change state)) :
    Tame (modify change : Scan PUnit) where
  tame _ _ := .never ⟨_, _, rfl⟩
  remembers _ state := gives_modify.mpr (remembers state)

instance [begins : Tame action] [goesOn : ∀ value, Tame (next value)] : Tame (action >>= next) where
  tame setting state := (begins.tame setting state).bind fun value after _ =>
    (goesOn value).tame setting after
  remembers setting state := Gives.bind_iff.mpr <|
    (begins.remembers setting state).mono fun value after first =>
      ((goesOn value).remembers setting after).mono fun _ _ last => first.trans last

instance {value : α} : Tame (pure value) := .still fun _ _ => .inl ⟨_, rfl⟩

/-- The second of two steps may be looked at by cases. -/
theorem Tame.step [Tame action] (goesOn : ∀ value, Tame (next value)) : Tame (action >>= next) :=
  inferInstance

instance : Tame (get : Scan State) := .still fun _ _ => .inl ⟨_, rfl⟩

instance : Tame (read : Scan Setting) := .still fun _ _ => .inl ⟨_, rfl⟩

instance {reason : Fault} : Tame (fault reason : Scan α) := .still fun _ _ => .inr ⟨_, rfl⟩

instance {condition : Prop} [Decidable condition] [Tame first] [Tame second] :
    Tame (if condition then first else second) := by
  split <;> infer_instance

instance [begins : Anchored action] [goesOn : ∀ value, Anchored (next value)] :
    Anchored (action >>= next) where
  anchored setting state := Gives.bind_iff.mpr <|
    (begins.anchored setting state).mono fun value after same =>
      ((goesOn value).anchored setting after).mono fun _ _ later => later.trans same

instance {value : α} : Anchored (pure value) := ⟨fun _ _ => gives_pure.mpr rfl⟩

instance : Anchored (get : Scan State) := ⟨fun _ _ => gives_get.mpr rfl⟩

instance : Anchored (read : Scan Setting) := ⟨fun _ _ => gives_read.mpr rfl⟩

instance {failure : Failure} : Anchored (throw failure : Scan α) :=
  ⟨fun _ _ => gives_throw.mpr trivial⟩

instance {condition : Prop} [Decidable condition] [Anchored first] [Anchored second] :
    Anchored (if condition then first else second) := by
  split <;> infer_instance

theorem Anchored.modify {change : State → State}
    (same : ∀ state, (change state).start = state.start) : Anchored (modify change : Scan PUnit) :=
  ⟨fun _ state => gives_modify.mpr (same state)⟩

instance : Tame source := inferInstanceAs (Tame (read >>= _))

instance (ahead : Nat) : Tame (peek ahead) := inferInstanceAs (Tame (source >>= _))

instance (ahead : Nat) (character : Char) : Tame (peekIs ahead character) :=
  inferInstanceAs (Tame (peek ahead >>= _))

instance : Tame remaining := inferInstanceAs (Tame (source >>= _))

instance (count : Nat) : Tame (advance count) := .modify fun _ => .inl rfl

instance (pos : Nat) : Tame (moveTo pos) := .modify fun _ => .inl rfl

instance (pos : Nat) : Tame (startLine pos) := .modify fun _ => .inl rfl

instance : Tame position := inferInstanceAs (Tame (get >>= _))

instance (count : Nat) : Tame (behind count) := inferInstanceAs (Tame (get >>= _))

instance (start stop : Nat) : Tame (slice start stop) := .step fun _ => by
  split <;> infer_instance

instance (start : Nat) : Tame (sliceFrom start) := inferInstanceAs (Tame (get >>= _))

instance (start : Nat) : Tame (checkRest start) := inferInstanceAs (Tame (source >>= _))

instance (start stop : Nat) : Tame (breaksBetween start stop) :=
  inferInstanceAs (Tame (source >>= _))

instance (unified : Bool) : Tame (passLineBreak unified) := inferInstanceAs (Tame (get >>= _))

instance (radix : Nat) : Tame (passDigits radix) := inferInstanceAs (Tame (source >>= _))

instance : Tame readFraction := inferInstanceAs (Tame (peekIs 0 '.' >>= _))

instance (start : Nat) : Tame (octalDigits start) := inferInstanceAs (Tame (source >>= _))

instance : Tame atSubstitution := inferInstanceAs (Tame (peekIs 0 '$' >>= _))

instance (word : String) : Tame (isKeyword word) := inferInstanceAs (Tame (read >>= _))

instance : Tame beginToken := .step fun _ => .modify fun _ => .inr rfl

instance (isBlock : Bool) (value : List Char) (start : Nat) (startLoc : Position) :
    Tame (finishComment isBlock value start startLoc) := .step fun _ => .modify fun state => .inl <| by
  unfold State.recordComment
  split <;> rfl

instance (opening : Nat) : Tame (passLineComment opening) :=
  inferInstanceAs (Tame (position >>= _))

instance (context : Context) (allowed : Bool) : Tame (openContext context allowed) :=
  .modify fun _ => .inl rfl

instance (allowed : Bool) : Tame (allowExpr allowed) := .modify fun _ => .inl rfl

instance : Tame closeContext := .modify fun _ => .inl (by split <;> rfl)

instance (previous : Kind) : Tame (closeTag previous) :=
  .modify fun _ => .inl (by simp only; split <;> rfl)

instance (previous : Kind) : Tame (braceIsBlock previous) := .step fun _ => by
  split
  · split <;> infer_instance
  all_goals infer_instance

instance (previous : Kind) : Tame (nestPlain previous) := by
  have unquoted : Tame (modify fun state : State =>
      { state with contexts := state.contexts.drop 1, exprAllowed := false }) :=
    .modify fun _ => .inl rfl
  refine .step fun _ => ?_
  simp only
  split
  · infer_instance
  · split <;> infer_instance

instance (previous : Kind) : Tame (nestMarkup previous) := by
  have closing : Tame (modify fun state : State =>
      { state with contexts := .jsxCloseTag :: state.contexts.drop 2, exprAllowed := false }) :=
    .modify fun _ => .inl rfl
  refine .step fun _ => ?_
  split
  · split <;> infer_instance
  · infer_instance

instance (previous : Kind) : Tame (nest previous) := inferInstanceAs (Tame (read >>= _))

instance (kind : Kind) (value : Value) : Tame (finishToken kind value) := by
  refine .step fun stopLoc => .step fun _ => ?_
  have ended : Tame (modify fun state : State =>
      { state with stop := state.pos, stopLoc := stopLoc, kind := kind, value := value }) :=
    .modify fun _ => .inl rfl
  infer_instance

instance (kind : Kind) (length : Nat) : Tame (finishMark kind length) :=
  inferInstanceAs (Tame (advance length >>= _))

instance (kind : Kind) (length : Nat) : Tame (finishOperator kind length) :=
  inferInstanceAs (Tame (get >>= _))

instance (character : Char) : Tame (readStarModulo character) :=
  inferInstanceAs (Tame (peekIs 1 '*' >>= _))

instance (character : Char) (twice once : Kind) : Tame (readBarAmpersand character twice once) :=
  inferInstanceAs (Tame (peekIs 1 character >>= _))

instance : Tame readCaret := inferInstanceAs (Tame (peekIs 1 '=' >>= _))

instance (character : Char) : Tame (readEqualsBang character) :=
  inferInstanceAs (Tame (peekIs 1 '=' >>= _))

instance : Tame readColon := inferInstanceAs (Tame (peekIs 1 ':' >>= _))

instance (character : Char) : Tame (readMarkupName character) :=
  inferInstanceAs (Tame (get >>= _))

instance : Tame readEntity := .step fun _ => .step fun _ => .step fun _ => by
  simp only
  split <;> infer_instance

instance : Anchored source := inferInstanceAs (Anchored (read >>= _))

instance (ahead : Nat) : Anchored (peek ahead) := inferInstanceAs (Anchored (source >>= _))

instance (ahead : Nat) (character : Char) : Anchored (peekIs ahead character) :=
  inferInstanceAs (Anchored (peek ahead >>= _))

instance : Anchored remaining := inferInstanceAs (Anchored (source >>= _))

instance (count : Nat) : Anchored (advance count) := .modify fun _ => rfl

instance (pos : Nat) : Anchored (moveTo pos) := .modify fun _ => rfl

instance (pos : Nat) : Anchored (startLine pos) := .modify fun _ => rfl

instance {reason : Fault} : Anchored (fault reason : Scan α) := inferInstanceAs (Anchored (throw _))

instance (pos : Nat) (problem : Problem) : Anchored (raise pos problem : Scan α) :=
  inferInstanceAs (Anchored (source >>= _))

instance (start stop : Nat) : Anchored (slice start stop) where
  anchored setting state := by
    refine Gives.bind_iff.mpr (gives_source.mpr ?_)
    split
    · exact Anchored.anchored setting state
    · exact Anchored.anchored setting state

instance (start : Nat) : Anchored (checkRest start) := inferInstanceAs (Anchored (source >>= _))

instance (count : Nat) : Anchored (behind count) := inferInstanceAs (Anchored (get >>= _))

instance (unified : Bool) : Anchored (passLineBreak unified) :=
  inferInstanceAs (Anchored (get >>= _))

instance (radix : Nat) : Anchored (passDigits radix) := inferInstanceAs (Anchored (source >>= _))

instance (start : Nat) : Anchored (octalDigits start) := inferInstanceAs (Anchored (source >>= _))

instance (count : Nat) : Anchored (readHex count) := inferInstanceAs (Anchored (source >>= _))

set_option synthInstance.maxSize 400 in
instance : Anchored readCodePoint := by
  unfold readCodePoint
  dsimp only
  infer_instance

instance (inTemplate : Bool) : Anchored (readOctal inTemplate) := by
  have noted (escape : Nat) : Anchored (modify fun state : State =>
      if state.containsOctal then state
      else { state with containsOctal := true, octalPosition := some escape }) :=
    .modify fun state => by split <;> rfl
  exact inferInstanceAs (Anchored (behind 1 >>= _))

instance (inTemplate : Bool) : Anchored (readEscape inTemplate) where
  anchored setting state := by
    refine Gives.bind_iff.mpr ((Anchored.anchored setting state).mono fun _ middle first => ?_)
    refine Gives.bind_iff.mpr ((Anchored.anchored setting middle).mono fun found last second => ?_)
    refine Gives.mono ?_ fun _ (after : State) (third : after.start = last.start) =>
      third.trans (second.trans first)
    split
    · exact Anchored.anchored setting last
    · refine Gives.bind_iff.mpr ((Anchored.anchored setting last).mono fun _ next same => ?_)
      refine Gives.mono ?_ fun _ (after : State) (later : after.start = next.start) =>
        later.trans same
      split <;> exact Anchored.anchored setting next

instance : Anchored readEntity where
  anchored setting state := by
    refine Gives.bind_iff.mpr ((Anchored.anchored setting state).mono fun _ middle first => ?_)
    refine Gives.bind_iff.mpr (gives_get.mpr (Gives.bind_iff.mpr (gives_source.mpr ?_)))
    refine Gives.mono ?_ fun _ (after : State) (later : after.start = middle.start) =>
      later.trans first
    simp only
    split <;> exact Anchored.anchored setting middle

end Instances

end Lexer

end EcmaSyntax
