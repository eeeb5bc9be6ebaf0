import EcmaSyntax.Proofs.Lexer.Rewind
import EcmaSyntax.Proofs.Lexer.Next

namespace EcmaSyntax

namespace Lexer

section Fetched

variable {setting : Setting} {first state last : State}

theorem Ends.strict {kind : Kind} {text : List Char} {hidden : Nat}
    (ends : Ends setting kind text hidden first last) : last.strict = first.strict := by
  obtain ⟨middle, value, block, allowed, moved, rfl⟩ := ends
  exact moved.strict

theorem Skips.strict {source : Source} (skips : Skips source first last) :
    last.strict = first.strict := by
  show last.essence.strict = first.essence.strict
  rw [skips.essence]

theorem Skips.kind {source : Source} (skips : Skips source first last) :
    last.kind = first.kind := by
  show last.essence.kind = first.essence.kind
  rw [skips.essence]

theorem Skips.contexts {source : Source} (skips : Skips source first last) :
    last.contexts = first.contexts := by
  show last.essence.contexts = first.essence.contexts
  rw [skips.essence]

/-- A token that is fetched leaves the code strict or not, as it was. -/
theorem Fetches.strict (fetches : Fetches setting first last) : last.strict = first.strict := by
  cases fetches with
  | token skips inside reads =>
      obtain ⟨text, hidden, ends, -⟩ := reads
      exact ends.strict.trans skips.strict
  | ending skips atEnd ends => exact ends.strict.trans skips.strict

/-- The open constructs after a token follow from its kind. -/
theorem Ends.contexts {kind : Kind} {text : List Char} {hidden : Nat}
    (ends : Ends setting kind text hidden first last) :
    ∃ block, last.contexts = nested setting.jsx first.kind kind block first.contexts := by
  obtain ⟨middle, value, block, allowed, moved, rfl⟩ := ends
  exact ⟨block, rfl⟩

/-- The open constructs follow each token. -/
theorem Fetches.contexts (fetches : Fetches setting first last) :
    ∃ block, last.contexts = nested setting.jsx first.kind last.kind block first.contexts := by
  cases fetches with
  | token skips inside reads =>
      obtain ⟨text, hidden, ends, -⟩ := reads
      obtain ⟨block, same⟩ := ends.contexts
      rw [← skips.kind, ← skips.contexts]
      exact ⟨block, same⟩
  | ending skips atEnd ends =>
      obtain ⟨block, same⟩ := ends.contexts
      rw [← skips.kind, ← skips.contexts, ends.kind_eq]
      exact ⟨block, same⟩

/-- Within a template come only its chunks and the marks between them. -/
theorem Fetches.quoted (fetches : Fetches setting first last)
    (inside : first.context = .quoteTemplate) : last.kind = .eof ∨ last.kind = .template ∨
      (first.kind = .template ∧ (last.kind = .backQuote ∨ last.kind = .dollarBraceL)) := by
  cases fetches with
  | token skips within reads =>
      obtain ⟨text, hidden, -, fits⟩ := reads
      rw [← skips.kind]
      rw [← skips.context] at inside
      exact .inr (fits.quoted inside)
  | ending skips atEnd ends => exact .inl ends.kind_eq

/-- Outside of templates come neither their chunks nor their substitutions. -/
theorem Fetches.unquoted (fetches : Fetches setting first last)
    (outside : first.context ≠ .quoteTemplate) :
    last.kind ≠ .template ∧ last.kind ≠ .dollarBraceL := by
  cases fetches with
  | token skips within reads =>
      obtain ⟨text, hidden, -, fits⟩ := reads
      rw [← skips.context] at outside
      exact fits.unquoted outside
  | ending skips atEnd ends =>
      rw [ends.kind_eq]
      decide

/-- The mark with which a substitution begins stands behind a chunk. -/
theorem Fetches.hole (fetches : Fetches setting first last) (opens : last.kind = .dollarBraceL) :
    first.kind = .template := by
  by_cases inside : first.context = .quoteTemplate
  · rcases fetches.quoted inside with ending | chunk | ⟨chunk, -⟩
    · exact absurd (opens.symm.trans ending) (by decide)
    · exact absurd (opens.symm.trans chunk) (by decide)
    · exact chunk
  · exact absurd opens (fetches.unquoted inside).2

/-- Only a tag has an end. -/
theorem Fetches.tagEnd (fetches : Fetches setting first last) (ending : last.kind = .jsxTagEnd) :
    first.context = .jsxOpenTag ∨ first.context = .jsxCloseTag := by
  cases fetches with
  | token skips within reads =>
      obtain ⟨text, hidden, -, fits⟩ := reads
      rw [← skips.context]
      exact fits.tagEnd ending
  | ending skips atEnd ends =>
      rw [ends.kind_eq] at ending
      exact absurd ending (by decide)

/-- Tags begin only where markup may stand. -/
theorem Fetches.tagStart (fetches : Fetches setting first last)
    (starting : last.kind = .jsxTagStart) : setting.jsx = true := by
  cases fetches with
  | token skips within reads =>
      obtain ⟨text, hidden, -, fits⟩ := reads
      exact fits.tagStart starting
  | ending skips atEnd ends =>
      rw [ends.kind_eq] at starting
      exact absurd starting (by decide)

/-- After the end of the text comes the end of the text. -/
theorem Fetches.stays (fetches : Fetches setting first last)
    (atEnd : first.pos = setting.source.size) : last.kind = .eof := by
  cases fetches with
  | token skips inside reads =>
      have le := skips.le
      omega
  | ending skips _ ends => exact ends.kind_eq

@[simp] theorem State.record_kind (state : State) :
    state.recordToken.passToken.kind = state.kind := by
  unfold State.recordToken
  split <;> rfl

@[simp] theorem State.record_contexts (state : State) :
    state.recordToken.passToken.contexts = state.contexts := by
  unfold State.recordToken
  split <;> rfl

@[simp] theorem State.record_strict (state : State) :
    state.recordToken.passToken.strict = state.strict := by
  unfold State.recordToken
  split <;> rfl

@[simp] theorem State.record_pos (state : State) :
    state.recordToken.passToken.pos = state.pos := by
  unfold State.recordToken
  split <;> rfl

theorem Advances.strict (advances : Advances setting first last) :
    last.strict = first.strict := by
  rw [Fetches.strict advances, State.record_strict]

theorem Ends.lastStop {kind : Kind} {text : List Char} {hidden : Nat}
    (ends : Ends setting kind text hidden first last) : last.lastStop = first.lastStop := by
  obtain ⟨middle, value, block, allowed, moved, rfl⟩ := ends
  show middle.outline.lastStop = first.outline.lastStop
  rw [moved.outline]

theorem Ends.start {kind : Kind} {text : List Char} {hidden : Nat}
    (ends : Ends setting kind text hidden first last) : last.start = first.start := by
  obtain ⟨middle, value, block, allowed, moved, rfl⟩ := ends
  exact moved.start

theorem Fetches.lastStop (fetches : Fetches setting first last) :
    last.lastStop = first.lastStop := by
  cases fetches with
  | token skips inside reads =>
      obtain ⟨text, hidden, ends, -⟩ := reads
      exact ends.lastStop.trans skips.lastStop
  | ending skips atEnd ends => exact ends.lastStop.trans skips.lastStop

/-- The token that is passed becomes the previous one. -/
theorem Advances.lastStop (advances : Advances setting first last) :
    last.lastStop = first.stop := by
  rw [Fetches.lastStop advances]
  unfold State.recordToken
  split <;> rfl

/-- A token is not recorded when it ends, but when it is passed. -/
theorem Ends.entries {kind : Kind} {text : List Char} {hidden : Nat}
    (ends : Ends setting kind text hidden first last) :
    last.entries = first.entries ∧ last.comments = first.comments := by
  obtain ⟨middle, value, block, allowed, moved, rfl⟩ := ends
  constructor
  · show middle.outline.entries = first.outline.entries
    rw [moved.outline]
  · show middle.outline.comments = first.outline.comments
    rw [moved.outline]

/-- At the end of the text nothing is recorded but the end itself. -/
theorem Advances.atEnd (sound : first.Sound setting) (advances : Advances setting first last)
    (ending : first.kind = .eof) :
    last.kind = .eof ∧ last.entries = first.recordToken.entries ∧
      last.comments = first.recordToken.comments := by
  have size : first.recordToken.passToken.pos = setting.source.size := by
    have within : first.start ≤ first.pos := sound.stops ▸ sound.within
    have boundary := Source.le_size_of_isBoundary sound.cursor.boundary
    rw [State.record_pos]
    exact Nat.le_antisymm boundary (sound.atEnd ending ▸ within)
  cases advances with
  | token skips inside reads =>
      have le := skips.le
      omega
  | ending skips atEnd ends =>
      obtain ⟨entries, comments⟩ := skips.stays (atEnd.trans size.symm)
      exact ⟨ends.kind_eq, ends.entries.1.trans entries, ends.entries.2.trans comments⟩

theorem Restricts.strict {strict : Bool} (restricts : Restricts setting strict first last) :
    last.strict = strict := by
  rcases restricts with ⟨-, rfl⟩ | ⟨-, lineStart, line, ⟨text, hidden, ends, -⟩, -⟩
  · rfl
  · exact ends.strict

theorem Restricts.start {strict : Bool} (restricts : Restricts setting strict first last) :
    last.start = first.start := by
  rcases restricts with ⟨-, rfl⟩ | ⟨-, lineStart, line, ⟨text, hidden, ends, -⟩, -⟩
  · rfl
  · exact ends.start

theorem Restricts.lastStop {strict : Bool} (restricts : Restricts setting strict first last) :
    last.lastStop = first.lastStop := by
  rcases restricts with ⟨-, rfl⟩ | ⟨-, lineStart, line, ⟨text, hidden, ends, -⟩, -⟩
  · rfl
  · exact ends.lastStop

/-- A token that is read again stays of its kind, or at least a number or a string. -/
theorem Restricts.kind_eq_iff {strict : Bool} (restricts : Restricts setting strict first last) :
    last.kind = first.kind ∨
      ((first.kind = .num ∨ first.kind = .string) ∧ (last.kind = .num ∨ last.kind = .string)) := by
  rcases restricts with ⟨-, rfl⟩ | ⟨literal, lineStart, line, -, again⟩
  · exact .inl rfl
  · exact .inr ⟨literal, again⟩

/-- Reading a number or a string again leaves the open constructs as they are. -/
theorem Restricts.contexts {strict : Bool} (restricts : Restricts setting strict first last) :
    last.contexts = first.contexts := by
  rcases restricts with ⟨-, rfl⟩ | ⟨literal, lineStart, line, ⟨text, hidden, ends, -⟩, again⟩
  · rfl
  · obtain ⟨block, same⟩ := ends.contexts
    rw [same, nested_literal again]
    rfl

end Fetched

/-- A step of a parse that no reading of tokens is part of: it makes the code strict or not,
reads it as a type or not, and gives comments away. Code that is strict from its start on stays
strict. -/
structure Marked (strictly : Bool) (first last : State) : Prop where
  same : ∃ strict inType leading trailing, last = { first with
    strict := strict, inType := inType, leading := leading, trailing := trailing }
  allowed : strictly = true → first.strict = true → last.strict = true

/-- The states that a parse reaches, by passing a token, never the end of the text, by
beginning or ending strict code, where no string of a tag is read again, and by steps that read
nothing. -/
inductive Reached (setting : Setting) (strictly : Bool) : State → Prop
  | start {state : State}
      (begins : (do skipShebang; nextToken : Scan Unit) setting (.initial strictly) =
        .ok () state) : Reached setting strictly state
  | next {state after : State} (reached : Reached setting strictly state)
      (goesOn : state.kind ≠ .eof) (step : next setting state = .ok () after) :
      Reached setting strictly after
  | restrict {state after : State} {strict : Bool} (reached : Reached setting strictly state)
      (allowed : strictly = true → strict = true)
      (calm : state.kind = .num ∨ state.kind = .string → setting.jsx = true →
        state.context ≠ .jsxOpenTag)
      (step : setStrict strict setting state = .ok () after) : Reached setting strictly after
  | mark {state after : State} (reached : Reached setting strictly state)
      (marked : Marked strictly state after) : Reached setting strictly after

variable {setting : Setting} {strictly : Bool} {state : State}

/-- A state stays sound when something is noted beside the tokens. -/
theorem State.Sound.marked {after : State} (sound : state.Sound setting)
    (marked : Marked strictly state after) : after.Sound setting := by
  obtain ⟨⟨strict, inType, leading, trailing, rfl⟩, -⟩ := marked
  exact ⟨sound.cursor, sound.previous, sound.boundary, sound.ordered, sound.within, sound.stops,
    sound.returns, sound.opens, sound.atEnd, sound.filled, sound.cooked⟩

/-- A reading is ready for its first token. -/
theorem ready_initial (strict : Bool) : Ready setting (.initial strict) :=
  ⟨.initial _, setting.source.isBoundary_zero, Nat.le_refl _⟩

/-- A reading begins with the first token after a line for the shell. -/
theorem begins {strict : Bool} {middle last : State}
    (passed : skipShebang setting (.initial strict) = .ok () middle)
    (read : nextToken setting middle = .ok () last) :
    (do skipShebang; nextToken : Scan Unit) setting (.initial strict) = .ok () last := by
  change EStateM.bind (skipShebang setting) (fun _ => nextToken setting) _ = _
  rw [EStateM.bind, passed]
  exact read

/-- The first token is read after a first line that is no code. -/
theorem begin_meets (setting : Setting) (strict : Bool) :
    Meets (do skipShebang; nextToken : Scan Unit) setting (.initial strict) fun _ state =>
      (∃ middle, Skips setting.source (.initial strict) middle ∧ Fetches setting middle state) ∧
        state.Sound setting := by
  have sound : (State.initial strict).cursor.Sound setting.source := .initial _
  refine (skipShebang_meets sound).bind ?_
  intro _ middle skips
  refine (nextToken_meets ((ready_initial strict).skips skips)).mono ?_
  intro _ last met
  exact ⟨⟨middle, skips, met.1⟩, met.2⟩

/-- Every state that is reached is sound. -/
theorem Reached.sound (reached : Reached setting strictly state) : state.Sound setting := by
  induction reached with
  | start begins => exact ((begin_meets setting strictly).of_ok begins).2
  | next reached goesOn step inductionHypothesis =>
      exact ((next_meets inductionHypothesis).of_ok step).2
  | restrict reached allowed calm step inductionHypothesis =>
      exact ((setStrict_meets inductionHypothesis calm).of_ok step).2
  | mark reached marked inductionHypothesis => exact inductionHypothesis.marked marked

/-- Code that is strict from the start stays strict. -/
theorem Reached.strict (reached : Reached setting strictly state) (strict : strictly = true) :
    state.strict = true := by
  induction reached with
  | start begins =>
      obtain ⟨⟨middle, skips, fetches⟩, -⟩ := (begin_meets setting strictly).of_ok begins
      rw [fetches.strict, skips.strict]
      exact strict
  | next reached goesOn step inductionHypothesis =>
      obtain ⟨advances, -⟩ := (next_meets reached.sound).of_ok step
      rw [advances.strict]
      exact inductionHypothesis
  | restrict reached allowed calm step inductionHypothesis =>
      obtain ⟨restricts, -⟩ := (setStrict_meets reached.sound calm).of_ok step
      rw [restricts.strict]
      exact allowed strict
  | mark reached marked inductionHypothesis => exact marked.allowed strict inductionHypothesis

section Recording

variable {strict : Bool} {after : State}

theorem recording_closed : ∀ first last, State.Grows first last → first.recording = true →
    last.recording = true := fun _ _ grows same => grows.recording.trans same

/-- A reading records from the start. -/
theorem begin_recording (begins : (do skipShebang; nextToken : Scan Unit) setting (.initial strict) =
    .ok () state) : state.recording = true := by
  have maintained := (skipShebang_heedless.bind fun _ => nextToken_heedless).maintains
    recording_closed setting (.initial strict) rfl
  rwa [begins] at maintained

/-- A reading that records goes on recording. -/
theorem next_recording (recording : state.recording = true)
    (step : next setting state = .ok () after) : after.recording = true := by
  have maintained := next_maintains recording_closed
    (fun state same => state.passed_recording.trans same) setting _ recording
  rwa [step] at maintained

/-- A reading goes on recording where strict code begins or ends. -/
theorem setStrict_recording (recording : state.recording = true)
    (step : setStrict strict setting state = .ok () after) : after.recording = true := by
  have maintained := setStrict_maintains strict recording_closed (fun _ same => same) setting state
    recording
  rwa [step] at maintained

end Recording

/-- A parse records what it reads. -/
theorem Reached.recording (reached : Reached setting strictly state) :
    state.recording = true := by
  induction reached with
  | start begins => exact begin_recording begins
  | next reached goesOn step inductionHypothesis => exact next_recording inductionHypothesis step
  | restrict reached allowed calm step inductionHypothesis =>
      exact setStrict_recording inductionHypothesis step
  | mark reached marked inductionHypothesis =>
      obtain ⟨⟨strict, inType, leading, trailing, rfl⟩, -⟩ := marked
      exact inductionHypothesis

/-- A look at the next token leads back to where it began. -/
theorem lookahead_meets (reached : Reached setting strictly state) :
    Meets lookahead setting state fun _ after => after = state := by
  have met := next_meets reached.sound
  unfold Meets at met ⊢
  rw [lookahead_eq setting reached.recording]
  split at met
  · next same => simp only [same]
  · next same => simp only [same, met]

end Lexer

end EcmaSyntax
