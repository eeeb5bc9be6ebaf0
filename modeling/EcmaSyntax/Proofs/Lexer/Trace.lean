import EcmaSyntax.Proofs.Lexer.Reach
import EcmaSyntax.Proofs.Lexer.Rewind
import EcmaSyntax.Proofs.Lexer.Spelling
import Mathlib.Data.List.Chain

namespace EcmaSyntax

section Tokens

variable {tokens : List Token} {token : Token} {start : Nat}

theorem ParenthesisAfter.append (known : ParenthesisAfter tokens start) (more : List Token) :
    ParenthesisAfter (tokens ++ more) start := by
  obtain ⟨before, operator, parenthesis, after, rfl, found, opens⟩ := known
  exact ⟨before, operator, parenthesis, after ++ more, by simp, found, opens⟩

/-- What is known of the tokens before the last one remains if the last one opens nothing. -/
theorem ParenthesisAfter.init (known : ParenthesisAfter (tokens ++ [token]) start)
    (other : token.kind ≠ .parenL) : ParenthesisAfter tokens start := by
  obtain ⟨before, operator, parenthesis, after, same, found, opens⟩ := known
  rcases List.eq_nil_or_concat after with rfl | ⟨rest, last, rfl⟩
  · -- The parenthesis would be the last token.
    have ends : (before ++ [operator]) ++ [parenthesis] = tokens ++ [token] := by
      rw [same, List.append_assoc]
      rfl
    have last := List.append_inj_right' ends rfl
    rw [List.cons.injEq] at last
    exact absurd (last.1 ▸ opens) other
  · refine ⟨before, operator, parenthesis, rest, ?_, found, opens⟩
    have ends : tokens ++ [token] = (before ++ operator :: parenthesis :: rest) ++ [last] := by
      rw [same]
      simp
    exact List.append_inj_left' ends rfl

/-- Tokens follow one another, and each of them has a text, but for the end of the text and the
chunks of templates. -/
structure Ascending (tokens : List Token) : Prop where
  ordered : tokens.Pairwise fun first last => first.stop ≤ last.start
  filled : ∀ token ∈ tokens, token.kind ≠ .eof → token.kind ≠ .template → token.start < token.stop

/-- The last of ascending tokens begins after all others have ended. -/
theorem Ascending.before (ascending : Ascending (tokens ++ [token])) :
    ∀ other ∈ tokens, other.stop ≤ token.start := fun other member =>
  (List.pairwise_append.mp ascending.ordered).2.2 other member _ (List.mem_singleton_self _)

/-- The first of ascending tokens ascend. -/
theorem Ascending.init {others : List Token} (ascending : Ascending tokens)
    (begins : others <+: tokens) : Ascending others :=
  ⟨ascending.ordered.sublist begins.sublist, fun token member =>
    ascending.filled token (begins.subset member)⟩

end Tokens

namespace Lexer

/-- The tokens that have been read, the current one with them. -/
def State.tokens (state : State) : List Token :=
  (state.entries.filterMap Entry.token?).reverse ++ [state.token]

/-- The tokens that have been passed. -/
def State.recorded (state : State) : List Token :=
  (state.entries.filterMap Entry.token?).reverse

/-- The tokens that have been read and are not read again. -/
def State.settled (state : State) : List Token :=
  if state.kind == .num || state.kind == .string then state.recorded else state.tokens

/-- If the second of two tokens is the mark with which a substitution begins, the first one is a
chunk of a template. -/
def Holed (former latter : Token) : Prop := latter.kind = .dollarBraceL → former.kind = .template

/-- The tokens that have been read are recorded, and written as what they are. The state is sound,
and the last token that has been passed ends where the state says. Substitutions begin behind
chunks. -/
structure State.Tracked (setting : Setting) (state : State) : Prop where
  recording : state.recording = true
  faithful : ∀ token ∈ state.tokens, token.Faithful
  sound : state.Sound setting
  passed : ∀ token ∈ state.recorded, token.stop ≤ state.lastStop
  last : ∀ token ∈ state.recorded.getLast?, token.stop = state.lastStop
  holed : state.tokens.IsChain Holed

variable {first middle last state after : State} {setting : Setting}

/-- Operators have their texts. -/
theorem State.Tracked.written (tracked : state.Tracked setting) :
    ∀ token ∈ state.tokens, token.Written := fun token member => (tracked.faithful token member).written

/-- The sign of a plain assignment has one text. -/
theorem State.Tracked.text_of_eq (tracked : state.Tracked setting) (sign : state.kind = .eq) :
    state.value.text?.getD "" = "=" := by
  have sign : state.token.kind = .eq := sign
  obtain ⟨word, text, among⟩ := tracked.written state.token
    (List.mem_append_right _ (List.mem_singleton_self _)) (by simp [sign, Kind.operators])
  have text : state.value = .text word := text
  rw [sign] at among
  rw [text, List.mem_singleton.mp among]
  rfl

/-- If the current token is a name within a tag, it is one word. -/
theorem State.Tracked.undivided (tracked : state.Tracked setting) : state.token.Undivided :=
  (tracked.faithful _ (List.mem_append_right _ (List.mem_singleton_self _))).undivided

theorem State.settled_tokens (state : State) : state.settled <+: state.tokens := by
  unfold settled
  split
  · exact List.prefix_append _ _
  · exact List.prefix_rfl

theorem State.recorded_settled (state : State) : state.recorded <+: state.settled := by
  unfold settled
  split
  · exact List.prefix_rfl
  · exact List.prefix_append _ _

/-- A parenthesis is not read again. -/
theorem State.settled_after {start : Nat} (known : ParenthesisAfter state.tokens start) :
    ParenthesisAfter state.settled start := by
  unfold settled
  split
  · next literal =>
      refine known.init fun opens => ?_
      rw [show state.kind = .parenL from opens] at literal
      exact absurd literal (by decide)
  · exact known

/-- What is noted beside the tokens does not matter for what is known of them. -/
theorem State.Tracked.noted (tracked : state.Tracked setting) (strict inType : Bool)
    (leading trailing : List Comment) : State.Tracked setting { state with
      strict := strict, inType := inType, leading := leading, trailing := trailing } where
  recording := tracked.recording
  faithful := tracked.faithful
  sound :=
    have sound := tracked.sound
    ⟨sound.cursor, sound.previous, sound.boundary, sound.ordered, sound.within, sound.stops,
      sound.returns, sound.opens, sound.atEnd, sound.filled, sound.cooked⟩
  passed := tracked.passed
  last := tracked.last
  holed := tracked.holed

/-- What has been read up to one state goes on in what has been read up to a later one. The last
token may have been read again since, from its start on. Nothing before it is read again. -/
structure State.Traces (setting : Setting) (first last : State) : Prop where
  tracked : first.Tracked setting → last.Tracked setting
  settled : first.Tracked setting → first.settled <+: last.settled
  starts : first.Tracked setting → first.tokens.map Token.start <+: last.tokens.map Token.start
  onward : first.Tracked setting → first.start ≤ last.start ∧ first.lastStop ≤ last.lastStop

theorem State.Traces.refl (state : State) : State.Traces setting state state :=
  ⟨id, fun _ => List.prefix_rfl, fun _ => List.prefix_rfl, fun _ => ⟨Nat.le_refl _, Nat.le_refl _⟩⟩

theorem State.Traces.trans (begins : State.Traces setting first middle)
    (ends : State.Traces setting middle last) : State.Traces setting first last :=
  ⟨fun tracked => ends.tracked (begins.tracked tracked), fun tracked =>
    (begins.settled tracked).trans (ends.settled (begins.tracked tracked)), fun tracked =>
    (begins.starts tracked).trans (ends.starts (begins.tracked tracked)), fun tracked =>
    ⟨Nat.le_trans (begins.onward tracked).1 (ends.onward (begins.tracked tracked)).1,
      Nat.le_trans (begins.onward tracked).2 (ends.onward (begins.tracked tracked)).2⟩⟩

/-- What follows the tokens of one state follows them in a later one. -/
theorem State.Traces.follows (traces : State.Traces setting first last)
    (tracked : first.Tracked setting) {start : Nat} (known : ParenthesisAfter first.tokens start) :
    ParenthesisAfter last.tokens start := by
  obtain ⟨rest, same⟩ := (traces.settled tracked).trans last.settled_tokens
  exact same ▸ (State.settled_after known).append rest

/-- Steps that read no token keep what is known. -/
theorem State.Traces.noted (state : State) (strict inType : Bool)
    (leading trailing : List Comment) : State.Traces setting state { state with
      strict := strict, inType := inType, leading := leading, trailing := trailing } :=
  ⟨fun tracked => tracked.noted .., fun _ => List.prefix_rfl, fun _ => List.prefix_rfl,
    fun _ => ⟨Nat.le_refl _, Nat.le_refl _⟩⟩

/-- What is recorded before a token stays before the token that is read next. -/
theorem nextToken_tokens (ends : nextToken setting state = .ok () after) :
    after.tokens = (state.entries.filterMap Entry.token?).reverse ++ [after.token] ∧
      after.recording = state.recording ∧ after.token.Faithful := by
  have grows := nextToken_heedless.grows setting state
  rw [ends] at grows
  refine ⟨?_, grows.recording, nextToken_settled setting state () after ends⟩
  rw [State.tokens, show after.entries.filterMap Entry.token? = _ from grows.tokens]

/-- The first token is the only one that has been read when it is current. -/
theorem begin_tokens (strict : Bool) :
    Gives (do skipShebang; nextToken : Scan Unit) setting (.initial strict)
      fun _ first => first.tokens = [first.token] ∧ first.Tracked setting := by
  rw [Gives.bind_iff]
  intro _ middle passed _ first read
  have grows := skipShebang_heedless.grows setting (.initial strict)
  rw [passed] at grows
  obtain ⟨tokens, recording, faithful⟩ := nextToken_tokens read
  have sound := ((begin_meets setting strict).of_ok (begins passed read)).2
  rw [show middle.entries.filterMap Entry.token? = [] from grows.tokens, List.reverse_nil,
    List.nil_append] at tokens
  have recorded : first.recorded = [] := List.append_inj_left' tokens rfl
  refine ⟨tokens, recording.trans grows.recording, fun token member => ?_, sound, ?_, ?_, ?_⟩
  · rw [tokens, List.mem_singleton] at member
    exact member ▸ faithful
  · simp [recorded]
  · simp [recorded]
  · simp [tokens]

/-- Passing a token adds the token after it. -/
theorem next_tokens (tracked : state.Tracked setting)
    (ends : next setting state = .ok () after) :
    after.tokens = state.tokens ++ [after.token] ∧ after.Tracked setting := by
  obtain ⟨advances, sound⟩ := (next_meets tracked.sound).of_ok ends
  rw [next_eq] at ends
  obtain ⟨tokens, recording, faithful⟩ := nextToken_tokens ends
  have passed : (state.passed.entries.filterMap Entry.token?).reverse = state.tokens := by
    rw [State.passed, State.recordToken, if_pos tracked.recording]
    simp [State.tokens, State.passToken, Entry.token?]
  rw [passed] at tokens
  have recorded : after.recorded = state.recorded ++ [state.token] :=
    List.append_inj_left' tokens rfl
  refine ⟨tokens, recording.trans (state.passed_recording.trans tracked.recording), ?_, sound,
    ?_, ?_, ?_⟩
  · intro token member
    rw [tokens, List.mem_append, List.mem_singleton] at member
    rcases member with member | rfl
    · exact tracked.faithful token member
    · exact faithful
  · intro token member
    rw [recorded, List.mem_append, List.mem_singleton] at member
    rw [advances.lastStop]
    rcases member with member | rfl
    · exact Nat.le_trans (tracked.passed token member)
        (Nat.le_trans tracked.sound.ordered tracked.sound.within)
    · exact Nat.le_refl _
  · intro token member
    rw [recorded, List.getLast?_concat, Option.mem_some_iff] at member
    rw [advances.lastStop, ← member]
    rfl
  · rw [tokens]
    refine tracked.holed.append (.singleton _) ?_
    rintro former inside latter ⟨⟩ opens
    rw [State.tokens, List.getLast?_concat, Option.mem_some_iff] at inside
    exact inside ▸ (state.record_kind ▸ Fetches.hole advances opens : state.kind = .template)

/-- Passing a token leaves a trace. -/
theorem next_traces : Gives next setting state fun _ after => State.Traces setting state after := by
  intro _ after ends
  refine ⟨fun tracked => (next_tokens tracked ends).2, fun tracked => ?_, fun tracked => ?_,
    fun tracked => ?_⟩
  · have recorded : after.recorded = state.tokens :=
      List.append_inj_left' (next_tokens tracked ends).1 rfl
    exact state.settled_tokens.trans (recorded ▸ after.recorded_settled)
  · rw [(next_tokens tracked ends).1, List.map_append]
    exact List.prefix_append _ _
  · obtain ⟨advances, sound⟩ := (next_meets tracked.sound).of_ok ends
    have stop := advances.lastStop
    have ordered := tracked.sound.ordered
    have within := tracked.sound.within
    have later := sound.ordered
    omega

theorem eat_traces (kind : Kind) :
    Gives (eat kind) setting state fun _ after => State.Traces setting state after := by
  simp only [eat, atKind, Gives.bind_iff, gives_get, gives_pure]
  refine gives_ite (fun _ => ?_) fun _ => gives_pure.mpr (.refl _)
  rw [Gives.bind_iff]
  exact next_traces.mono fun _ _ traces => gives_pure.mpr traces

/-- Looking ahead leaves a trace that leads back. -/
theorem lookahead_traces :
    Gives lookahead setting state fun _ after => State.Traces setting state after := by
  intro ahead after ends
  have same (tracked : state.Tracked setting) : after = state := by
    rw [lookahead_eq setting tracked.recording] at ends
    split at ends <;> cases ends
    rfl
  exact ⟨fun tracked => same tracked ▸ tracked, fun tracked => same tracked ▸ List.prefix_rfl,
    fun tracked => same tracked ▸ List.prefix_rfl,
    fun tracked => same tracked ▸ ⟨Nat.le_refl _, Nat.le_refl _⟩⟩

/-- A state has the same recorded tokens as another one. -/
structure State.Retains (first last : State) : Prop where
  tokens : last.entries.filterMap Entry.token? = first.entries.filterMap Entry.token?
  recording : last.recording = first.recording

theorem State.Retains.closed : ∀ middle last, State.Grows middle last →
    State.Retains first middle → State.Retains first last :=
  fun _ _ grows retains =>
    ⟨grows.tokens.trans retains.tokens, grows.recording.trans retains.recording⟩

/-- What has been read is retained where strict code begins or ends. -/
theorem setStrict_retains {strict : Bool} (ends : setStrict strict setting state = .ok () after) :
    State.Retains state after := by
  have retains := setStrict_maintains strict (@State.Retains.closed state)
    (fun _ same => ⟨same.tokens, same.recording⟩) setting state ⟨rfl, rfl⟩
  rwa [ends] at retains

/-- So is the trace of the tokens. -/
theorem setStrict_traces (strict : Bool) :
    Gives (setStrict strict) setting state fun _ after => State.Traces setting state after := by
  intro _ after ends
  have retains := setStrict_retains ends
  have recorded : after.recorded = state.recorded := congrArg List.reverse retains.tokens
  have tokens : after.tokens = state.recorded ++ [after.token] := recorded ▸ rfl
  have restricts (tracked : state.Tracked setting) := setStrict_gives tracked.sound _ _ ends
  refine ⟨fun tracked => ?_, fun tracked => ?_, fun tracked => ?_, fun tracked =>
    ⟨Nat.le_of_eq (restricts tracked).1.start.symm,
      Nat.le_of_eq (restricts tracked).1.lastStop.symm⟩⟩
  · obtain ⟨restricts, sound⟩ := restricts tracked
    refine ⟨retains.recording.trans tracked.recording, fun token member => ?_, sound, ?_, ?_, ?_⟩
    · rw [tokens, List.mem_append, List.mem_singleton] at member
      rcases member with member | rfl
      · exact tracked.faithful token (List.mem_append_left _ member)
      · rcases restricts with ⟨-, rfl⟩ | ⟨-, lineStart, line, -, literal⟩
        · exact tracked.faithful _ (List.mem_append_right _ (List.mem_singleton_self _))
        · refine .ofFree (show after.kind.isFree = true from ?_)
          rcases literal with same | same <;> exact same ▸ rfl
    · rw [recorded, restricts.lastStop]
      exact tracked.passed
    · rw [recorded, restricts.lastStop]
      exact tracked.last
    · rcases restricts with ⟨-, rfl⟩ | ⟨-, lineStart, line, -, literal⟩
      · exact tracked.holed
      · -- What has been read again is a number or a string, and no mark of a template.
        rw [tokens]
        refine tracked.holed.left_of_append.append (.singleton _) ?_
        rintro former - latter ⟨⟩ opens
        have opens : after.kind = .dollarBraceL := opens
        rcases literal with same | same <;> exact absurd (opens.symm.trans same) (by decide)
  · rcases (restricts tracked).1 with ⟨-, rfl⟩ | ⟨literal, -⟩
    · exact List.prefix_rfl
    · rw [State.settled, if_pos (by simpa using literal), ← recorded]
      exact after.recorded_settled
  · have start : after.token.start = state.token.start := (restricts tracked).1.start
    have same : after.tokens.map Token.start = state.tokens.map Token.start := by
      rw [tokens, State.tokens, ← State.recorded, List.map_append, List.map_append,
        List.map_singleton, List.map_singleton, start]
    exact same ▸ List.prefix_rfl

section Reached

variable {strictly : Bool}

/-- The tokens of every state that is reached are tracked. -/
theorem Reached.tracked (reached : Reached setting strictly state) : state.Tracked setting := by
  induction reached with
  | start begins => exact (begin_tokens strictly () _ begins).2
  | next reached goesOn step inductionHypothesis => exact (next_tokens inductionHypothesis step).2
  | restrict reached allowed calm step inductionHypothesis =>
      exact (setStrict_traces _ () _ step).tracked inductionHypothesis
  | mark reached marked inductionHypothesis =>
      obtain ⟨⟨_, _, _, _, rfl⟩, -⟩ := marked
      exact inductionHypothesis.noted ..

/-- A sound token follows the tokens before it. -/
theorem State.Sound.ascending {tokens : List Token} (sound : state.Sound setting)
    (ascending : Ascending tokens) (before : ∀ token ∈ tokens, token.stop ≤ state.start) :
    Ascending (tokens ++ [state.token]) := by
  refine ⟨List.pairwise_append.mpr ⟨ascending.ordered, List.pairwise_singleton _ _, ?_⟩, ?_⟩
  · intro token member other same
    rw [List.mem_singleton.mp same]
    exact before token member
  · intro token member
    rcases List.mem_append.mp member with member | member
    · exact ascending.filled token member
    · rw [List.mem_singleton.mp member]
      exact sound.filled

/-- The token that is read next follows the tokens before it. -/
theorem next_ascending (tracked : state.Tracked setting) (ascending : Ascending state.tokens)
    (step : next setting state = .ok () after) : Ascending after.tokens := by
  obtain ⟨advances, read⟩ := (next_meets tracked.sound).of_ok step
  rw [(next_tokens tracked step).1]
  refine read.ascending ascending fun token member => ?_
  have passed : token.stop ≤ state.stop := by
    rcases List.mem_append.mp member with member | member
    · exact Nat.le_trans (ascending.before token member) tracked.sound.within
    · rw [List.mem_singleton.mp member]
      exact Nat.le_refl _
  exact Nat.le_trans passed (advances.lastStop ▸ read.ordered)

/-- The tokens that a parse has read follow one another. -/
theorem Reached.ascending (reached : Reached setting strictly state) :
    Ascending state.tokens := by
  induction reached with
  | @start state begins =>
      rw [(begin_tokens strictly () _ begins).1]
      have none : Ascending [] := ⟨.nil, List.forall_mem_nil _⟩
      exact (Reached.start begins).sound.ascending none (List.forall_mem_nil _)
  | next reached goesOn step inductionHypothesis =>
      exact next_ascending reached.tracked inductionHypothesis step
  | @restrict state after strict reached allowed calm step inductionHypothesis =>
      have restricts := ((setStrict_meets reached.sound calm).of_ok step).1
      have sound := (reached.restrict allowed calm step).sound
      have before : after.recorded = state.recorded :=
        congrArg List.reverse (setStrict_retains step).tokens
      have tokens : after.tokens = state.recorded ++ [after.token] := before ▸ rfl
      rw [tokens]
      refine sound.ascending (inductionHypothesis.init (List.prefix_append _ _)) ?_
      exact fun token member => restricts.start ▸ inductionHypothesis.before token member
  | mark reached marked inductionHypothesis =>
      obtain ⟨⟨_, _, _, _, rfl⟩, -⟩ := marked
      exact inductionHypothesis

end Reached

end Lexer

end EcmaSyntax
