import EcmaSyntax.Proofs.Lexer.Problem
import EcmaSyntax.Proofs.Lexer.Trace

namespace EcmaSyntax

/-- Comments are in the order of a text if each of them ends before the next one starts. -/
structure InOrder (comments : List Comment) : Prop where
  filled : ∀ comment ∈ comments, comment.start ≤ comment.stop
  ordered : comments.Pairwise fun earlier later => earlier.stop ≤ later.start

namespace InOrder

variable {comments others : List Comment} {comment : Comment} {bound : Nat}

theorem nil : InOrder [] := ⟨nofun, .nil⟩

/-- Some of the comments in order are in order. -/
theorem sublist (ordered : InOrder comments) (part : others.Sublist comments) : InOrder others :=
  ⟨fun comment inside => ordered.filled comment (part.subset inside), ordered.ordered.sublist part⟩

/-- A comment after all the others comes last. -/
theorem concat (ordered : InOrder comments) (before : ∀ other ∈ comments, other.stop ≤ comment.start)
    (filled : comment.start ≤ comment.stop) : InOrder (comments ++ [comment]) where
  filled other inside := by
    rcases List.mem_append.mp inside with inside | inside
    · exact ordered.filled other inside
    · exact List.mem_singleton.mp inside ▸ filled
  ordered := List.pairwise_append.mpr ⟨ordered.ordered, List.pairwise_singleton _ _,
    fun other inside last same => List.mem_singleton.mp same ▸ before other inside⟩

/-- All comments end where the last one does or before it. -/
theorem stop_le (ordered : InOrder comments) {last : Comment} (ends : last ∈ comments.getLast?)
    (inside : comment ∈ comments) : comment.stop ≤ last.stop := by
  obtain ⟨before, rfl⟩ := List.getLast?_eq_some_iff.mp ends
  rcases List.mem_append.mp inside with earlier | same
  · have later := (List.pairwise_append.mp ordered.ordered).2.2 comment earlier last (by simp)
    exact Nat.le_trans later (ordered.filled last (by simp))
  · exact Nat.le_of_eq (congrArg Comment.stop (List.mem_singleton.mp same))

/-- All comments start where the first one does or after it. -/
theorem le_start {first : Comment} (ordered : InOrder (first :: comments))
    (inside : comment ∈ first :: comments) : first.start ≤ comment.start := by
  rcases List.mem_cons.mp inside with same | later
  · exact Nat.le_of_eq (congrArg Comment.start same.symm)
  · exact Nat.le_trans (ordered.filled first List.mem_cons_self)
      ((List.pairwise_cons.mp ordered.ordered).1 comment later)

end InOrder

namespace Lexer

variable {source : Source} {setting : Setting} {first state last : State} {bound : Nat}

/-- The comments that have been recorded are in order and end at an offset or before it, and those
that may still come to stand beside a node are among them. -/
structure State.Recalls (bound : Nat) (state : State) : Prop where
  recording : state.recording = true
  ordered : InOrder state.comments.reverse
  bounded : ∀ comment ∈ state.comments, comment.stop ≤ bound
  leading : state.leading.Sublist state.comments.reverse
  trailing : state.trailing.Sublist state.comments.reverse

namespace State.Recalls

theorem mono {further : Nat} (recalls : state.Recalls bound) (later : bound ≤ further) :
    state.Recalls further :=
  { recalls with bounded := fun comment inside =>
      Nat.le_trans (recalls.bounded comment inside) later }

/-- What is recalled depends on the record alone. -/
theorem congr (recalls : state.Recalls bound) (same : last.record = state.record) :
    last.Recalls bound := by
  simp only [State.record, Record.mk.injEq] at same
  obtain ⟨leading, trailing, -, comments, recording⟩ := same
  refine ⟨recording ▸ recalls.recording, ?_, ?_, ?_, ?_⟩
  · rw [comments]
    exact recalls.ordered
  · rw [comments]
    exact recalls.bounded
  · rw [leading, comments]
    exact recalls.leading
  · rw [trailing, comments]
    exact recalls.trailing

/-- No comment is recalled before the text has begun. -/
theorem initial (strict : Bool) : (State.initial strict).Recalls 0 :=
  ⟨rfl, .nil, nofun, .slnil, .slnil⟩

/-- A comment after all those that are recalled is recalled, too. -/
theorem record (recalls : state.Recalls bound) (comment : Comment) (later : bound ≤ comment.start)
    (filled : comment.start ≤ comment.stop) :
    (state.recordComment comment).Recalls comment.stop := by
  rw [recordComment, if_pos recalls.recording]
  refine ⟨recalls.recording, ?_, ?_, ?_, ?_⟩
  · rw [List.reverse_cons]
    exact recalls.ordered.concat (fun other inside => Nat.le_trans
      (recalls.bounded other (List.mem_reverse.mp inside)) later) filled
  · intro other inside
    rcases List.mem_cons.mp inside with rfl | earlier
    · exact Nat.le_refl _
    · exact Nat.le_trans (recalls.bounded other earlier) (Nat.le_trans later filled)
  · rw [List.reverse_cons]
    exact recalls.leading.append_right _
  · rw [List.reverse_cons]
    exact recalls.trailing.append_right _

end State.Recalls

/-- A comment that is passed is recalled in its place. -/
theorem Skip.recalls (skip : Skip source first last) (recalls : first.Recalls first.pos) :
    last.Recalls last.pos := by
  cases skip with
  | blanks passes blank => exact (recalls.mono passes.le).congr rfl
  | @comment text cursor isBlock value passes ahead =>
      rw [State.recordComment_pos]
      have moved : (first.at cursor).Recalls first.pos := recalls.congr rfl
      exact moved.record (commentBetween isBlock value first.cursor cursor) (Nat.le_refl _)
        (Nat.le_of_lt ahead)
  | begins startLoc => exact recalls.congr rfl

/-- The comments that are passed are recalled in their places. -/
theorem Skips.recalls (skips : Skips source first last) (recalls : first.Recalls first.pos) :
    last.Recalls last.pos := by
  induction skips with
  | stay state => exact recalls
  | step skip rest inductionHypothesis => exact inductionHypothesis (skip.recalls recalls)

theorem Ends.record {kind : Kind} {text : List Char} {hidden : Nat}
    (ends : Ends setting kind text hidden first last) : last.record = first.record := by
  obtain ⟨middle, value, block, allowed, moved, rfl⟩ := ends
  show middle.outline.record = first.outline.record
  rw [moved.outline]

/-- A token starts at a seam and ends at one, and the comments before it are recalled. -/
structure State.Posted (setting : Setting) (state : State) : Prop where
  start : setting.source.Seam state.start
  pos : setting.source.Seam state.pos
  recalls : state.Recalls state.start

/-- A token lies between seams of the text, after the comments before it. -/
theorem Ends.posted {kind : Kind} {text : List Char} {hidden : Nat}
    (ends : Ends setting kind text hidden state.begun last)
    (here : setting.source.Seam state.pos) (recalls : state.Recalls state.pos) :
    last.Posted setting := by
  have start : last.start = state.pos := ends.start
  have same := ends.record
  obtain ⟨middle, value, block, allowed, moved, rfl⟩ := ends
  have seam : setting.source.Seam state.begun.pos := here
  exact ⟨start ▸ here, moved.seam seam, start ▸ recalls.congr same⟩

/-- The token that is fetched next stands between seams. -/
theorem Fetches.posted (fetches : Fetches setting first last) (here : setting.source.Seam first.pos)
    (recalls : first.Recalls first.pos) : last.Posted setting := by
  cases fetches with
  | token skips inside reads =>
      obtain ⟨text, hidden, ends, -⟩ := reads
      exact ends.posted (skips.seam here) (skips.recalls recalls)
  | ending skips atEnd ends => exact ends.posted (skips.seam here) (skips.recalls recalls)

theorem Skips.lastStart {source : Source} (skips : Skips source first last) :
    last.lastStart = first.lastStart := by
  show last.essence.lastStart = first.essence.lastStart
  rw [skips.essence]

theorem Ends.lastStart {kind : Kind} {text : List Char} {hidden : Nat}
    (ends : Ends setting kind text hidden first last) : last.lastStart = first.lastStart := by
  obtain ⟨middle, value, block, allowed, moved, rfl⟩ := ends
  show middle.outline.lastStart = first.outline.lastStart
  rw [moved.outline]

theorem Fetches.lastStart (fetches : Fetches setting first last) :
    last.lastStart = first.lastStart := by
  cases fetches with
  | token skips inside reads =>
      obtain ⟨text, hidden, ends, -⟩ := reads
      exact ends.lastStart.trans skips.lastStart
  | ending skips atEnd ends => exact ends.lastStart.trans skips.lastStart

/-- The offsets at which a parse may find a problem are seams of the text, and the comments up to
the current token are recalled. -/
structure State.Sited (setting : Setting) (state : State) : Prop where
  tracked : state.Tracked setting
  posted : state.Posted setting
  lastStart : setting.source.Seam state.lastStart
  lastStop : setting.source.Seam state.lastStop
  octal : state.OctalPlaced setting.source

/-- The problems of the first token of a text lie in their places. -/
theorem firstToken_inPlace {strict : Bool} {middle : State}
    (skips : Skips setting.source (.initial strict) middle) : InPlace nextToken setting middle :=
  nextToken_inPlace ((ready_initial strict).skips skips) (skips.seam (.zero _))

/-- No token starts in a first line that is no code. -/
theorem skipShebang_start (setting : Setting) (strict : Bool) :
    Gives skipShebang setting (.initial strict) fun _ after => after.start = 0 := by
  have located : Anchored position := inferInstanceAs (Anchored (get >>= _))
  have recorded (comment : State → Comment) : Anchored (modify fun state : State =>
      state.recordComment (comment state)) := .modify fun state => by
    unfold State.recordComment
    split <;> rfl
  have finished (value : List Char) (start : Nat) (startLoc : Position) :
      Anchored (finishComment false value start startLoc) :=
    inferInstanceAs (Anchored (position >>= _))
  have passed : Anchored (passLineComment 2) := inferInstanceAs (Anchored (position >>= _))
  have skips : Anchored skipShebang := inferInstanceAs (Anchored (get >>= _))
  exact skips.anchored setting (.initial strict)

/-- The first token of a text is sited. -/
theorem begin_sited (setting : Setting) (strict : Bool) :
    Gives (do skipShebang; nextToken : Scan Unit) setting (.initial strict) fun _ after =>
      after.Sited setting := by
  intro _ after read
  obtain ⟨⟨middle, skips, fetches⟩, -⟩ := (begin_meets setting strict).of_ok read
  have here := skips.seam (.zero _)
  have octal : InPlace (do skipShebang; nextToken : Scan Unit) setting (.initial strict) := by
    exact skipShebang_inPlace.bind fun _ later passed =>
      firstToken_inPlace ((skipShebang_meets (.initial _)).of_ok passed)
  have lastStart : after.lastStart = 0 := fetches.lastStart.trans skips.lastStart
  have lastStop : after.lastStop = 0 := fetches.lastStop.trans skips.lastStop
  exact ⟨(begin_tokens strict () after read).2, fetches.posted here (skips.recalls (.initial strict)),
    lastStart ▸ .zero _, lastStop ▸ .zero _, octal.octal nofun () after read⟩

namespace State.Sited

/-- A state between seams is sound. -/
theorem sound (sited : state.Sited setting) : state.Sound setting := sited.tracked.sound

/-- A token ends at a seam. -/
theorem stop (sited : state.Sited setting) : setting.source.Seam state.stop :=
  sited.sound.stops ▸ sited.posted.pos

/-- What is noted beside a token does not move it. -/
theorem noted (sited : state.Sited setting) {leading trailing : List Comment} (strict inType : Bool)
    (before : leading.Sublist state.comments.reverse)
    (after : trailing.Sublist state.comments.reverse) : State.Sited setting { state with
      strict := strict, inType := inType, leading := leading, trailing := trailing } where
  tracked := sited.tracked.noted ..
  posted := ⟨sited.posted.start, sited.posted.pos,
    { sited.posted.recalls with leading := before, trailing := after }⟩
  lastStart := sited.lastStart
  lastStop := sited.lastStop
  octal := sited.octal

/-- If a token is passed, the one after it is sited. -/
theorem next (sited : state.Sited setting) :
    Gives Lexer.next setting state fun _ after => after.Sited setting := by
  intro _ after ends
  have passed : state.passed.pos = state.pos ∧ state.passed.lastStart = state.start ∧
      state.passed.lastStop = state.stop := by
    unfold passed recordToken
    split <;> exact ⟨rfl, rfl, rfl⟩
  have within : state.start ≤ state.pos := sited.sound.stops ▸ sited.sound.within
  have recalls : state.passed.Recalls state.passed.pos := by
    rw [passed.1, State.passed, recordToken, if_pos sited.tracked.recording]
    have recalls := sited.posted.recalls.mono within
    exact ⟨recalls.recording, recalls.ordered, recalls.bounded, recalls.leading, recalls.trailing⟩
  obtain ⟨advances, -⟩ := (next_meets sited.sound).of_ok ends
  have fetches : Fetches setting state.passed after := advances
  refine ⟨(next_tokens sited.tracked ends).2, fetches.posted (passed.1 ▸ sited.posted.pos) recalls, ?_,
    ?_, (next_inPlace sited.sound sited.posted.pos).octal sited.octal _ _ ends⟩
  · rw [fetches.lastStart, passed.2.1]
    exact sited.posted.start
  · rw [fetches.lastStop, passed.2.2]
    exact sited.stop

/-- The token that is passed is the last one after that. -/
theorem next_lastStop (sited : state.Sited setting) :
    Gives Lexer.next setting state fun _ after => after.lastStop = state.stop := by
  intro _ after ends
  obtain ⟨advances, -⟩ := (next_meets sited.sound).of_ok ends
  have fetches : Fetches setting state.passed after := advances
  have passed : state.passed.lastStop = state.stop := by
    unfold passed recordToken
    split <;> rfl
  rw [fetches.lastStop, passed]

/-- The token that is passed ends where it started or after it. -/
theorem passes (sited : state.Sited setting) :
    Gives Lexer.next setting state fun _ after => state.start ≤ after.lastStop :=
  sited.next_lastStop.mono fun _ _ same => same ▸ sited.sound.within

/-- There is something in the token that is passed. -/
theorem passesFilled (sited : state.Sited setting) (more : state.kind ≠ .eof)
    (plain : state.kind ≠ .template) :
    Gives Lexer.next setting state fun _ after => state.start < after.lastStop :=
  sited.next_lastStop.mono fun _ _ same => same ▸ sited.sound.filled more plain

/-- A state stays between seams when a token is eaten. -/
theorem eat (sited : state.Sited setting) (kind : Kind) :
    Gives (Lexer.eat kind) setting state fun _ after => after.Sited setting := by
  simp only [Lexer.eat, Lexer.atKind, Gives.bind_iff, gives_get, gives_pure]
  refine gives_ite (fun _ => ?_) fun _ => gives_pure.mpr sited
  rw [Gives.bind_iff]
  exact sited.next.mono fun _ _ later => gives_pure.mpr later

/-- Looking ahead changes nothing. -/
theorem lookahead (sited : state.Sited setting) :
    Gives Lexer.lookahead setting state fun _ after => after = state := by
  intro ahead after ends
  rw [lookahead_eq setting sited.tracked.recording] at ends
  split at ends <;> cases ends
  rfl

/-- A number or a string that is read again is sited. -/
theorem setStrict (sited : state.Sited setting) (strict : Bool) :
    Gives (Lexer.setStrict strict) setting state fun _ after => after.Sited setting := by
  intro _ after ends
  obtain ⟨restricts, -⟩ := setStrict_gives sited.sound _ _ ends
  have octal := (setStrict_inPlace sited.sound sited.posted.start).octal sited.octal _ _ ends
  have tracked := (setStrict_traces strict _ _ ends).tracked sited.tracked
  rcases restricts with ⟨-, rfl⟩ | ⟨-, lineStart, line, ⟨text, hidden, read, -⟩, -⟩
  · exact sited.noted strict state.inType sited.posted.recalls.leading sited.posted.recalls.trailing
  · have posted := read.posted sited.posted.start
      (sited.posted.recalls.congr rfl)
    exact ⟨tracked, posted, read.lastStart ▸ sited.lastStart, read.lastStop ▸ sited.lastStop, octal⟩

end State.Sited

end Lexer

end EcmaSyntax
