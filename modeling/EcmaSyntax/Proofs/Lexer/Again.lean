import EcmaSyntax.Proofs.Lexer.Alike
import EcmaSyntax.Proofs.Lexer.Reach
import EcmaSyntax.Proofs.Lexer.Spelling

namespace EcmaSyntax

namespace Lexer

section Usual

variable {setting : Setting} {kind : Kind} {character : Char}

/-- After a usual token it only depends on its kind whether an expression may start. -/
theorem nest_usual (noMarkup : setting.jsx = false) (previous : Kind)
    (usual : kind.isUsual = true) (state : State) :
    nest previous setting { state with kind := kind } =
      .ok () { state with kind := kind, exprAllowed := kind.beforeExpr } := by
  change (if setting.jsx then nestMarkup previous else nestPlain previous) setting _ = _
  rw [if_neg (by simp [noMarkup])]
  cases kind with
  | num => rfl
  | string => rfl
  | dot => rfl
  | ellipsis => rfl
  | _ => cases usual

namespace Parallel

variable {related after : State → State → Prop} (parallel : Parallel related)
  (finish : ∀ {kind : Kind}, kind.isUsual = true → ∀ value,
    Mirrors setting related after (finishToken kind value))
include parallel finish

/-- A number or a string is read alike whatever the tokens before it are. -/
theorem readMark {resume : Scan Unit} (known : character ∈ literalMarks) :
    Mirrors setting related after (readMark character resume) := by
  have number : Mirrors setting related after (Lexer.readNumber false) :=
    parallel.readNumber _ (finish rfl)
  have string (quote : Char) : Mirrors setting related after (Lexer.readString quote) :=
    parallel.readString _ (finish rfl)
  simp only [literalMarks, List.mem_cons, List.not_mem_nil, or_false] at known
  rcases known with rfl | rfl | rfl | rfl | rfl | rfl | rfl | rfl | rfl | rfl | rfl | rfl | rfl
  · exact parallel.readZero finish
  · exact number
  · exact number
  · exact number
  · exact number
  · exact number
  · exact number
  · exact number
  · exact number
  · exact number
  · exact string _
  · exact string _
  · exact parallel.readDot finish

end Parallel

end Usual

/-- What is left of a state without what the reading of a number or a string sets. -/
def State.unread (state : State) : State :=
  { state.bare with kind := .eof, value := .none, stop := 0, exprAllowed := false }

/-- From two states a number or a string is read alike, whatever the tokens before it are. -/
structure Afresh (first second : State) : Prop where
  strict : second.strict = true → first.strict = true
  unread : first.unread = second.unread

namespace Afresh

variable {setting : Setting} {first second : State}

theorem pos (afresh : Afresh first second) : first.pos = second.pos :=
  (congrArg State.pos afresh.unread :)

/-- Readings in strict code and in other code go along with each other. -/
theorem parallel : Parallel Afresh where
  pos := Afresh.pos
  start afresh := (congrArg State.start afresh.unread :)
  strict := Afresh.strict
  moved afresh here there same _ :=
    ⟨afresh.strict, by
      show { State.unread _ with pos := here.pos } = { State.unread _ with pos := there.pos }
      rw [afresh.unread, same]⟩
  noted afresh _ _ _ := ⟨afresh.strict, afresh.unread⟩

/-- Some kinds of tokens end in the same way whatever token was before them. -/
theorem mirrors_finishToken (noMarkup : setting.jsx = false) {kind : Kind} (value : Value)
    (usual : kind.isUsual = true) : Mirrors setting Afresh Alike (finishToken kind value) := by
  intro first second afresh
  refine follows_position fun one other => ?_
  refine .succeeds (nest_usual noMarkup first.kind usual { first with
    stop := first.pos, stopLoc := one, value := value }) (nest_usual noMarkup second.kind usual
    { second with stop := second.pos, stopLoc := other, value := value })
    ⟨rfl, afresh.strict, ?_⟩
  show { first.unread with
      stop := first.unread.pos, kind := kind, value := value, exprAllowed := kind.beforeExpr } =
    { second.unread with
      stop := second.unread.pos, kind := kind, value := value, exprAllowed := kind.beforeExpr }
  rw [afresh.unread]

end Afresh

/-- If the current token is a number or a string, it has been read from its start on, in a state
of which all is left that such a token does not set. -/
def Again (setting : Setting) (state : State) : Prop :=
  state.kind = .num ∨ state.kind = .string →
    ∃ origin last character, setting.source.charAt? state.start = some character ∧
      origin.unread = { state.unread with pos := state.start } ∧
      readMark character (pure ()) setting origin = .ok () last ∧ last.bare = state.bare

section Again

variable {setting : Setting} {state last : State}

theorem Again.congr (again : Again setting state) (same : last.bare = state.bare) :
    Again setting last := by
  intro literal
  have kind : last.kind = state.kind := (congrArg State.kind same :)
  have start : last.start = state.start := (congrArg State.start same :)
  obtain ⟨origin, read, character, found, left, ran, bare⟩ := again (kind ▸ literal)
  refine ⟨origin, read, character, start ▸ found, ?_, ran, bare.trans same.symm⟩
  rw [left, State.unread, State.unread, same, start]

/-- A number or a string leaves all that it does not set as it is. -/
theorem ReadsLiteral.unread (reads : ReadsLiteral setting state last)
    (started : state.start = state.pos) :
    state.unread = { last.unread with pos := last.start } := by
  obtain ⟨⟨text, hidden, ⟨middle, value, block, allowed, moved, ended⟩, -⟩, literal⟩ := reads
  have start : last.start = state.pos := by
    rw [ended]
    exact moved.start.trans started
  have left : { last.unread with pos := 0 } = { middle.outline.unread with
      contexts := nested setting.jsx state.kind last.kind block state.contexts } := by
    rw [ended]
    rfl
  rw [moved.outline, nested_literal literal] at left
  show { { state.outline.unread with contexts := state.contexts } with pos := state.pos } =
    { { last.unread with pos := 0 } with pos := last.start }
  rw [left, start]

section Literal

variable {character : Char} {resume : Scan Unit} (noMarkup : setting.jsx = false)
include noMarkup

/-- How the reading would go on after a comment does not matter to a number or a string. -/
theorem readToken_eq (known : character ∈ literalMarks) :
    readToken character resume setting state = readMark character (pure ()) setting state := by
  have opens := opensLiteral_of_mem known
  have marked : readMark character resume = readMark character (pure ()) ∧
      (character == '<' || character == '>') = false := by
    simp only [literalMarks, List.mem_cons, List.not_mem_nil, or_false] at known
    rcases known with rfl | rfl | rfl | rfl | rfl | rfl | rfl | rfl | rfl | rfl | rfl | rfl | rfl
      <;> exact ⟨rfl, rfl⟩
  change (if setting.flow && state.inType && (character == '<' || character == '>') then
      finishOperator .relational 1
    else if setting.jsx then readMarkup character resume
    else readPlain character resume) setting state = _
  rw [marked.2, Bool.and_false, if_neg (by simp), if_neg (by simp [noMarkup]), readPlain,
    if_neg (by simp [opens.word, opens.other]), marked.1]

omit noMarkup in
theorem gives_beginToken :
    Gives beginToken setting state fun _ after => after = state.begun := by
  simp only [beginToken, position, Gives.bind_iff, gives_get]
  exact gives_ite (fun _ => gives_pure.mpr (gives_modify.mpr rfl)) fun _ =>
    gives_throw.mpr trivial

/-- A number or a string at the cursor is read from there on. -/
theorem fetchToken_runs (literal : setting.source.literalAt state.pos = true)
    (outside : state.context ≠ .quoteTemplate) :
    Gives (fetchToken state.context resume) setting state fun _ last =>
      ∃ character, setting.source.charAt? state.pos = some character ∧
        readMark character (pure ()) setting state.begun = .ok () last := by
  obtain ⟨character, found, -⟩ := literalAt_cases literal
  rw [fetchToken, Gives.bind_iff]
  refine gives_beginToken.mono ?_
  rintro _ _ rfl
  have starts : setting.source.charAt? (state.begun.pos + 0) = some character := found
  rw [Gives.bind_iff, gives_peek, starts]
  simp only
  rw [if_neg (by simpa using outside)]
  intro _ last ran
  rw [readToken_eq noMarkup (mem_literalMarks literal found)] at ran
  exact ⟨character, found, ran⟩

/-- A number or a string is read by its first character, whatever constructs are open. -/
theorem nextToken_runs (literal : setting.source.literalAt state.pos = true)
    (outside : state.context ≠ .quoteTemplate) :
    Gives nextToken setting state fun _ last =>
      ∃ character, setting.source.charAt? state.pos = some character ∧
        readMark character (pure ()) setting state.begun = .ok () last := by
  rw [nextToken, Gives.bind_iff]
  intro count after remains
  obtain ⟨-, rfl⟩ := EStateM.Result.ok.inj remains
  rw [nextTokenWithin, Gives.bind_iff, gives_get]
  refine gives_ite (fun _ => ?_) fun _ => fetchToken_runs noMarkup literal outside
  rw [Gives.bind_iff]
  intro _ after skipped
  obtain rfl := (skipSpace_literal literal).of_ok skipped
  exact fetchToken_runs noMarkup literal outside

/-- If the token that comes next is a number or a string, it is read from its start on. -/
theorem nextToken_literal_runs (ready : Ready setting state) :
    Meets nextToken setting state fun _ last => last.kind = .num ∨ last.kind = .string →
      ∃ origin character, Ready setting origin ∧
        setting.source.charAt? origin.pos = some character ∧
        readMark character (pure ()) setting origin.begun = .ok () last ∧
        ReadsLiteral setting origin.begun last := by
  rw [nextToken, Meets.bind_iff, meets_remaining]
  refine nextTokenWithin_wanted _ ready (Nat.lt_succ_self _)
    fun middle resume skips ready resumes => ?_
  rw [← skips.context]
  by_cases opens : setting.source.literalAt middle.pos = true ∧ middle.context ≠ .quoteTemplate
  · have never : ∀ {claim : Prop}, setting.jsx = true → claim :=
      fun markup => absurd (noMarkup.symm.trans markup) (by decide)
    refine (fetchToken_literal ready
      ⟨ready.begun, opens.2, never, opens.1⟩).and_ok.mono ?_
    rintro _ last ⟨reads, ran⟩ -
    obtain ⟨character, found, ran⟩ := fetchToken_runs noMarkup opens.1 opens.2 () last ran
    exact ⟨middle, character, ready, found, ran, reads⟩
  · refine fetchToken_meets ready resumes ?_ ?_
    · intro last _ ends literal
      rw [ends.kind_eq] at literal
      exact absurd literal (by decide)
    · rintro last - ⟨text, hidden, ends, fits⟩ literal
      exact absurd ⟨(fits.opens literal).1, fits.outside literal⟩ opens

/-- A number or a string is the same when it is read again. -/
theorem nextToken_again (ready : Ready setting state) :
    Meets nextToken setting state fun _ last => Again setting last := by
  refine (nextToken_literal_runs noMarkup ready).mono fun _ last runs literal => ?_
  obtain ⟨origin, character, -, found, ran, reads⟩ := runs literal
  have left := reads.unread rfl
  have start : origin.pos = last.start := (congrArg State.start left :)
  exact ⟨origin.begun, last, character, start ▸ found, left, ran, rfl⟩

/-- Two readings of a number or a string from its start on come to the same token. -/
theorem readMark_bare {origin other read : State} (known : character ∈ literalMarks)
    (left : origin.unread = other.unread)
    (one : readMark character (pure ()) setting origin = .ok () read)
    (two : readMark character (pure ()) setting other = .ok () last) : last.bare = read.bare := by
  have mirrors : Mirrors setting Afresh Alike (readMark character (pure ())) :=
    Afresh.parallel.readMark (fun usual value => Afresh.mirrors_finishToken noMarkup value usual)
      known
  -- Strict code refuses more, so the looser reading follows the stricter one.
  by_cases stricter : other.strict = true → origin.strict = true
  · exact ((mirrors origin other ⟨stricter, left⟩).both one two).2.bare.symm
  · have loose : origin.strict = true → other.strict = true := fun _ =>
      Classical.byContradiction fun loose => stricter fun strict => absurd strict loose
    exact ((mirrors other origin ⟨loose, left.symm⟩).both two one).2.bare

/-- If a number or a string is read again, it is the same. -/
theorem setStrict_again {strict : Bool} (sound : state.Sound setting)
    (again : Again setting state) :
    Gives (setStrict strict) setting state fun _ last => last.bare = state.bare := by
  simp only [setStrict, Gives.bind_iff, gives_modify, gives_get]
  refine gives_ite (fun literal => ?_) fun _ => gives_pure.mpr rfl
  rw [Bool.or_eq_true, beq_iff_eq, beq_iff_eq] at literal
  obtain ⟨origin, read, character, found, left, ran, bare⟩ := again literal
  obtain ⟨opens, outside, -⟩ := sound.opens literal
  simp only [moveTo, Gives.bind_iff, gives_modify, gives_get]
  intro _ returned returns
  have keeps : Maintains (fun last : State => last.bare = { state.bare with pos := state.start })
      (returnToLine state.lineStart) := returnToLine_maintains _ fun _ _ _ same => same
  have same := keeps setting { state with strict := strict, pos := state.start } rfl
  rw [returns] at same
  change returned.bare = _ at same
  have pos : returned.pos = state.start := (congrArg State.pos same :)
  have context : returned.context = state.context := (congrArg State.context same :)
  intro _ last reads
  obtain ⟨other, there, ran'⟩ :=
    nextToken_runs noMarkup (pos ▸ opens) (context ▸ outside) () last reads
  obtain rfl : character = other := Option.some.inj (found.symm.trans (pos ▸ there))
  refine (readMark_bare noMarkup (mem_literalMarks opens found) ?_ ran ran').trans bare
  show origin.unread = { State.unread returned with start := returned.pos }
  rw [left, State.unread, State.unread, same, pos]
  rfl

end Literal

end Again

end Lexer

end EcmaSyntax
