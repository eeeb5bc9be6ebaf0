import EcmaSyntax.Lexer.Operator
import EcmaSyntax.Proofs.Lexer.Passage
import EcmaSyntax.Proofs.Mirror

namespace EcmaSyntax

/-- Tokens of a kind open and close nothing, and come after any other token. -/
def Kind.isUsual : Kind → Bool
  | .num | .string | .dot | .ellipsis => true
  | _ => false

namespace Lexer

/-- What a state notes about octal escapes. -/
def State.notes (state : State) : Bool × Option Nat := (state.containsOctal, state.octalPosition)

/-- Two states share what the inside of a token is read from: the cursor, but not its line,
and the start of the token. What strict code refuses, the first one refuses if the second one
does. A relation is kept by movements that the states share and by notes about escapes. If the
lines were the same, they still are, and so are the notes. -/
structure Parallel (related : State → State → Prop) : Prop where
  pos : ∀ {first second}, related first second → first.pos = second.pos
  start : ∀ {first second}, related first second → first.start = second.start
  strict : ∀ {first second}, related first second → second.strict = true → first.strict = true
  moved : ∀ {first second}, related first second → ∀ here there : Cursor,
    here.pos = there.pos → (first.cursor = second.cursor → here = there) →
    related (first.at here) (second.at there)
  noted : ∀ {first second}, related first second → ∀ here there : Bool × Option Nat,
    (first.notes = second.notes → here = there) →
    related { first with containsOctal := here.1, octalPosition := here.2 }
      { second with containsOctal := there.1, octalPosition := there.2 }

section Steps

variable {setting : Setting} {before after : State → State → Prop} {α β : Type}

theorem mirrors_raise (pos : Nat) (problem : Problem) :
    Mirrors setting before after (raise pos problem : Scan α) := .stops fun _ => ⟨_, _, rfl⟩

theorem mirrors_fault (reason : Fault) :
    Mirrors setting before after (fault reason : Scan α) := .stops fun _ => ⟨_, _, rfl⟩

theorem mirrors_source : Mirrors setting before before source := fun _ _ related => ⟨rfl, related⟩

theorem mirrors_slice (start stop : Nat) : Mirrors setting before before (slice start stop) := by
  unfold slice
  refine .bind mirrors_source fun source => ?_
  split
  · exact .pure _
  · exact mirrors_fault _

theorem mirrors_checkRest (start : Nat) : Mirrors setting before before (checkRest start) := by
  unfold checkRest
  exact .bind mirrors_source fun source => .ite (fun _ => mirrors_fault _) fun _ => .pure _

theorem mirrors_breaksBetween (start stop : Nat) :
    Mirrors setting before before (breaksBetween start stop) := by
  unfold breaksBetween
  exact .bind mirrors_source fun source => .ite (fun _ => .pure _) fun _ => mirrors_fault _

/-- A step goes on from two positions that may differ. -/
theorem follows_position {next later : Position → Scan α} {state beside : State}
    {post : α → State → α → State → Prop}
    (goesOn : ∀ one other, Follows (next one) (later other) setting state beside post) :
    Follows (position >>= next) (position >>= later) setting state beside post := by
  have run : ∀ state, position setting state =
      if state.lineStart ≤ state.pos then .ok state.position state
      else .error (.fault (.column state.lineStart state.pos)) state := by
    intro state
    change (if state.lineStart ≤ state.pos then pure state.position
      else fault (.column state.lineStart state.pos) : Scan Position) setting state = _
    split <;> rfl
  refine Follows.bind (show Follows position position setting state beside
    fun _ last _ final => last = state ∧ final = beside from ?_) ?_
  · unfold Follows
    rw [run, run]
    by_cases here : state.lineStart ≤ state.pos
    · by_cases there : beside.lineStart ≤ beside.pos
      · rw [if_pos here, if_pos there]
        exact ⟨rfl, rfl⟩
      · rw [if_pos here, if_neg there]
        rfl
    · rw [if_neg here]
      trivial
  · rintro one _ other _ ⟨rfl, rfl⟩
    exact goesOn one other

end Steps

variable {setting : Setting} {related after : State → State → Prop}

namespace Parallel

theorem peek (parallel : Parallel related) (ahead : Nat) :
    Mirrors setting related related (peek ahead) := by
  unfold Lexer.peek
  refine .bind mirrors_source fun source => .get ?_ fun state => .pure _
  intro state beside same
  rw [parallel.pos same]

theorem peekIs (parallel : Parallel related) (ahead : Nat) (character : Char) :
    Mirrors setting related related (peekIs ahead character) := by
  unfold Lexer.peekIs
  exact .bind (parallel.peek ahead) fun found => .pure _

theorem remaining (parallel : Parallel related) : Mirrors setting related related remaining := by
  unfold Lexer.remaining
  refine .bind mirrors_source fun source => .get ?_ fun state => .pure _
  intro state beside same
  rw [parallel.pos same]

theorem sliceFrom (parallel : Parallel related) (start : Nat) :
    Mirrors setting related related (sliceFrom start) := by
  unfold Lexer.sliceFrom
  refine .get ?_ fun state => mirrors_slice _ _
  intro state beside same
  rw [parallel.pos same]

theorem behind (parallel : Parallel related) (count : Nat) :
    Mirrors setting related related (behind count) := by
  unfold Lexer.behind
  refine .get ?_ fun state => .ite (fun _ => .pure _) fun _ => mirrors_fault _
  intro state beside same
  rw [parallel.pos same]

theorem advance (parallel : Parallel related) (count : Nat) :
    Mirrors setting related related (advance count) := by
  refine .modify fun state beside same => ?_
  exact parallel.moved same (state.cursor.forward count) (beside.cursor.forward count)
    (congrArg (· + count) (parallel.pos same)) (congrArg (Cursor.forward · count))

theorem moveTo (parallel : Parallel related) (pos : Nat) :
    Mirrors setting related related (moveTo pos) :=
  .modify fun state beside same => parallel.moved same ⟨pos, state.lineStart, state.line⟩
    ⟨pos, beside.lineStart, beside.line⟩ rfl
    (congrArg fun cursor : Cursor => { cursor with pos := pos })

theorem startLine (parallel : Parallel related) (pos : Nat) :
    Mirrors setting related related (startLine pos) :=
  .modify fun state beside same => parallel.moved same ⟨pos, pos, state.line + 1⟩
    ⟨pos, pos, beside.line + 1⟩ rfl
    (congrArg fun cursor : Cursor => Cursor.mk pos pos (cursor.line + 1))

/-- What strict code refuses is refused in both runs, or the first run refuses it. -/
theorem refuse (parallel : Parallel related) {α : Type} {refused : Bool} {stop rest : Scan α}
    (stops : ∀ state, ∃ failure last, stop setting state = .error failure last)
    (goesOn : Mirrors setting related after rest) :
    Mirrors setting related after (do if refused || (← get).strict then stop else rest) := by
  intro state beside same
  change Follows (if refused || state.strict then stop else rest)
    (if refused || beside.strict then stop else rest) setting state beside _
  by_cases refuses : (refused || state.strict) = true
  · obtain ⟨failure, last, failed⟩ := stops state
    rw [if_pos refuses]
    exact .failed failed
  · rw [if_neg refuses, if_neg]
    · exact goesOn state beside same
    · rw [Bool.or_eq_true] at refuses ⊢
      rintro (always | strict)
      · exact refuses (.inl always)
      · exact refuses (.inr (parallel.strict same strict))

section Escapes

/-- Digits of an escape are read alike. -/
theorem readHex (parallel : Parallel related) (count : Nat) :
    Mirrors setting related related (readHex count) := by
  unfold Lexer.readHex
  refine .bind mirrors_source fun source => .get ?_ fun state => ?_
  · intro state beside same
    rw [parallel.pos same]
  · exact .bind (parallel.moveTo _) fun _ => .ite (fun _ => .pure _) fun _ => mirrors_raise _ _

/-- Code points are read alike. -/
theorem readCodePoint (parallel : Parallel related) :
    Mirrors setting related related readCodePoint := by
  unfold Lexer.readCodePoint
  refine .bind (parallel.peekIs _ _) fun braced => .ite (fun _ => ?_) fun _ => parallel.readHex _
  refine .bind (parallel.advance _) fun _ => .get ?_ fun state => ?_
  · intro state beside same
    rw [parallel.pos same]
  refine .bind (mirrors_checkRest _) fun _ => .bind mirrors_source fun source => ?_
  refine .ite (fun _ => .bind (parallel.readHex _) fun code => .bind (parallel.advance _) fun _ => ?_)
    fun _ => mirrors_raise _ _
  exact .ite (fun _ => mirrors_raise _ _) fun _ => .pure _

theorem octalDigits (start : Nat) : Mirrors setting related related (octalDigits start) := by
  unfold Lexer.octalDigits
  refine .bind mirrors_source fun source => .bind (mirrors_slice _ _) fun digits => ?_
  exact .ite (fun _ => mirrors_slice _ _) fun _ => .pure _

/-- Octal escapes are read alike; what is noted of them is noted in both readings. -/
theorem readOctal (parallel : Parallel related) (inTemplate : Bool) :
    Mirrors setting related related (readOctal inTemplate) := by
  unfold Lexer.readOctal
  refine .bind (parallel.behind 1) fun start => .bind (octalDigits start) fun digits => ?_
  have rest : Mirrors setting related related (do
      Lexer.moveTo (start + digits.length)
      return [charOf (Digit.number 8 digits)]) :=
    .bind (parallel.moveTo _) fun _ => .pure _
  refine .ite (fun _ => .bind (parallel.behind 2) fun escape => ?_) fun _ => rest
  refine .bind (show Mirrors setting related related _ from
    .modify fun state beside same => ?_) fun _ => ?_
  · have noted : ∀ state : State,
        (if state.containsOctal then state
          else { state with containsOctal := true, octalPosition := some escape }) =
        { state with
          containsOctal := true
          octalPosition := if state.containsOctal then state.octalPosition else some escape } := by
      intro state
      split
      · next marked => rw [← marked]
      · rfl
    rw [noted, noted]
    exact parallel.noted same (true, _) (true, _) (congrArg fun notes : Bool × Option Nat =>
      (true, if notes.1 then notes.2 else some escape))
  · exact parallel.refuse (fun _ => ⟨_, _, rfl⟩) rest

/-- Escapes are read alike. -/
theorem readEscape (parallel : Parallel related) (inTemplate : Bool) :
    Mirrors setting related related (readEscape inTemplate) := by
  unfold Lexer.readEscape
  refine .bind (parallel.advance _) fun _ => .bind (parallel.peek _) fun found => ?_
  split
  · exact .pure _
  refine .bind (parallel.advance _) fun _ => ?_
  have newLine : Mirrors setting related related (do
      Lexer.startLine (← get).pos
      return ([] : List Char)) := by
    refine .get ?_ fun state => .bind (parallel.startLine _) fun _ => .pure _
    intro state beside same
    rw [parallel.pos same]
  split
  · exact .pure _
  · exact .pure _
  · exact .bind (parallel.readHex _) fun _ => .pure _
  · exact .bind parallel.readCodePoint fun _ => .pure _
  · exact .pure _
  · exact .pure _
  · exact .pure _
  · exact .pure _
  · refine .bind (parallel.peekIs _ _) fun feed => .ite (fun _ => ?_) fun _ => newLine
    exact .bind (parallel.advance _) fun _ => newLine
  · exact newLine
  · exact .ite (fun _ => parallel.readOctal _) fun _ => .pure _

/-- The parts of a string are gathered alike. -/
theorem gatherString (parallel : Parallel related) (quote : Char) (count chunk : Nat)
    (gathered : List Char) :
    Mirrors setting related related (gatherString quote count chunk gathered) := by
  have unterminated : Mirrors setting related related (do
      raise (← get).start .unterminatedString : Scan (List Char)) :=
    .stops fun _ => ⟨_, _, rfl⟩
  induction count generalizing chunk gathered with
  | zero => exact unterminated
  | succ count inductionHypothesis =>
      unfold Lexer.gatherString
      refine .bind (parallel.peek _) fun found => ?_
      split
      · exact unterminated
      refine .ite (fun _ => .bind (parallel.sliceFrom _) fun _ => .pure _) fun _ => .ite ?_ ?_
      · intro _
        refine .bind (parallel.sliceFrom _) fun plain => .bind (parallel.readEscape _) ?_
        intro decoded
        refine .get ?_ fun state => inductionHypothesis _ _
        intro state beside same
        rw [parallel.pos same]
      · intro _
        refine .ite (fun _ => unterminated) fun _ => ?_
        exact .bind (parallel.advance _) fun _ => inductionHypothesis _ _

/-- Strings are read alike if their tokens end alike. -/
theorem readString (parallel : Parallel related) (quote : Char)
    (finish : ∀ value, Mirrors setting related after (finishToken .string value)) :
    Mirrors setting related after (readString quote) := by
  unfold Lexer.readString
  refine .bind (parallel.advance _) fun _ => .bind parallel.remaining fun count => ?_
  refine .get ?_ fun state => ?_
  · intro state beside same
    rw [parallel.pos same]
  · exact .bind (parallel.gatherString _ _ _ _) fun gathered =>
      .bind (parallel.advance _) fun _ => finish _

end Escapes

section Numbers

theorem passDigits (parallel : Parallel related) (radix : Nat) :
    Mirrors setting related related (passDigits radix) := by
  unfold Lexer.passDigits
  refine .bind mirrors_source fun source => .get ?_ fun state => ?_
  · intro state beside same
    rw [parallel.pos same]
  · exact .bind (parallel.moveTo _) fun _ => .pure _

theorem checkNumberEnds (parallel : Parallel related) :
    Mirrors setting related related checkNumberEnds := by
  unfold Lexer.checkNumberEnds
  refine .bind (parallel.peek _) fun found => .ite (fun _ => ?_) fun _ => .pure _
  exact .stops fun _ => ⟨_, _, rfl⟩

/-- Numbers with a mark for their radix are read alike if their tokens end alike. -/
theorem readRadixNumber (parallel : Parallel related) (radix : Nat)
    (finish : ∀ value, Mirrors setting related after (finishToken .num value)) :
    Mirrors setting related after (readRadixNumber radix) := by
  unfold Lexer.readRadixNumber
  refine .bind (parallel.advance _) fun _ => .bind (parallel.passDigits _) fun digits => ?_
  refine .ite (fun _ => ?_) fun _ => .bind parallel.checkNumberEnds fun _ => finish _
  exact .stops fun _ => ⟨_, _, rfl⟩

theorem readFraction (parallel : Parallel related) :
    Mirrors setting related related readFraction := by
  unfold Lexer.readFraction
  refine .bind (parallel.peekIs _ _) fun dotted => .ite (fun _ => ?_) fun _ => .pure _
  exact .bind (parallel.advance _) fun _ => .bind (parallel.passDigits _) fun _ => .pure _

theorem readExponent (parallel : Parallel related) (start : Nat) :
    Mirrors setting related related (readExponent start) := by
  unfold Lexer.readExponent
  have digits : ∀ negative : Bool, Mirrors setting related related (do
      let digits ← Lexer.passDigits 10
      if digits.isEmpty then raise start .invalidNumber
      return some (negative, digits)) := by
    intro negative
    refine .bind (parallel.passDigits _) fun digits => .ite (fun _ => ?_) fun _ => .pure _
    exact .stops fun _ => ⟨_, _, rfl⟩
  refine .bind (parallel.peekIs _ _) fun small => .bind (parallel.peekIs _ _) fun large => ?_
  refine .ite (fun _ => .bind (parallel.advance _) fun _ => ?_) fun _ => .pure _
  refine .bind (parallel.peekIs _ _) fun negative => .bind (parallel.peekIs _ _) fun plus => ?_
  exact .ite (fun _ => .bind (parallel.advance _) fun _ => digits _) fun _ => digits _

/-- Numbers are read alike from their integer part on. -/
theorem numberRest (parallel : Parallel related) (start : Nat) (integer : List Char)
    (finish : ∀ value, Mirrors setting related after (finishToken .num value)) :
    Mirrors setting related after (numberRest start integer) := by
  refine .bind parallel.readFraction fun fraction => ?_
  refine .bind (parallel.readExponent _) fun exponent => .bind parallel.checkNumberEnds fun _ => ?_
  refine .bind (parallel.sliceFrom _) fun text => .ite (fun _ => finish _) fun _ => ?_
  exact parallel.refuse (fun _ => ⟨_, _, rfl⟩) (finish _)

/-- Numbers are read alike if their tokens end alike. -/
theorem readNumber (parallel : Parallel related) (startsWithDot : Bool)
    (finish : ∀ value, Mirrors setting related after (finishToken .num value)) :
    Mirrors setting related after (readNumber startsWithDot) := by
  refine .get ?_ fun state => ?_
  · intro state beside same
    rw [parallel.pos same]
  refine .ite (fun _ => .bind (.pure []) fun integer => ?_) fun _ =>
    .bind (parallel.passDigits _) fun integer => ?_
  all_goals
    exact .ite (fun _ => .stops fun _ => ⟨_, _, rfl⟩) fun _ => parallel.numberRest _ _ finish

end Numbers

section Usual

variable {kind : Kind} (parallel : Parallel related)
  (finish : ∀ {kind : Kind}, kind.isUsual = true → ∀ value,
    Mirrors setting related after (finishToken kind value))
include parallel finish

theorem finishMark (length : Nat) (usual : kind.isUsual = true) :
    Mirrors setting related after (finishMark kind length) :=
  .bind (parallel.advance _) fun _ => finish usual _

/-- What begins with a point is read alike. -/
theorem readDot : Mirrors setting related after readDot := by
  unfold Lexer.readDot
  refine .bind (parallel.peek _) fun digit => .ite (fun _ => ?_) fun _ => ?_
  · exact parallel.readNumber _ (finish rfl)
  refine .bind (parallel.peekIs _ _) fun one => .bind (parallel.peekIs _ _) fun two => ?_
  exact .ite (fun _ => parallel.finishMark finish _ rfl) fun _ => parallel.finishMark finish _ rfl

/-- What begins with a zero is read alike. -/
theorem readZero : Mirrors setting related after readZero := by
  unfold Lexer.readZero
  refine .bind (parallel.peek _) fun letter => ?_
  have number : ∀ value, Mirrors setting related after (finishToken .num value) := finish rfl
  split
  case h_7 => exact parallel.readNumber _ number
  all_goals exact parallel.readRadixNumber _ number

end Usual

end Parallel

end Lexer

end EcmaSyntax
