import EcmaSyntax.Lexer.Next
import EcmaSyntax.Proofs.Lexer.Parallel
import EcmaSyntax.Proofs.Lexer.Record
import EcmaSyntax.Proofs.Lexer.Spelling

namespace EcmaSyntax

/-- A token without the lines that it lies on. -/
def Token.bare (token : Token) : Token := { token with loc := ⟨.origin, .origin⟩ }

/-- A comment without the lines that it lies on. -/
def Comment.bare (comment : Comment) : Comment := { comment with loc := ⟨.origin, .origin⟩ }

/-- A token that a type reads in a way of its own: an angle bracket, or the word for no value as
a name. -/
def Token.isTypeMark (token : Token) : Bool :=
  token.kind == .relational || token.kind == .name && token.value.text? == some "void"

/-- An entry without the lines that it lies on. -/
def Entry.bare : Entry → Entry
  | .token read => .token read.bare
  | .comment passed => .comment passed.bare

namespace Lexer

/-- No dialect is chosen. -/
structure Setting.NoDialect (setting : Setting) : Prop where
  flow : setting.flow = false
  jsx : setting.jsx = false

/-- What is left of a state without the lines, the notes about escapes, the comments that wait
for a node and what only a parse sets. -/
def State.bare (state : State) : State :=
  { state with
    strict := false, inType := false, lineStart := 0, line := 0
    startLoc := .origin, stopLoc := .origin, lastStartLoc := .origin, lastStopLoc := .origin
    containsEsc := false, containsOctal := false, octalPosition := none
    leading := [], trailing := []
    entries := state.entries.map Entry.bare, comments := state.comments.map Comment.bare }

/-- Two states read alike: they differ in no more than lines, notes and what only a parse sets,
and where the second one is strict, so is the first. -/
structure Alike (first second : State) : Prop where
  strict : second.strict = true → first.strict = true
  bare : first.bare = second.bare

namespace Alike

variable {first second : State}

theorem pos (alike : Alike first second) : first.pos = second.pos :=
  (congrArg State.pos alike.bare :)

theorem start (alike : Alike first second) : first.start = second.start :=
  (congrArg State.start alike.bare :)

theorem stop (alike : Alike first second) : first.stop = second.stop :=
  (congrArg State.stop alike.bare :)

theorem kind (alike : Alike first second) : first.kind = second.kind :=
  (congrArg State.kind alike.bare :)

theorem value (alike : Alike first second) : first.value = second.value :=
  (congrArg State.value alike.bare :)

theorem lastStop (alike : Alike first second) : first.lastStop = second.lastStop :=
  (congrArg State.lastStop alike.bare :)

theorem contexts (alike : Alike first second) : first.contexts = second.contexts :=
  (congrArg State.contexts alike.bare :)

theorem context (alike : Alike first second) : first.context = second.context :=
  (congrArg State.context alike.bare :)

theorem exprAllowed (alike : Alike first second) : first.exprAllowed = second.exprAllowed :=
  (congrArg State.exprAllowed alike.bare :)

theorem recording (alike : Alike first second) : first.recording = second.recording :=
  (congrArg State.recording alike.bare :)

theorem refl (state : State) : Alike state state := ⟨id, rfl⟩

/-- A token is read from two states that read alike in the same way. -/
theorem parallel : Parallel Alike where
  pos := Alike.pos
  start := Alike.start
  strict := Alike.strict
  moved alike here there same _ :=
    ⟨alike.strict, by
      show { State.bare _ with pos := here.pos } = { State.bare _ with pos := there.pos }
      rw [alike.bare, same]⟩
  noted alike _ _ _ := ⟨alike.strict, alike.bare⟩

end Alike

variable {setting : Setting}

/-- A change that leaves alone what the states may differ in keeps them alike. -/
theorem mirrors_modify {change : State → State}
    (commutes : ∀ state, (change state).bare = change state.bare)
    (strict : ∀ state, (change state).strict = state.strict) :
    Mirrors setting Alike Alike (modify change) := by
  refine .modify fun first second alike => ⟨?_, ?_⟩
  · rw [strict, strict]
    exact alike.strict
  · rw [commutes, commutes, alike.bare]

section Nesting

theorem mirrors_openContext (context : Context) (exprAllowed : Bool) :
    Mirrors setting Alike Alike (openContext context exprAllowed) :=
  mirrors_modify (fun _ => rfl) fun _ => rfl

theorem mirrors_allowExpr (allowed : Bool) : Mirrors setting Alike Alike (allowExpr allowed) :=
  mirrors_modify (fun _ => rfl) fun _ => rfl

theorem mirrors_closeContext : Mirrors setting Alike Alike closeContext := by
  refine mirrors_modify (fun state => ?_) fun state => ?_
  · rw [show state.bare.contexts = state.contexts from rfl]
    split <;> rfl
  · split <;> rfl

theorem mirrors_closeTag (previous : Kind) : Mirrors setting Alike Alike (closeTag previous) := by
  refine mirrors_modify (fun state => ?_) fun state => ?_
  · dsimp only
    rw [show state.bare.contexts = state.contexts from rfl]
    split <;> rfl
  · dsimp only
    split <;> rfl

theorem mirrors_braceIsBlock (previous : Kind) :
    Mirrors setting Alike Alike (braceIsBlock previous) := by
  unfold braceIsBlock
  refine .get ?_ fun state => ?_
  · intro first second alike
    rw [alike.exprAllowed, alike.context, alike.lastStop, alike.start]
  split
  · split <;> exact .pure _
  · exact mirrors_breaksBetween _ _
  all_goals exact .pure _

theorem mirrors_nestPlain (previous : Kind) :
    Mirrors setting Alike Alike (nestPlain previous) := by
  unfold nestPlain
  refine .get ?_ fun state => .ite (fun _ => mirrors_allowExpr _) fun _ => ?_
  · intro first second alike
    rw [alike.kind, alike.context, alike.stop]
  split
  · exact mirrors_closeContext
  · exact mirrors_closeContext
  · refine .ite (fun _ => ?_) fun _ => mirrors_allowExpr _
    refine .bind mirrors_source fun source => .bind (mirrors_breaksBetween _ _) fun breaks => ?_
    exact mirrors_allowExpr _
  · exact .bind (mirrors_braceIsBlock _) fun block => mirrors_openContext _ _
  · exact mirrors_openContext _ _
  · exact mirrors_openContext _ _
  · exact .pure _
  · exact .ite (fun _ => mirrors_openContext _ _) fun _ => mirrors_allowExpr _
  · refine .ite (fun _ => ?_) fun _ => mirrors_openContext _ _
    exact mirrors_modify (fun _ => rfl) fun _ => rfl
  · exact .bind (mirrors_openContext _ _) fun _ => mirrors_openContext _ _
  · exact mirrors_closeTag _
  · exact mirrors_allowExpr _

variable (noMarkup : setting.jsx = false)
include noMarkup

theorem mirrors_finishToken (kind : Kind) (value : Value) :
    Mirrors setting Alike Alike (finishToken kind value) := by
  intro first second alike
  refine follows_position fun one other => ?_
  have nests : Mirrors setting Alike Alike (nest first.kind) := by
    unfold nest
    refine .read (.ite (fun markup => ?_) fun _ => mirrors_nestPlain _)
    exact absurd markup (by simp [noMarkup])
  change Follows (do
      modify fun state : State =>
        { state with stop := state.pos, stopLoc := one, kind := kind, value := value }
      nest first.kind)
    (do
      modify fun state : State =>
        { state with stop := state.pos, stopLoc := other, kind := kind, value := value }
      nest second.kind) setting first second _
  rw [← alike.kind]
  refine nests _ _ ⟨alike.strict, ?_⟩
  show { first.bare with stop := first.bare.pos, kind := kind, value := value } =
    { second.bare with stop := second.bare.pos, kind := kind, value := value }
  rw [alike.bare]

theorem mirrors_finishMark (kind : Kind) (length : Nat) :
    Mirrors setting Alike Alike (finishMark kind length) :=
  .bind (Alike.parallel.advance _) fun _ => mirrors_finishToken noMarkup _ _

theorem mirrors_finishOperator (kind : Kind) (length : Nat) :
    Mirrors setting Alike Alike (finishOperator kind length) := by
  unfold finishOperator
  refine .get ?_ fun state => ?_
  · intro first second alike
    rw [alike.pos]
  refine .bind (mirrors_slice _ _) fun text => .bind (Alike.parallel.moveTo _) fun _ => ?_
  exact mirrors_finishToken noMarkup _ _

end Nesting

section Words

variable {setting : Setting}

/-- Two states read a word alike: besides, both or neither of them have met an escape in it. -/
structure Spelt (first second : State) : Prop extends Alike first second where
  escapes : first.containsEsc = second.containsEsc

theorem Spelt.parallel : Parallel Spelt where
  pos spelt := spelt.pos
  start spelt := spelt.start
  strict spelt := spelt.strict
  moved spelt here there pos same :=
    ⟨Alike.parallel.moved spelt.toAlike here there pos same, spelt.escapes⟩
  noted spelt here there same :=
    ⟨Alike.parallel.noted spelt.toAlike here there same, spelt.escapes⟩

theorem mirrors_noteEscape (escapes : Bool) :
    Mirrors setting Alike Spelt (modify fun state => { state with containsEsc := escapes }) :=
  .modify fun _ _ alike => ⟨⟨alike.strict, alike.bare⟩, rfl⟩

theorem mirrors_readWordEscape (first : Bool) :
    Mirrors setting Spelt Spelt (readWordEscape first) := by
  unfold readWordEscape
  refine .bind ((mirrors_noteEscape true).strengthen fun _ _ => Spelt.toAlike) fun _ => ?_
  refine .get ?_ fun state => ?_
  · intro first second spelt
    rw [spelt.pos]
  refine .bind (Spelt.parallel.advance _) fun _ => ?_
  refine .bind (Spelt.parallel.peekIs _ _) fun marked => ?_
  refine .ite (fun _ => .stops fun _ => ⟨_, _, rfl⟩) fun _ => ?_
  refine .bind (Spelt.parallel.advance _) fun _ => .bind Spelt.parallel.readCodePoint fun code => ?_
  split
  · exact .ite (fun _ => .pure _) fun _ => mirrors_raise _ _
  · exact mirrors_raise _ _

theorem mirrors_gatherWord (count : Nat) (first : Bool) (chunk : Nat) (gathered : List Char) :
    Mirrors setting Spelt Spelt (gatherWord count first chunk gathered) := by
  have finished : ∀ chunk gathered, Mirrors setting Spelt Spelt (do
      return (← sliceFrom chunk).reverse ++ gathered) := fun chunk gathered =>
    .bind (Spelt.parallel.sliceFrom _) fun _ => .pure _
  induction count generalizing first chunk gathered with
  | zero => exact finished _ _
  | succ count inductionHypothesis =>
      unfold gatherWord
      refine .bind (Spelt.parallel.peek _) fun found => ?_
      split
      · exact finished _ _
      refine .ite (fun _ => ?_) fun _ => .ite (fun _ => ?_) fun _ => finished _ _
      · exact .bind (Spelt.parallel.advance _) fun _ => inductionHypothesis _ _ _
      · refine .bind (Spelt.parallel.sliceFrom _) fun passed => ?_
        refine .bind (mirrors_readWordEscape _) fun escaped => ?_
        refine .get ?_ fun state => inductionHypothesis _ _ _
        intro first second spelt
        rw [spelt.pos]

theorem mirrors_readWordText : Mirrors setting Alike Spelt readWordText := by
  unfold readWordText
  refine .bind (mirrors_noteEscape false) fun _ => ?_
  refine .bind Spelt.parallel.remaining fun count => .get ?_ fun state => ?_
  · intro first second spelt
    rw [spelt.pos]
  · exact .bind (mirrors_gatherWord _ _ _ _) fun gathered => .pure _

end Words

section Quotes

variable {setting : Setting}

theorem mirrors_atSubstitution : Mirrors setting Alike Alike atSubstitution :=
  .bind (Alike.parallel.peekIs _ _) fun _ => .bind (Alike.parallel.peekIs _ _) fun _ => .pure _

theorem mirrors_passLineBreak (unified : Bool) :
    Mirrors setting Alike Alike (passLineBreak unified) := by
  unfold passLineBreak
  refine .get ?_ fun state => ?_
  · intro first second alike
    rw [alike.pos]
  refine .bind (Alike.parallel.peek _) fun one => .bind (Alike.parallel.peek _) fun other => ?_
  refine .bind (Alike.parallel.startLine _) fun _ => ?_
  exact .ite (fun _ => .pure _) fun _ => mirrors_slice _ _

theorem mirrors_gatherChunk (count chunk : Nat) (gathered : List Char) :
    Mirrors setting Alike Alike (gatherChunk count chunk gathered) := by
  induction count generalizing chunk gathered with
  | zero => exact .stops fun _ => ⟨_, _, rfl⟩
  | succ count inductionHypothesis =>
      have fromHere : ∀ gathered, Mirrors setting Alike Alike (do
          gatherChunk count (← get).pos gathered) := by
        intro gathered
        refine .get ?_ fun state => inductionHypothesis _ _
        intro first second alike
        rw [alike.pos]
      unfold gatherChunk
      refine .bind (Alike.parallel.peek _) fun found => ?_
      split
      · exact .stops fun _ => ⟨_, _, rfl⟩
      refine .bind mirrors_atSubstitution fun substitutes => .ite (fun _ => ?_) fun _ => ?_
      · exact .bind (Alike.parallel.sliceFrom _) fun _ => .pure _
      refine .ite (fun _ => ?_) fun _ => .ite (fun _ => ?_) fun _ => ?_
      · exact .bind (Alike.parallel.sliceFrom _) fun _ =>
          .bind (Alike.parallel.readEscape _) fun _ => fromHere _
      · exact .bind (Alike.parallel.sliceFrom _) fun _ =>
          .bind (mirrors_passLineBreak _) fun _ => fromHere _
      · exact .bind (Alike.parallel.advance _) fun _ => inductionHypothesis _ _

variable (noMarkup : setting.jsx = false)
include noMarkup

theorem mirrors_readTemplate : Mirrors setting Alike Alike readTemplate := by
  unfold readTemplate
  refine .get ?_ fun state => .bind mirrors_atSubstitution fun substitutes => ?_
  · intro first second alike
    rw [alike.kind]
  refine .ite (fun _ => mirrors_finishMark noMarkup _ _) fun _ => ?_
  refine .bind (Alike.parallel.peekIs _ _) fun closes => ?_
  refine .ite (fun _ => mirrors_finishMark noMarkup _ _) fun _ => ?_
  refine .bind Alike.parallel.remaining fun count => .get ?_ fun state => ?_
  · intro first second alike
    rw [alike.pos]
  · exact .bind (mirrors_gatherChunk _ _ _) fun gathered => mirrors_finishToken noMarkup _ _

theorem mirrors_readRegExp : Mirrors setting Alike Alike readRegExp := by
  unfold readRegExp
  refine .get ?_ fun state => .bind mirrors_source fun source => ?_
  · intro first second alike
    rw [alike.pos]
  refine .bind Alike.parallel.remaining fun count => .bind (Alike.parallel.moveTo _) fun _ =>
    .ite (fun _ => ?_) fun _ => mirrors_raise _ _
  refine .bind (mirrors_slice _ _) fun pattern => .bind (Alike.parallel.advance _) fun _ => ?_
  refine .bind mirrors_readWordText fun flags => .ite (fun _ => ?_) fun _ => mirrors_raise _ _
  exact (mirrors_finishToken noMarkup _ _).strengthen fun _ _ => Spelt.toAlike

end Quotes

section Space

variable {setting : Setting}

theorem State.bare_recordComment (comment : Comment) (state : State) :
    (state.recordComment comment).bare =
      { state.bare.recordComment comment.bare with leading := [], trailing := [] } := by
  rw [State.recordComment, State.recordComment,
    show state.bare.recording = state.recording from rfl]
  split <;> rfl

theorem State.strict_recordComment (comment : Comment) (state : State) :
    (state.recordComment comment).strict = state.strict := by
  unfold State.recordComment
  split <;> rfl

/-- A comment ends alike wherever its lines start. -/
theorem follows_finishComment (isBlock : Bool) (value : List Char) (start : Nat)
    (one other : Position) {first second : State} (alike : Alike first second) :
    Follows (finishComment isBlock value start one) (finishComment isBlock value start other)
      setting first second fun value last same final => value = same ∧ Alike last final := by
  refine follows_position fun here there => ⟨rfl, ?_, ?_⟩
  · rw [State.strict_recordComment, State.strict_recordComment]
    exact alike.strict
  · rw [State.bare_recordComment, State.bare_recordComment, alike.bare, alike.pos]
    rfl

theorem mirrors_startsLine (count lineStart : Nat) :
    Mirrors setting Alike Alike (modify fun state : State =>
      { state with line := state.line + count, lineStart := lineStart }) :=
  .modify fun _ _ alike => ⟨alike.strict, alike.bare⟩

theorem mirrors_passBlockComment : Mirrors setting Alike Alike passBlockComment := by
  intro first second alike
  refine follows_position fun one other => .get ?_
  rw [alike.pos]
  generalize second.pos = start
  refine mirrors_source.andThen (fun source first second alike => ?_) _ _ alike
  refine .ite (fun _ => .failed rfl) fun _ => ?_
  split
  · exact .failed rfl
  · next stop found =>
      have rest : ∀ first second, Alike first second → Follows
          (do finishComment true (← slice (start + 2) stop) start one)
          (do finishComment true (← slice (start + 2) stop) start other) setting first second
          fun value last same final => value = same ∧ Alike last final :=
        (mirrors_slice _ _).andThen fun text first second alike =>
          follows_finishComment _ _ _ _ _ alike
      refine (Alike.parallel.moveTo _).andThen (fun _ first second alike => ?_) _ _ alike
      refine (mirrors_slice _ _).andThen (fun text first second alike => ?_) _ _ alike
      refine .ite (fun _ => (mirrors_startsLine _ _).andThen (fun _ => rest) _ _ alike) fun _ => ?_
      exact rest _ _ alike

theorem mirrors_passLineComment (opening : Nat) :
    Mirrors setting Alike Alike (passLineComment opening) := by
  intro first second alike
  refine follows_position fun one other => .get ?_
  rw [alike.pos]
  generalize second.pos = start
  refine mirrors_source.andThen (fun source first second alike => ?_) _ _ alike
  refine (Alike.parallel.moveTo _).andThen (fun _ first second alike => ?_) _ _ alike
  refine (mirrors_slice _ _).andThen (fun text first second alike => ?_) _ _ alike
  exact follows_finishComment _ _ _ _ _ alike

theorem mirrors_passBlanks (count : Nat) : Mirrors setting Alike Alike (passBlanks count) := by
  induction count with
  | zero => exact .pure _
  | succ count inductionHypothesis =>
      unfold passBlanks
      refine .bind (Alike.parallel.peek _) fun found => ?_
      split
      · exact .pure _
      refine .ite (fun _ => .bind (mirrors_passLineBreak _) fun _ => inductionHypothesis)
        fun _ => ?_
      refine .ite (fun _ => .bind (Alike.parallel.advance _) fun _ => inductionHypothesis)
        fun _ => ?_
      refine .ite (fun _ => ?_) fun _ => .pure _
      refine .bind (Alike.parallel.peek _) fun after => ?_
      split
      · exact .bind mirrors_passBlockComment fun _ => inductionHypothesis
      · exact .bind (mirrors_passLineComment _) fun _ => inductionHypothesis
      · exact .pure _

theorem mirrors_skipSpace : Mirrors setting Alike Alike skipSpace :=
  .bind Alike.parallel.remaining fun _ => mirrors_passBlanks _

theorem mirrors_beginToken : Mirrors setting Alike Alike beginToken := by
  intro first second alike
  refine follows_position fun one other => ⟨rfl, alike.strict, ?_⟩
  show { first.bare with start := first.bare.pos } = { second.bare with start := second.bare.pos }
  rw [alike.bare]

/-- Two states are alike after their tokens have been recorded if they are before. -/
theorem Alike.passed {first second : State} (alike : Alike first second) :
    Alike first.passed second.passed := by
  have commutes : ∀ state : State, state.passed.bare = state.bare.passed := by
    intro state
    unfold State.passed State.recordToken
    rw [show state.bare.recording = state.recording from rfl]
    split <;> rfl
  refine ⟨?_, by rw [commutes, commutes, alike.bare]⟩
  rw [State.passed_strict, State.passed_strict]
  exact alike.strict

end Space

section Tokens

variable {setting : Setting} (noMarkup : setting.jsx = false)
include noMarkup

theorem mirrors_readSlash : Mirrors setting Alike Alike readSlash := by
  unfold readSlash
  refine .get ?_ fun state => .ite (fun _ => ?_) fun _ => ?_
  · intro first second alike
    rw [alike.exprAllowed]
  · exact .bind (Alike.parallel.advance _) fun _ => mirrors_readRegExp noMarkup
  · exact .bind (Alike.parallel.peekIs _ _) fun _ =>
      .ite (fun _ => mirrors_finishOperator noMarkup _ _) fun _ => mirrors_finishOperator noMarkup _ _

theorem mirrors_readStarModulo (character : Char) :
    Mirrors setting Alike Alike (readStarModulo character) := by
  unfold readStarModulo
  have operator (kind : Kind) (length : Nat) := mirrors_finishOperator noMarkup kind length
  refine .bind (Alike.parallel.peekIs _ _) fun twice => .ite (fun _ => ?_) fun _ => ?_
  · exact .bind (Alike.parallel.peekIs _ _) fun _ =>
      .ite (fun _ => operator _ _) fun _ => operator _ _
  · exact .bind (Alike.parallel.peekIs _ _) fun _ =>
      .ite (fun _ => operator _ _) fun _ => operator _ _

theorem mirrors_readBarAmpersand (character : Char) (twice once : Kind) :
    Mirrors setting Alike Alike (readBarAmpersand character twice once) := by
  unfold readBarAmpersand
  refine .bind (Alike.parallel.peekIs _ _) fun two =>
    .ite (fun _ => mirrors_finishOperator noMarkup _ _) fun _ => ?_
  exact .bind (Alike.parallel.peekIs _ _) fun _ =>
    .ite (fun _ => mirrors_finishOperator noMarkup _ _) fun _ => mirrors_finishOperator noMarkup _ _

theorem mirrors_readCaret : Mirrors setting Alike Alike readCaret :=
  .bind (Alike.parallel.peekIs _ _) fun _ =>
    .ite (fun _ => mirrors_finishOperator noMarkup _ _) fun _ => mirrors_finishOperator noMarkup _ _

theorem mirrors_readEqualsBang (character : Char) :
    Mirrors setting Alike Alike (readEqualsBang character) := by
  unfold readEqualsBang
  refine .bind (Alike.parallel.peekIs _ _) fun one => .ite (fun _ => ?_) fun _ => ?_
  · exact .bind (Alike.parallel.peekIs _ _) fun _ => mirrors_finishOperator noMarkup _ _
  · exact .bind (Alike.parallel.peekIs _ _) fun _ =>
      .ite (fun _ => mirrors_finishMark noMarkup _ _) fun _ => mirrors_finishOperator noMarkup _ _

theorem mirrors_readColon : Mirrors setting Alike Alike readColon :=
  .bind (Alike.parallel.peekIs _ _) fun _ =>
    .ite (fun _ => mirrors_finishOperator noMarkup _ _) fun _ => mirrors_finishMark noMarkup _ _

end Tokens

section Types

variable {setting : Setting} {before after : State → State → Prop} {resume : Scan Unit}

/-- Types may be written, and the current token is one that a type reads in a way of its own. -/
def TypeMarked (setting : Setting) (state : State) : Prop :=
  setting.flow = true ∧ state.token.isTypeMark = true

/-- Besides, where the second of two states is in a type, so is the first. -/
structure Typed (related : State → State → Prop) (first second : State) : Prop where
  related : related first second
  inType : second.inType = true → first.inType = true

/-- Outside of a type a step reads what it reads within it, unless that is the mark of a type. -/
def ReadsAlike (setting : Setting) (action : Scan Unit) : Prop :=
  MirrorsUnless (TypeMarked setting) setting (Typed Alike) (Typed Alike) action

/-- No step begins or ends a type. -/
theorem mirrors_typed {α : Type} {action : Scan α} (heedless : Heedless action)
    (mirrors : Mirrors setting before after action) :
    Mirrors setting (Typed before) (Typed after) action := by
  intro first second typed
  have one := heedless.grows setting first
  have other := heedless.grows setting second
  have follows := mirrors first second typed.related
  unfold Follows at follows ⊢
  cases ran : action setting first with
  | error failure last => trivial
  | ok value last =>
      rw [ran] at follows one
      cases same : action setting second with
      | error failure final =>
          rw [same] at follows
          exact follows
      | ok value' final =>
          rw [same] at follows other
          exact ⟨follows.1, follows.2, fun inType =>
            one.inType.trans (typed.inType (other.inType.symm.trans inType))⟩

/-- Most tokens are read alike within a type and outside of it. -/
theorem readsAlike {action : Scan Unit} (heedless : Heedless action)
    (mirrors : Mirrors setting Alike Alike action) : ReadsAlike setting action :=
  (mirrors_typed heedless mirrors).unless

theorem Typed.parallel : Parallel (Typed Alike) where
  pos typed := typed.related.pos
  start typed := typed.related.start
  strict typed := typed.related.strict
  moved typed here there pos same :=
    ⟨Alike.parallel.moved typed.related here there pos same, typed.inType⟩
  noted typed here there same :=
    ⟨Alike.parallel.noted typed.related here there same, typed.inType⟩

variable (noMarkup : setting.jsx = false)
include noMarkup

omit noMarkup in
/-- Two runs part over a word only where it is the word for no value, a name within a type. -/
theorem isKeyword_alike {word : String} {next : Bool → Scan Unit}
    (names : ∀ state, Gives (next false) setting state fun _ => Names .name (.text word))
    (goesOn : Mirrors setting (Typed Spelt) (Typed Alike) (next (Word.isKeyword word))) :
    MirrorsUnless (TypeMarked setting) setting (Typed Spelt) (Typed Alike)
      (isKeyword word >>= next) := by
  have parted : isKeyword word >>= next = (do
      let setting ← read
      let state ← get
      if (setting.flow && state.inType && word == "void") = true then next false
      else next (Word.isKeyword word)) := by
    funext setting state
    change EStateM.bind ((if (setting.flow && state.inType && word == "void") = true then
      pure false else pure (Word.isKeyword word) : Scan Bool) setting) _ state =
      (if (setting.flow && state.inType && word == "void") = true then next false
        else next (Word.isKeyword word)) setting state
    split <;> rfl
  rw [parted]
  refine .read (.parts ?_ ?_ goesOn.unless)
  · intro first second typed there
    simp only [Bool.and_eq_true] at there ⊢
    exact ⟨⟨there.1.1, typed.inType there.1.2⟩, there.2⟩
  · intro state holds
    simp only [Bool.and_eq_true, beq_iff_eq] at holds
    refine (names state).mono fun _ last named => ⟨holds.1.1, ?_⟩
    simp [Token.isTypeMark, State.token, named.1, named.2, Value.text?, holds.2]

theorem readWord_alike : ReadsAlike setting readWord := by
  refine .bind (mirrors_typed readWordText_heedless mirrors_readWordText) fun word =>
    isKeyword_alike (fun state => .last fun _ _ => finishToken_gives) (.get ?_ fun state => ?_)
  · intro first second typed
    rw [typed.related.escapes]
  · refine mirrors_typed (finishToken_heedless _ _) ?_
    exact (mirrors_finishToken noMarkup _ _).strengthen fun _ _ => Spelt.toAlike

omit noMarkup in
theorem passMarkupComment_alike (opening : Nat) (resumes : ReadsAlike setting resume) :
    ReadsAlike setting (passMarkupComment opening resume) :=
  .bind (mirrors_typed (passLineComment_heedless _) (mirrors_passLineComment _)) fun _ =>
    .bind (mirrors_typed skipSpace_heedless mirrors_skipSpace) fun _ => resumes

theorem readPlusMinus_alike (character : Char) (resumes : ReadsAlike setting resume) :
    ReadsAlike setting (readPlusMinus character resume) := by
  have operator (kind : Kind) (length : Nat) :=
    readsAlike (finishOperator_heedless kind length) (mirrors_finishOperator noMarkup kind length)
  unfold readPlusMinus
  refine .bind (Typed.parallel.peekIs _ _) fun twice => .ite (fun _ => ?_) fun _ => ?_
  · refine .get ?_ fun state => .bind (Typed.parallel.peekIs _ _) fun closes => ?_
    · intro first second typed
      rw [typed.related.lastStop, typed.related.pos]
    refine .bind (mirrors_breaksBetween _ _) fun fresh => ?_
    exact .ite (fun _ => passMarkupComment_alike _ resumes) fun _ => operator _ _
  · exact .bind (Typed.parallel.peekIs _ _) fun _ =>
      .ite (fun _ => operator _ _) fun _ => operator _ _

theorem readAngle_alike (character : Char) (resumes : ReadsAlike setting resume) :
    ReadsAlike setting (readAngle character resume) := by
  have peekIs := @Typed.parallel.peekIs setting
  have operator (kind : Kind) (length : Nat) :=
    readsAlike (finishOperator_heedless kind length) (mirrors_finishOperator noMarkup kind length)
  unfold readAngle
  refine .bind (peekIs _ _) fun twice => .ite (fun _ => ?_) fun _ => ?_
  · refine .bind (peekIs _ _) fun thrice => .bind (peekIs _ _) fun assigns => ?_
    exact .ite (fun _ => operator _ _) fun _ => operator _ _
  · refine .bind (peekIs _ _) fun bang => .bind (peekIs _ _) fun dash => .bind (peekIs _ _)
      fun other => .ite (fun _ => ?_) fun _ => .bind (peekIs _ _) fun equals => ?_
    · refine .read (.ite (fun _ => Mirrors.unless (.stops fun _ => ⟨_, _, rfl⟩)) fun _ => ?_)
      exact passMarkupComment_alike _ resumes
    · exact .ite (fun _ => .bind (peekIs _ _) fun _ => operator _ _) fun _ => operator _ _

theorem readMark_alike (character : Char) (resumes : ReadsAlike setting resume) :
    ReadsAlike setting (readMark character resume) := by
  have token (kind : Kind) (value : Value) := mirrors_finishToken noMarkup kind value
  have mark (kind : Kind) (length : Nat) :=
    readsAlike (finishMark_heedless kind length) (mirrors_finishMark noMarkup kind length)
  have string (quote : Char) :=
    readsAlike (readString_heedless quote) (Alike.parallel.readString quote (token _))
  have usual {kind : Kind} (_ : kind.isUsual = true) := token kind
  unfold readMark
  split
  case h_1 => exact readsAlike readDot_heedless (Alike.parallel.readDot usual)
  case h_10 => exact readsAlike readColon_heedless (mirrors_readColon noMarkup)
  case h_14 => exact readsAlike readZero_heedless (Alike.parallel.readZero usual)
  case h_15 => exact string _
  case h_16 => exact string _
  case h_17 => exact readsAlike readSlash_heedless (mirrors_readSlash noMarkup)
  case h_18 => exact readsAlike (readStarModulo_heedless _) (mirrors_readStarModulo noMarkup _)
  case h_19 => exact readsAlike (readStarModulo_heedless _) (mirrors_readStarModulo noMarkup _)
  case h_20 =>
    exact readsAlike (readBarAmpersand_heedless _ _ _) (mirrors_readBarAmpersand noMarkup _ _ _)
  case h_21 =>
    exact readsAlike (readBarAmpersand_heedless _ _ _) (mirrors_readBarAmpersand noMarkup _ _ _)
  case h_22 => exact readsAlike readCaret_heedless (mirrors_readCaret noMarkup)
  case h_23 => exact readPlusMinus_alike noMarkup _ resumes
  case h_24 => exact readPlusMinus_alike noMarkup _ resumes
  case h_25 => exact readAngle_alike noMarkup _ resumes
  case h_26 => exact readAngle_alike noMarkup _ resumes
  case h_27 => exact readsAlike (readEqualsBang_heedless _) (mirrors_readEqualsBang noMarkup _)
  case h_28 => exact readsAlike (readEqualsBang_heedless _) (mirrors_readEqualsBang noMarkup _)
  case h_29 =>
    exact readsAlike (finishOperator_heedless _ _) (mirrors_finishOperator noMarkup _ _)
  case h_30 =>
    refine .ite (fun _ => ?_) fun _ => Mirrors.unless (.stops fun _ => ⟨_, _, rfl⟩)
    exact readsAlike (readNumber_heedless _) (Alike.parallel.readNumber _ (token _))
  all_goals exact mark _ _

/-- An angle bracket stands for itself within a type. -/
theorem readToken_alike (character : Char) (resumes : ReadsAlike setting resume) :
    ReadsAlike setting (readToken character resume) := by
  unfold readToken
  refine .read (.parts ?_ ?_ (.ite (fun markup => ?_) fun _ => ?_))
  · intro first second typed there
    simp only [Bool.and_eq_true] at there ⊢
    exact ⟨⟨there.1.1, typed.inType there.1.2⟩, there.2⟩
  · intro state holds
    simp only [Bool.and_eq_true] at holds
    refine .last fun _ _ => .last fun _ _ => .last fun _ _ => finishToken_gives.mono ?_
    exact fun _ last names => ⟨holds.1.1, by simp [Token.isTypeMark, State.token, names.1]⟩
  · exact absurd markup (by simp [noMarkup])
  · exact .ite (fun _ => readWord_alike noMarkup) fun _ => readMark_alike noMarkup _ resumes

theorem fetchToken_alike (context : Context) (resumes : ReadsAlike setting resume) :
    ReadsAlike setting (fetchToken context resume) := by
  refine .bind (mirrors_typed beginToken_heedless mirrors_beginToken) fun _ =>
    .bind (Typed.parallel.peek _) fun found => ?_
  split
  · exact readsAlike (finishToken_heedless _ _) (mirrors_finishToken noMarkup _ _)
  · refine .ite (fun _ => ?_) fun _ => readToken_alike noMarkup _ resumes
    exact readsAlike readTemplate_heedless (mirrors_readTemplate noMarkup)

theorem nextTokenWithin_alike (count : Nat) : ReadsAlike setting (nextTokenWithin count) := by
  induction count with
  | zero => exact readsAlike (finishToken_heedless _ _) (mirrors_finishToken noMarkup _ _)
  | succ count inductionHypothesis =>
      unfold nextTokenWithin
      refine .get ?_ fun state => .ite (fun _ => ?_) fun _ => ?_
      · intro first second typed
        rw [typed.related.context]
      · exact .bind (mirrors_typed skipSpace_heedless mirrors_skipSpace) fun _ =>
          fetchToken_alike noMarkup _ inductionHypothesis
      · exact fetchToken_alike noMarkup _ inductionHypothesis

theorem nextToken_alike : ReadsAlike setting nextToken :=
  .bind Typed.parallel.remaining fun _ => nextTokenWithin_alike noMarkup _

/-- From states that read alike the same token is read next, in a type or not, unless it is the
mark of a type. -/
theorem next_alike : ReadsAlike setting next := by
  have passes (first second : State) (typed : Typed Alike first second) :
      Typed Alike first.passed second.passed := by
    refine ⟨typed.related.passed, ?_⟩
    rw [State.passed_inType, State.passed_inType]
    exact typed.inType
  exact .bind (.modify passes) fun _ => nextToken_alike noMarkup

end Types

end Lexer

end EcmaSyntax
