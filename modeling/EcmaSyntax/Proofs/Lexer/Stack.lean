import EcmaSyntax.Proofs.Lexer.Rewind
import EcmaSyntax.Proofs.Lexer.Spelling

namespace EcmaSyntax

/-- A construct of markup. -/
def Context.isMarkup : Context → Bool
  | .jsxOpenTag => true
  | .jsxCloseTag => true
  | .jsxExpression => true
  | _ => false

/-- The kinds of the marks around a tag, with which constructs of markup open and close. -/
def Kind.isTagMark (kind : Kind) : Bool := kind == .jsxTagStart || kind == .jsxTagEnd

namespace Lexer

/-- Open constructs, the innermost first, of which the outermost is a block. A function that is an
expression stands directly in a block, and there is no markup. -/
structure Stacked (contexts : List Context) : Prop where
  bottom : contexts.getLast? = some .braceStatement
  functions : ∀ outer, .functionExpression :: outer <:+ contexts →
    outer.head? = some .braceStatement
  plain : ∀ context ∈ contexts, context.isMarkup = false

namespace Stacked

variable {context : Context} {outer contexts : List Context}

/-- The construct that is open at the start makes a stack. -/
theorem initial : Stacked [.braceStatement] where
  bottom := rfl
  functions outer inside := by
    rcases List.suffix_cons_iff.mp inside with same | none
    · cases same
    · exact absurd (List.suffix_nil.mp none) (List.cons_ne_nil _ _)
  plain context inside := List.mem_singleton.mp inside ▸ rfl

/-- A stack is never empty. -/
theorem ne_nil (stacked : Stacked contexts) : contexts ≠ [] := by
  rintro rfl
  exact nomatch stacked.bottom

/-- What opens is no function, or it stands in a block. -/
theorem cons (stacked : Stacked contexts) (plain : context.isMarkup = false)
    (within : context = .functionExpression → contexts.head? = some .braceStatement) :
    Stacked (context :: contexts) where
  bottom := by rw [List.getLast?_cons, stacked.bottom, Option.getD_some]
  functions outer inside := by
    rcases List.suffix_cons_iff.mp inside with same | inside
    · cases same
      exact within rfl
    · exact stacked.functions outer inside
  plain := List.forall_mem_cons.mpr ⟨plain, stacked.plain⟩

/-- What closes is not the outermost construct. -/
theorem tail (stacked : Stacked (context :: outer)) (more : outer ≠ []) : Stacked outer where
  bottom := by rw [← stacked.bottom, List.getLast?_cons_of_ne_nil more]
  functions inner inside := stacked.functions inner (inside.trans (List.suffix_cons _ _))
  plain := (List.forall_mem_cons.mp stacked.plain).2

/-- A function never is the outermost construct. -/
theorem tail_function (stacked : Stacked (.functionExpression :: outer)) : Stacked outer := by
  have around := stacked.functions outer (List.suffix_refl _)
  refine stacked.tail ?_
  rintro rfl
  cases around

end Stacked

/-- Without markup, the open constructs stay stacked, whether the step succeeds or fails. -/
class Upholds {α : Type} (action : Scan α) : Prop where
  upholds : ∀ (setting : Setting) (state : State), setting.jsx = false → Stacked state.contexts →
    Stacked (lastState (action setting state)).contexts

section Combined

variable {α β : Type} {action other : Scan α} {next : α → Scan β}

instance [begins : Upholds action] [goesOn : ∀ value, Upholds (next value)] :
    Upholds (action >>= next) where
  upholds setting state plain stacked := by
    have middle := begins.upholds setting state plain stacked
    change Stacked
      (lastState (EStateM.bind (action setting) (fun value => next value setting) state)).contexts
    unfold EStateM.bind
    cases ends : action setting state with
    | ok value after =>
        rw [ends] at middle
        exact (goesOn value).upholds setting after plain middle
    | error failure after =>
        rw [ends] at middle
        exact middle

/-- Two steps uphold the stack if each of them does. -/
theorem Upholds.step [Upholds action] (goesOn : ∀ value, Upholds (next value)) :
    Upholds (action >>= next) := inferInstance

instance {value : α} : Upholds (pure value : Scan α) := ⟨fun _ _ _ stacked => stacked⟩

instance {failure : Failure} : Upholds (throw failure : Scan α) := ⟨fun _ _ _ stacked => stacked⟩

instance : Upholds (get : Scan State) := ⟨fun _ _ _ stacked => stacked⟩

instance : Upholds (read : Scan Setting) := ⟨fun _ _ _ stacked => stacked⟩

theorem Upholds.ite {condition : Prop} [Decidable condition] (holds : Upholds action)
    (fails : Upholds other) : Upholds (if condition then action else other) := by
  split
  · exact holds
  · exact fails

instance {condition : Prop} [Decidable condition] [holds : Upholds action]
    [fails : Upholds other] : Upholds (if condition then action else other) := .ite holds fails

/-- A change after which the constructs are stacked. -/
theorem Upholds.modify {change : State → State}
    (keeps : ∀ state, Stacked state.contexts → Stacked (change state).contexts) :
    Upholds (modify change : Scan PUnit) := ⟨fun _ state _ stacked => keeps state stacked⟩

/-- What is taken from the state is stacked. -/
theorem Upholds.onState {next : State → Scan β}
    (goesOn : ∀ state, Stacked state.contexts → Upholds (next state)) :
    Upholds (MonadState.get >>= next) :=
  ⟨fun setting state plain stacked => (goesOn state stacked).upholds setting state plain stacked⟩

end Combined

section Steps

variable {α : Type}

instance : Upholds source := inferInstanceAs (Upholds (read >>= _))

instance (reason : Fault) : Upholds (fault reason : Scan α) := inferInstanceAs (Upholds (throw _))

instance (pos : Nat) (problem : Problem) : Upholds (raise pos problem : Scan α) :=
  inferInstanceAs (Upholds (source >>= _))

instance (pos : Option Nat) : Upholds (unexpected pos : Scan α) :=
  inferInstanceAs (Upholds (get >>= _))

instance (start stop : Nat) : Upholds (slice start stop) := by
  refine .step fun source => ?_
  split <;> infer_instance

instance (start : Nat) : Upholds (sliceFrom start) := inferInstanceAs (Upholds (get >>= _))

instance (start : Nat) : Upholds (checkRest start) := inferInstanceAs (Upholds (source >>= _))

instance (start stop : Nat) : Upholds (breaksBetween start stop) :=
  inferInstanceAs (Upholds (source >>= _))

instance : Upholds position := inferInstanceAs (Upholds (get >>= _))

instance (count : Nat) : Upholds (behind count) := inferInstanceAs (Upholds (get >>= _))

instance (count : Nat) : Upholds (advance count) := .modify fun _ stacked => stacked

instance (pos : Nat) : Upholds (moveTo pos) := .modify fun _ stacked => stacked

instance (pos : Nat) : Upholds (startLine pos) := .modify fun _ stacked => stacked

instance (ahead : Nat) : Upholds (peek ahead) := inferInstanceAs (Upholds (source >>= _))

instance (ahead : Nat) (character : Char) : Upholds (peekIs ahead character) :=
  inferInstanceAs (Upholds (peek ahead >>= _))

instance : Upholds remaining := inferInstanceAs (Upholds (source >>= _))

instance (unified : Bool) : Upholds (passLineBreak unified) := inferInstanceAs (Upholds (get >>= _))

end Steps

section Space

instance (isBlock : Bool) (value : List Char) (start : Nat) (startLoc : Position) :
    Upholds (finishComment isBlock value start startLoc) := by
  refine .step fun stopLoc => .modify fun state stacked => ?_
  unfold State.recordComment
  split <;> exact stacked

instance : Upholds passBlockComment := by
  have noted (lines : LineMap) (start : Nat) : Upholds (modify fun state : State =>
      { state with
        line := state.line + (lines.lineCount - 1)
        lineStart := start + lines.lastStart }) := .modify fun _ stacked => stacked
  refine .step fun startLoc => .step fun state => .step fun source => ?_
  refine .ite (.step fun _ => ?_) ?_
  all_goals split <;> infer_instance

instance (opening : Nat) : Upholds (passLineComment opening) :=
  inferInstanceAs (Upholds (position >>= _))

instance (count : Nat) : Upholds (passBlanks count) := by
  induction count with
  | zero => exact inferInstanceAs (Upholds (pure _))
  | succ count inductionHypothesis =>
      refine .step fun found => ?_
      split
      · infer_instance
      · refine .ite (.step fun _ => inductionHypothesis)
          (.ite (.step fun _ => inductionHypothesis) (.ite (.step fun second => ?_) inferInstance))
        split
        · exact .step fun _ => inductionHypothesis
        · exact .step fun _ => inductionHypothesis
        · infer_instance

instance : Upholds skipSpace := inferInstanceAs (Upholds (remaining >>= _))

instance : Upholds skipShebang := inferInstanceAs (Upholds (get >>= _))

end Space

section Escapes

instance (count : Nat) : Upholds (readHex count) := inferInstanceAs (Upholds (source >>= _))

instance : Upholds readCodePoint := by
  refine .step fun braces => .ite (.step fun _ => .step fun state => .step fun _ => ?_) inferInstance
  refine .step fun source => .ite (.step fun code => .step fun _ => ?_) inferInstance
  exact .ite (.step fun _ => inferInstance) inferInstance

instance (start : Nat) : Upholds (octalDigits start) := inferInstanceAs (Upholds (source >>= _))

instance (inTemplate : Bool) : Upholds (readOctal inTemplate) := by
  have noted (escape : Nat) : Upholds (modify fun state : State =>
      if state.containsOctal then state
      else { state with containsOctal := true, octalPosition := some escape }) :=
    .modify fun state stacked => by split <;> exact stacked
  exact inferInstanceAs (Upholds (behind 1 >>= _))

instance (inTemplate : Bool) : Upholds (readEscape inTemplate) := by
  refine .step fun _ => .step fun found => ?_
  split
  · infer_instance
  · refine .step fun _ => ?_
    split <;> infer_instance

instance (first : Bool) : Upholds (readWordEscape first) := by
  have ends (start : Nat) : Upholds (do
      advance 1
      let code ← readCodePoint
      match charOf? code with
      | some character =>
        if (if first then Identifier.isStart character else Identifier.isPart character) then
          return character
        else raise start .invalidUnicodeEscape
      | none => raise start .invalidUnicodeEscape : Scan Char) := by
    refine .step fun _ => .step fun code => ?_
    split <;> infer_instance
  have noted : Upholds (modify fun state : State => { state with containsEsc := true }) :=
    .modify fun _ stacked => stacked
  refine .step fun _ => .step fun state => .step fun _ => .step fun marked => ?_
  exact .ite (.step fun _ => .step fun _ => ends _) (ends _)

end Escapes

section Gathered

instance (quote : Char) (count chunk : Nat) (gathered : List Char) :
    Upholds (gatherString quote count chunk gathered) := by
  induction count generalizing chunk gathered with
  | zero => exact inferInstanceAs (Upholds (get >>= _))
  | succ count inductionHypothesis =>
      refine .step fun found => ?_
      split <;> infer_instance

instance : Upholds atSubstitution := inferInstanceAs (Upholds (peekIs _ _ >>= _))

instance (count chunk : Nat) (gathered : List Char) :
    Upholds (gatherChunk count chunk gathered) := by
  induction count generalizing chunk gathered with
  | zero => exact inferInstanceAs (Upholds (get >>= _))
  | succ count inductionHypothesis =>
      refine .step fun found => ?_
      split <;> infer_instance

instance (count : Nat) (first : Bool) (chunk : Nat) (gathered : List Char) :
    Upholds (gatherWord count first chunk gathered) := by
  induction count generalizing first chunk gathered with
  | zero => exact inferInstanceAs (Upholds (sliceFrom _ >>= _))
  | succ count inductionHypothesis =>
      refine .step fun found => ?_
      split <;> infer_instance

instance : Upholds readWordText := by
  have noted : Upholds (modify fun state : State => { state with containsEsc := false }) :=
    .modify fun _ stacked => stacked
  exact inferInstanceAs (Upholds (modify _ >>= _))

instance (word : String) : Upholds (isKeyword word) := inferInstanceAs (Upholds (read >>= _))

instance (radix : Nat) : Upholds (passDigits radix) := inferInstanceAs (Upholds (source >>= _))

instance : Upholds checkNumberEnds := inferInstanceAs (Upholds (peek _ >>= _))

instance : Upholds readFraction := inferInstanceAs (Upholds (peekIs _ _ >>= _))

instance (start : Nat) : Upholds (readExponent start) := by
  have ends (negative : Bool) : Upholds (do
      let digits ← passDigits 10
      if digits.isEmpty then raise start .invalidNumber
      return some (negative, digits)) :=
    .step fun _ => .ite (.step fun _ => inferInstance) inferInstance
  refine .step fun small => .step fun capital => .ite (.step fun _ => .step fun negative => ?_)
    inferInstance
  exact .step fun positive => .ite (.step fun _ => ends negative) (ends negative)

end Gathered

section Nesting

instance (allowed : Bool) : Upholds (allowExpr allowed) := .modify fun _ stacked => stacked

/-- Constructs other than functions and those of markup may be stacked at will. -/
theorem openContext_upholds {context : Context} {allowed : Bool} (plain : context.isMarkup = false)
    (other : context ≠ .functionExpression) : Upholds (openContext context allowed) :=
  .modify fun _ stacked => stacked.cons plain fun same => absurd same other

instance (previous : Kind) : Upholds (braceIsBlock previous) := by
  refine .step fun state => ?_
  dsimp only
  split
  · split <;> infer_instance
  all_goals infer_instance

/-- With a block also the function closes whose body it is, and this one stands in a block. -/
instance : Upholds closeContext := by
  refine .modify fun state stacked => ?_
  split
  · exact stacked
  · exact stacked
  · next outer same =>
      rw [same] at stacked
      exact (stacked.tail (List.cons_ne_nil _ _)).tail_function
  · next more same => exact (same ▸ stacked).tail more
  · next more _ _ same => exact (same ▸ stacked).tail more

variable {setting : Setting} {state : State} {previous kind : Kind} {value : Value}

/-- A token outside of markup leaves a stack. -/
theorem nestPlain_stacked (plain : setting.jsx = false) (mark : state.kind.isTagMark = false)
    (stacked : Stacked state.contexts) :
    Stacked (lastState (nestPlain previous setting state)).contexts := by
  have upheld {action : Scan Unit} (upholds : Upholds action) :
      Stacked (lastState (action setting state)).contexts :=
    upholds.upholds setting state plain stacked
  change Stacked (lastState ((if _ then _ else _ : Scan Unit) setting state)).contexts
  split
  · exact upheld inferInstance
  split
  · exact upheld inferInstance
  · exact upheld inferInstance
  · exact upheld inferInstance
  · refine upheld (.step fun block => openContext_upholds ?_ ?_) <;> cases block <;> decide
  · exact upheld (openContext_upholds rfl (by decide))
  · refine upheld (openContext_upholds ?_ ?_) <;> split <;> decide
  · exact upheld inferInstance
  · split
    · next block =>
        -- A function is kept only if it stands right within a block.
        refine stacked.cons rfl fun _ => ?_
        obtain ⟨first, outer, same⟩ := List.exists_cons_of_ne_nil stacked.ne_nil
        rw [beq_iff_eq, State.context, same, List.headD_cons] at block
        rw [same, List.head?_cons, block]
    · exact upheld inferInstance
  · split
    · next quote =>
        -- The construct that closes is a template, hence not the outermost one.
        obtain ⟨first, outer, same⟩ := List.exists_cons_of_ne_nil stacked.ne_nil
        rw [beq_iff_eq, State.context, same, List.headD_cons] at quote
        change Stacked (state.contexts.drop 1)
        rw [same, quote] at stacked
        rw [same, List.drop_one, List.tail_cons]
        refine stacked.tail ?_
        rintro rfl
        cases stacked.bottom
    · exact upheld (openContext_upholds rfl (by decide))
  · next same => cases same ▸ mark
  · next same => cases same ▸ mark
  · exact upheld inferInstance

/-- Without markup, every token but the marks of tags leaves the constructs stacked. -/
theorem finishToken_upholds (mark : kind.isTagMark = false) : Upholds (finishToken kind value) := by
  refine .step fun stopLoc => .step fun former => ⟨fun setting state plain stacked => ?_⟩
  change Stacked (lastState ((if setting.jsx then _ else nestPlain former.kind : Scan Unit) setting
    { state with stop := state.pos, stopLoc := stopLoc, kind := kind, value := value })).contexts
  rw [if_neg (by simp [plain])]
  exact nestPlain_stacked plain mark stacked

/-- A mark that is none of a tag upholds the stack. -/
theorem finishMark_upholds {length : Nat} (mark : kind.isTagMark = false) :
    Upholds (finishMark kind length) := .step fun _ => finishToken_upholds mark

/-- An operator that is no mark of a tag upholds the stack. -/
theorem finishOperator_upholds {length : Nat} (mark : kind.isTagMark = false) :
    Upholds (finishOperator kind length) :=
  .step fun _ => .step fun _ => .step fun _ => finishToken_upholds mark

end Nesting

section Literals

instance : Upholds readTemplate := by
  refine .step fun state => .step fun opens => .ite (finishMark_upholds rfl) ?_
  refine .step fun closes => .ite (finishMark_upholds rfl) ?_
  exact .step fun _ => .step fun _ => .step fun _ => finishToken_upholds rfl

instance : Upholds readRegExp := by
  refine .step fun state => .step fun source => .step fun count => .step fun _ =>
    .ite (.step fun _ => .step fun _ => .step fun flags => ?_) inferInstance
  exact .ite (finishToken_upholds rfl) inferInstance

instance (quote : Char) : Upholds (readString quote) :=
  .step fun _ => .step fun _ => .step fun _ => .step fun _ => .step fun _ => finishToken_upholds rfl

instance (radix : Nat) : Upholds (readRadixNumber radix) := by
  have ends (digits : List Char) : Upholds (do
      checkNumberEnds
      finishToken .num (.number (Digit.rounded radix digits))) :=
    .step fun _ => finishToken_upholds rfl
  exact .step fun _ => .step fun digits =>
    .ite (.step fun _ => .step fun _ => ends digits) (ends digits)

instance (start : Nat) (integer : List Char) : Upholds (numberRest start integer) := by
  refine .step fun fraction => .step fun exponent => .step fun _ => .step fun text => ?_
  exact .ite (finishToken_upholds rfl)
    (.step fun _ => .ite inferInstance (finishToken_upholds rfl))

instance (startsWithDot : Bool) : Upholds (readNumber startsWithDot) := by
  refine .step fun state => .ite (.step fun integer => ?_) (.step fun integer => ?_)
  all_goals exact .ite (.step fun _ => inferInstance) inferInstance

/-- No word spells the mark of a tag. -/
theorem isTagMark_of_word (word : String) :
    ((Kind.ofKeyword? word).getD .name).isTagMark = false := by
  cases known : Kind.ofKeyword? word with
  | none => rfl
  | some kind =>
      have spelled := Kind.keyword?_of_ofKeyword? known
      cases kind <;> first | rfl | cases spelled

instance : Upholds readWord := by
  refine .step fun word => .step fun keyword => .step fun state => finishToken_upholds ?_
  split
  · exact isTagMark_of_word word
  · rfl

end Literals

section Operators

variable {resume : Scan Unit} {character : Char}

instance : Upholds readDot := by
  refine .step fun _ => .ite inferInstance (.step fun _ => .step fun _ => ?_)
  exact .ite (finishMark_upholds rfl) (finishMark_upholds rfl)

instance : Upholds readSlash := by
  refine .step fun state => .ite (.step fun _ => inferInstance) (.step fun _ => ?_)
  exact .ite (finishOperator_upholds rfl) (finishOperator_upholds rfl)

instance : Upholds (readStarModulo character) := by
  refine .step fun _ => .ite (.step fun _ => ?_) (.step fun _ => ?_)
  · exact .ite (finishOperator_upholds rfl) (finishOperator_upholds rfl)
  · refine .ite (finishOperator_upholds rfl) (finishOperator_upholds ?_)
    split <;> rfl

theorem readBarAmpersand_upholds {twice once : Kind} (double : twice.isTagMark = false)
    (single : once.isTagMark = false) : Upholds (readBarAmpersand character twice once) :=
  .step fun _ => .ite (finishOperator_upholds double)
    (.step fun _ => .ite (finishOperator_upholds rfl) (finishOperator_upholds single))

instance : Upholds readCaret :=
  .step fun _ => .ite (finishOperator_upholds rfl) (finishOperator_upholds rfl)

instance [Upholds resume] (opening : Nat) : Upholds (passMarkupComment opening resume) :=
  .step fun _ => .step fun _ => inferInstance

instance [Upholds resume] : Upholds (readPlusMinus character resume) := by
  refine .step fun _ => .ite (.step fun state => .step fun _ => .step fun _ => ?_) ?_
  · exact .ite inferInstance (finishOperator_upholds rfl)
  · exact .step fun _ => .ite (finishOperator_upholds rfl) (finishOperator_upholds rfl)

instance [Upholds resume] : Upholds (readAngle character resume) := by
  refine .step fun _ => .ite (.step fun _ => .step fun _ => ?_) ?_
  · exact .ite (finishOperator_upholds rfl) (finishOperator_upholds rfl)
  · refine .step fun _ => .step fun _ => .step fun _ => .ite ?_ (.step fun _ => .ite ?_ ?_)
    · exact .step fun _ => .ite inferInstance inferInstance
    · exact .step fun _ => finishOperator_upholds rfl
    · exact finishOperator_upholds rfl

instance : Upholds (readEqualsBang character) := by
  refine .step fun _ => .ite (.step fun _ => finishOperator_upholds rfl) (.step fun _ => ?_)
  refine .ite (finishMark_upholds rfl) (finishOperator_upholds ?_)
  split <;> rfl

instance : Upholds readZero := by
  refine .step fun second => ?_
  split <;> infer_instance

instance : Upholds readColon :=
  .step fun _ => .ite (finishOperator_upholds rfl) (finishMark_upholds rfl)

instance [Upholds resume] : Upholds (readMark character resume) := by
  unfold readMark
  split
  case h_20 => exact readBarAmpersand_upholds rfl rfl
  case h_21 => exact readBarAmpersand_upholds rfl rfl
  case h_29 => exact finishOperator_upholds rfl
  all_goals first
    | infer_instance
    | exact finishMark_upholds rfl

instance [Upholds resume] : Upholds (readPlain character resume) := .ite inferInstance inferInstance

/-- Without markup, no token is read as a part of it. -/
instance [resumes : Upholds resume] : Upholds (readToken character resume) := by
  refine ⟨fun setting state plain stacked => ?_⟩
  have angle : Upholds (finishOperator .relational 1) := finishOperator_upholds rfl
  have token : Upholds (readPlain character resume) := inferInstance
  change Stacked (lastState ((if _ then finishOperator .relational 1
    else if setting.jsx then _ else readPlain character resume : Scan Unit) setting state)).contexts
  rw [if_neg (show ¬setting.jsx = true by simp [plain])]
  split
  · exact angle.upholds setting state plain stacked
  · exact token.upholds setting state plain stacked

end Operators

section Tokens

instance : Upholds beginToken := .step fun _ => .modify fun _ stacked => stacked

instance {resume : Scan Unit} [Upholds resume] (context : Context) :
    Upholds (fetchToken context resume) := by
  refine .step fun _ => .step fun found => ?_
  split
  · exact finishToken_upholds rfl
  · infer_instance

instance (count : Nat) : Upholds (nextTokenWithin count) := by
  induction count with
  | zero => exact finishToken_upholds rfl
  | succ count inductionHypothesis =>
      exact .step fun state => .ite (.step fun _ => inferInstance) inferInstance

instance : Upholds nextToken := inferInstanceAs (Upholds (remaining >>= _))

instance : Upholds next := by
  have passed : Upholds (modify fun state : State => state.recordToken.passToken) := by
    refine .modify fun state stacked => ?_
    unfold State.recordToken
    split <;> exact stacked
  exact inferInstanceAs (Upholds (modify _ >>= _))

instance (kind : Kind) : Upholds (atKind kind) := inferInstanceAs (Upholds (get >>= _))

instance (kind : Kind) : Upholds (eat kind) := inferInstanceAs (Upholds (atKind kind >>= _))

/-- The state takes back the constructs that were open before it looked ahead. -/
instance : Upholds lookahead where
  upholds setting state _ stacked := by
    unfold lookahead
    cases next setting { state with recording := false } <;> exact stacked

instance (count : Nat) : Upholds (returnToLine count) := by
  induction count with
  | zero => exact inferInstanceAs (Upholds (pure _))
  | succ count inductionHypothesis =>
      refine .onState fun state stacked => .ite (.step fun source => ?_) inferInstance
      have moved : Upholds (do
          set { state with
            lineStart := lastLineFeed source (state.lineStart - 1), line := state.line - 1 }
          returnToLine count) := ⟨fun setting _ plain _ =>
        inductionHypothesis.upholds setting _ plain stacked⟩
      refine .ite (.step fun _ => ?_) ?_
      all_goals exact .ite (.step fun _ => moved) moved

instance (strict : Bool) : Upholds (setStrict strict) := by
  have noted : Upholds (modify fun state : State => { state with strict := strict }) :=
    .modify fun _ stacked => stacked
  exact inferInstanceAs (Upholds (modify _ >>= _))

end Tokens

namespace Course

/-- In a course the constructs are stacked now, and they were at each of its checkpoints. -/
structure Upheld (course : Course) : Prop where
  state : Stacked course.state.contexts
  checkpoints : ∀ checkpoint ∈ course.checkpoints, Stacked checkpoint.state.contexts

variable {course : Course} {setting : Setting}

/-- A course stays upheld by a step that upholds the stack. -/
theorem Upheld.step {α : Type} {action : Scan α} [upholds : Upholds action] (upheld : course.Upheld)
    (plain : setting.jsx = false) :
    Upheld { course with state := lastState (action setting course.state) } :=
  ⟨upholds.upholds setting course.state plain upheld.state, upheld.checkpoints⟩

/-- Every operation upholds the stack, in the state and in the checkpoints. -/
theorem Upheld.perform (upheld : course.Upheld) (plain : setting.jsx = false)
    (operation : Operation) : (course.perform setting operation).Upheld := by
  cases operation with
  | next => exact upheld.step plain
  | nextToken => exact upheld.step plain
  | eat kind => exact upheld.step plain
  | skipSpace => exact upheld.step plain
  | lookahead => exact upheld.step plain
  | setStrict strict => exact upheld.step plain
  | checkpoint =>
      exact ⟨upheld.state, List.forall_mem_cons.mpr ⟨upheld.state, upheld.checkpoints⟩⟩
  | rewind index =>
      rw [Course.perform]
      cases found : course.checkpoints[index]? with
      | none => exact upheld
      | some earlier =>
          exact ⟨upheld.checkpoints earlier (List.mem_of_getElem? found), upheld.checkpoints⟩

/-- Every row of operations upholds the stack. -/
theorem Upheld.run (upheld : course.Upheld) (plain : setting.jsx = false)
    (operations : List Operation) :
    (operations.foldl (Course.perform setting) course).Upheld := by
  induction operations generalizing course with
  | nil => exact upheld
  | cons operation rest inductionHypothesis => exact inductionHypothesis (upheld.perform plain operation)

/-- Whatever is done with a text from its start on, and whether it succeeds or fails, the open
constructs stay stacked as long as no markup is read. -/
theorem contexts_stacked (setting : Setting) (plain : setting.jsx = false) (strict : Bool)
    (operations : List Operation) :
    Stacked (operations.foldl (Course.perform setting) ⟨.initial strict, []⟩).state.contexts :=
  (Upheld.run ⟨.initial, List.forall_mem_nil _⟩ plain operations).state

/-- A function is left by two marks that nothing has opened, and entered again. -/
theorem contexts_stacked_function :
    let setting : Setting := { source := .ofString "function()\x7b\x7d)\x7d" }
    let operations : List Operation := [.nextToken, .next, .checkpoint, .next, .next, .lookahead,
      .next, .next, .next, .setStrict true, .rewind 0]
    let last := operations.foldl (Course.perform setting) ⟨.initial false, []⟩
    setting.jsx = false ∧ Stacked last.state.contexts ∧
      last.state.contexts = [.parenExpression, .functionExpression, .braceStatement] := by
  intro setting operations last
  exact ⟨rfl, contexts_stacked setting rfl false operations, by decide +kernel⟩

end Course

end Lexer

end EcmaSyntax
