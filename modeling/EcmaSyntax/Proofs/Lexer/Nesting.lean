import EcmaSyntax.Lexer.Nesting
import EcmaSyntax.Proofs.Lexer.Passage

namespace EcmaSyntax

namespace Lexer

/-- The open constructs after a brace or parenthesis that closes one. -/
def closed : List Context → List Context
  | [] => []
  | [single] => [single]
  | .braceStatement :: .functionExpression :: outer => outer
  | _ :: outer => outer

/-- The open constructs after the end of a tag. -/
def tagClosed (previous : Kind) (contexts : List Context) : List Context :=
  let head := contexts.head?
  if (head == some .jsxOpenTag && previous == .slash) || head == some .jsxCloseTag then
    contexts.drop 2
  else contexts.drop 1

/-- The open constructs after a token of the plain language; a brace opens a block or not. -/
def nestedPlain (previous kind : Kind) (block : Bool) (contexts : List Context) : List Context :=
  if kind.isKeyword && previous == .dot then contexts
  else
    match kind with
    | .parenR => closed contexts
    | .braceR => closed contexts
    | .braceL => (if block then .braceStatement else .braceExpression) :: contexts
    | .dollarBraceL => .braceTemplate :: contexts
    | .parenL => (if block then .parenStatement else .parenExpression) :: contexts
    | .kwFunction =>
      if contexts.headD .braceStatement == .braceStatement then .functionExpression :: contexts
      else contexts
    | .backQuote =>
      if contexts.headD .braceStatement == .quoteTemplate then contexts.drop 1
      else .quoteTemplate :: contexts
    | .jsxTagStart => .jsxOpenTag :: .jsxExpression :: contexts
    | .jsxTagEnd => tagClosed previous contexts
    | _ => contexts

/-- The open constructs after a token where markup may stand. -/
def nestedMarkup (previous kind : Kind) (block : Bool) (contexts : List Context) : List Context :=
  if kind = .braceL then
    match contexts.headD .braceStatement with
    | .jsxOpenTag => .braceExpression :: contexts
    | .jsxExpression => .braceTemplate :: contexts
    | _ => nestedPlain previous kind block contexts
  else if kind = .slash ∧ previous = .jsxTagStart then .jsxCloseTag :: contexts.drop 2
  else nestedPlain previous kind block contexts

/-- The open constructs after a token. -/
def nested (markup : Bool) (previous kind : Kind) (block : Bool) (contexts : List Context) :
    List Context :=
  if markup then nestedMarkup previous kind block contexts
  else nestedPlain previous kind block contexts

/-- A token has begun: it starts at or before the cursor and not within the previous one. -/
structure Begun (source : Source) (state : State) : Prop where
  cursor : state.cursor.Sound source
  previous : source.isBoundary state.lastStop = true
  boundary : source.isBoundary state.start = true
  ordered : state.lastStop ≤ state.start
  within : state.start ≤ state.pos

namespace Begun

variable {source : Source} {state : State}

theorem here (begun : Begun source state) : source.isBoundary state.pos = true :=
  begun.cursor.boundary

/-- A token that has begun goes on as text is passed. -/
theorem moved (begun : Begun source state) {text : List Char} {hidden : Nat} {after : State}
    (moved : Moved source text hidden state after) : Begun source after := by
  have start := moved.start
  have lastStop : after.lastStop = state.lastStop := by
    show after.outline.lastStop = state.outline.lastStop
    rw [moved.outline]
  refine ⟨moved.sound begun.cursor, ?_, ?_, ?_, ?_⟩
  · rw [lastStop]
    exact begun.previous
  · rw [start]
    exact begun.boundary
  · rw [start, lastStop]
    exact begun.ordered
  · rw [start]
    exact Nat.le_trans begun.within moved.le

end Begun

/-- The state with other constructs open. -/
def State.within (state : State) (contexts : List Context) (allowed : Bool) : State :=
  { state with contexts := contexts, exprAllowed := allowed }

section Nest

variable {setting : Setting} {state : State}

@[simp] theorem meets_openContext {context : Context} {allowed : Bool}
    {post : Unit → State → Prop} :
    Meets (openContext context allowed) setting state post ↔
      post () (state.within (context :: state.contexts) allowed) := Iff.rfl

@[simp] theorem meets_allowExpr {allowed : Bool} {post : Unit → State → Prop} :
    Meets (allowExpr allowed) setting state post ↔
      post () (state.within state.contexts allowed) := Iff.rfl

/-- A closing bracket closes the innermost construct. -/
theorem closeContext_meets :
    Meets closeContext setting state fun _ after =>
      ∃ allowed, after = state.within (closed state.contexts) allowed := by
  rw [closeContext, meets_modify]
  split
  · next same => exact ⟨true, by simp only [State.within, closed, same]⟩
  · next same => exact ⟨true, by simp only [State.within, closed, same]⟩
  · next same => exact ⟨false, by simp only [State.within, closed, same]⟩
  · next same => exact ⟨true, by simp [State.within, closed, same]⟩
  · next head outer filled other _ same =>
      refine ⟨!head.isExpression, ?_⟩
      rw [same, closed]
      · rfl
      · exact filled
      · exact other

/-- The end of a tag closes what the tag has opened. -/
theorem closeTag_meets (previous : Kind) :
    Meets (closeTag previous) setting state fun _ after =>
      ∃ allowed, after = state.within (tagClosed previous state.contexts) allowed := by
  rw [closeTag, meets_modify]
  simp only [tagClosed]
  split
  · refine ⟨((state.contexts.drop 1).drop 1).headD .braceStatement == .jsxExpression, ?_⟩
    rw [List.drop_drop]
    rfl
  · exact ⟨true, rfl⟩

/-- Whether a brace opens a block is seen without moving on. -/
theorem braceIsBlock_meets (begun : Begun setting.source state) (previous : Kind) :
    Meets (braceIsBlock previous) setting state fun _ after => after = state := by
  rw [braceIsBlock, Meets.bind_iff, meets_get]
  split
  · split <;> rfl
  · rw [meets_breaksBetween]
    exact ⟨⟨begun.ordered, begun.previous, begun.boundary⟩, rfl⟩
  all_goals rfl

/-- A token outside of markup changes the open constructs as its kind says. -/
theorem nestPlain_meets (begun : Begun setting.source state)
    (ends : setting.source.isBoundary state.stop = true) (previous : Kind) :
    Meets (nestPlain previous) setting state fun _ after =>
      ∃ block allowed,
        after = state.within (nestedPlain previous state.kind block state.contexts) allowed := by
  rw [nestPlain, Meets.bind_iff, meets_get]
  unfold nestedPlain
  apply meets_ite
  · intro named
    rw [meets_allowExpr]
    exact ⟨true, false, by rw [if_pos named]⟩
  intro free
  simp only [if_neg free]
  split
  · next same =>
      simp only [same]
      exact closeContext_meets.mono fun _ _ closes => ⟨true, closes⟩
  · next same =>
      simp only [same]
      exact closeContext_meets.mono fun _ _ closes => ⟨true, closes⟩
  · next same =>
      simp only [same]
      apply meets_ite
      · intro _
        rw [Meets.bind_iff, meets_source, Meets.bind_iff, meets_breaksBetween]
        refine ⟨⟨Source.le_size_of_isBoundary ends, ends, setting.source.isBoundary_size⟩, ?_⟩
        exact ⟨true, _, rfl⟩
      · intro _
        exact ⟨true, _, rfl⟩
  · next same =>
      simp only [same]
      refine (braceIsBlock_meets begun previous).bind ?_
      rintro block after rfl
      exact ⟨block, _, rfl⟩
  · next same =>
      simp only [same]
      exact ⟨true, _, rfl⟩
  · next same =>
      simp only [same]
      rw [meets_openContext]
      exact ⟨_, _, rfl⟩
  · next same =>
      simp only [same]
      exact ⟨true, state.exprAllowed, rfl⟩
  · next same =>
      simp only [same]
      apply meets_ite
      · intro head
        rw [State.context] at head
        rw [if_pos head]
        exact ⟨true, _, rfl⟩
      · intro head
        rw [State.context] at head
        rw [if_neg head]
        exact ⟨true, _, rfl⟩
  · next same =>
      simp only [same]
      apply meets_ite
      · intro head
        rw [State.context] at head
        rw [if_pos head]
        exact ⟨true, _, rfl⟩
      · intro head
        rw [State.context] at head
        rw [if_neg head]
        exact ⟨true, _, rfl⟩
  · next same =>
      simp only [same]
      exact ⟨true, _, rfl⟩
  · next same =>
      simp only [same]
      exact (closeTag_meets previous).mono fun _ _ closes => ⟨true, closes⟩
  · -- No other token opens or closes a construct.
    rw [meets_allowExpr]
    refine ⟨true, state.kind.beforeExpr, ?_⟩
    split <;> first | contradiction | rfl

/-- A token changes the open constructs as its kind says. -/
theorem nest_meets (begun : Begun setting.source state)
    (ends : setting.source.isBoundary state.stop = true) (previous : Kind) :
    Meets (nest previous) setting state fun _ after =>
      ∃ block allowed, after =
        state.within (nested setting.jsx previous state.kind block state.contexts) allowed := by
  rw [nest, Meets.bind_iff, meets_read]
  apply meets_ite
  · intro markup
    simp only [nested, if_pos markup, nestedMarkup]
    rw [nestMarkup, Meets.bind_iff, meets_get]
    apply meets_ite
    · intro brace
      rw [beq_iff_eq] at brace
      simp only [if_pos brace, State.context]
      generalize state.contexts.headD .braceStatement = context
      cases context
      case jsxOpenTag => exact ⟨true, _, rfl⟩
      case jsxExpression => exact ⟨true, _, rfl⟩
      all_goals
        refine (nestPlain_meets begun ends previous).bind ?_
        rintro _ after ⟨block, allowed, rfl⟩
        exact ⟨block, true, rfl⟩
    · intro other
      rw [beq_iff_eq] at other
      simp only [if_neg other]
      apply meets_ite
      · intro closing
        rw [Bool.and_eq_true, beq_iff_eq, beq_iff_eq] at closing
        simp only [if_pos closing]
        exact ⟨true, _, rfl⟩
      · intro plain
        rw [Bool.and_eq_true, beq_iff_eq, beq_iff_eq] at plain
        simp only [if_neg plain]
        exact nestPlain_meets begun ends previous
  · intro plain
    simp only [nested, if_neg plain]
    exact nestPlain_meets begun ends previous

end Nest

/-- A token ends at the cursor. -/
def State.ended (state : State) (kind : Kind) (value : Value) (contexts : List Context)
    (allowed : Bool) : State :=
  { state with
    stop := state.pos
    stopLoc := state.position
    kind := kind
    value := value
    contexts := contexts
    exprAllowed := allowed }

/-- A token of a kind has been read, which a text spells. -/
def Ends (setting : Setting) (kind : Kind) (text : List Char) (hidden : Nat)
    (first last : State) : Prop :=
  ∃ middle value block allowed, Moved setting.source text hidden first middle ∧
    last = middle.ended kind value
      (nested setting.jsx first.kind kind block first.contexts) allowed

/-- A token that has been passed ends where the cursor stands. -/
theorem finishToken_meets {setting : Setting} {first state : State} {kind : Kind} {value : Value}
    {text : List Char} {hidden : Nat} (begun : Begun setting.source first)
    (moved : Moved setting.source text hidden first state) :
    Meets (finishToken kind value) setting state fun _ after =>
      Ends setting kind text hidden first after ∧ after.cursor = state.cursor ∧
        after.value = value := by
  have here := begun.moved moved
  simp only [finishToken, Meets.bind_iff, meets_position, meets_get, meets_modify]
  refine ⟨here.cursor.ordered, ?_⟩
  refine (nest_meets ?_ here.here state.kind).mono ?_
  · exact ⟨here.cursor, here.previous, here.boundary, here.ordered, here.within⟩
  · rintro _ after ⟨block, allowed, rfl⟩
    refine ⟨⟨state, value, block, allowed, moved, ?_⟩, rfl, rfl⟩
    have contexts : state.contexts = first.contexts := by
      show state.outline.contexts = first.outline.contexts
      rw [moved.outline]
    rw [← moved.kind, ← contexts]
    rfl

end Lexer

end EcmaSyntax
