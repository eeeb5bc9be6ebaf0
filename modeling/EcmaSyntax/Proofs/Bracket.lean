import EcmaSyntax.Proofs.Lexer.Stack
import EcmaSyntax.Proofs.Progress

namespace EcmaSyntax

/-- A bracket opens with a brace, with the mark of a substitution in a template, with a parenthesis
or with the quote of a template. -/
inductive Bracket where
  | brace
  | substitution
  | parenthesis
  | quote
deriving DecidableEq, Inhabited, Repr

/-- The bracket with which a construct opens. A function opens with none, and neither does
markup. -/
def Context.bracket? : Context → Option Bracket
  | .braceStatement => some .brace
  | .braceExpression => some .brace
  | .braceTemplate => some .substitution
  | .parenStatement => some .parenthesis
  | .parenExpression => some .parenthesis
  | .quoteTemplate => some .quote
  | .functionExpression => none
  | .jsxOpenTag => none
  | .jsxCloseTag => none
  | .jsxExpression => none

namespace Kind

/-- A token of such a kind closes the innermost bracket. -/
def isClosing (kind : Kind) : Bool := kind == .braceR || kind == .parenR

/-- The brackets that are open after a token, the innermost first. A quote closes the template in
which it stands, and opens one elsewhere. -/
def bracketsAfter (kind : Kind) (brackets : List Bracket) : List Bracket :=
  match kind with
  | .braceL => .brace :: brackets
  | .dollarBraceL => .substitution :: brackets
  | .parenL => .parenthesis :: brackets
  | .braceR => brackets.tail
  | .parenR => brackets.tail
  | .backQuote => if brackets.head? = some .quote then brackets.tail else .quote :: brackets
  | _ => brackets

end Kind

/-- The brackets that are open after some tokens. -/
def Bracket.openAfter (tokens : List Token) : List Bracket :=
  tokens.foldl (fun brackets token => token.kind.bracketsAfter brackets) []

theorem Bracket.openAfter_concat {tokens : List Token} {token : Token} :
    openAfter (tokens ++ [token]) = token.kind.bracketsAfter (openAfter tokens) := by
  rw [openAfter, List.foldl_append, List.foldl_cons, List.foldl_nil]
  rfl

/-- The kind of a token does not depend on the line that it stands on. -/
theorem Token.kind_eq_of_bare {token other : Token} (same : token.bare = other.bare) :
    token.kind = other.kind := (congrArg Token.kind same :)

/-- Which brackets are open does not depend on the lines that the tokens stand on. -/
theorem Bracket.openAfter_bare {tokens others : List Token}
    (same : tokens.map Token.bare = others.map Token.bare) : openAfter tokens = openAfter others := by
  have bared (tokens : List Token) : openAfter (tokens.map Token.bare) = openAfter tokens := by
    rw [openAfter, List.foldl_map]
    rfl
  rw [← bared tokens, same, bared]

namespace Lexer

/-- The open constructs are the open brackets, apart from functions, which have none, and from the
text as a whole, which is read like a block. -/
def Mirrored (contexts : List Context) (brackets : List Bracket) : Prop :=
  contexts.filterMap Context.bracket? = brackets ++ [.brace]

instance (contexts : List Context) (brackets : List Bracket) :
    Decidable (Mirrored contexts brackets) := inferInstanceAs (Decidable (_ = _))

section Nested

variable {contexts : List Context} {brackets : List Bracket} (stacked : Stacked contexts)
  (mirrored : Mirrored contexts brackets)

include stacked mirrored

/-- Innermost is the text as a whole, a function in a block, or what opens with the innermost
bracket. -/
theorem Mirrored.cases : (contexts = [.braceStatement] ∧ brackets = []) ∨
    (∃ outer, contexts = .functionExpression :: .braceStatement :: outer ∧
      Mirrored (.braceStatement :: outer) brackets) ∨
    ∃ context outer bracket around, contexts = context :: outer ∧ outer ≠ [] ∧
      context.bracket? = some bracket ∧ brackets = bracket :: around ∧ Mirrored outer around := by
  obtain ⟨context, outer, rfl⟩ := List.exists_cons_of_ne_nil stacked.ne_nil
  cases outer with
  | nil =>
      obtain rfl : context = .braceStatement := Option.some.inj stacked.bottom
      exact .inl ⟨rfl, by simpa [Mirrored, Context.bracket?] using mirrored⟩
  | cons next outer =>
      by_cases waits : context = .functionExpression
      · subst waits
        obtain rfl : next = .braceStatement :=
          Option.some.inj (stacked.functions _ (List.suffix_refl _))
        exact .inr (.inl ⟨outer, rfl, mirrored⟩)
      · have plain := stacked.plain context List.mem_cons_self
        obtain ⟨bracket, opens⟩ : ∃ bracket, context.bracket? = some bracket := by
          cases context <;> first | exact ⟨_, rfl⟩ | contradiction
        have bottom := (stacked.tail (List.cons_ne_nil next outer)).bottom
        have more : .brace ∈ (next :: outer).filterMap Context.bracket? :=
          List.mem_filterMap.mpr ⟨_, List.mem_of_getLast? bottom, rfl⟩
        rw [Mirrored, List.filterMap_cons_some opens] at mirrored
        cases brackets with
        | nil =>
            rw [(List.cons.inj mirrored).2] at more
            cases more
        | cons innermost around =>
            obtain ⟨rfl, others⟩ := List.cons.inj mirrored
            exact .inr (.inr ⟨_, _, bracket, around, rfl, by simp, opens, rfl, others⟩)

/-- What closes is the innermost bracket, unless it is a function, which has none. -/
theorem mirrored_closed_iff : Mirrored (closed contexts) brackets.tail ↔
    ¬(contexts.headD .braceStatement = .functionExpression ∧ brackets ≠ []) := by
  rcases mirrored.cases stacked with ⟨rfl, rfl⟩ | ⟨outer, rfl, others⟩ |
    ⟨context, outer, bracket, around, rfl, more, opens, rfl, others⟩
  · exact iff_of_true rfl (by simp)
  · rw [closed, Mirrored, show List.filterMap _ _ = _ from others]
    · cases brackets <;> simp
    all_goals simp
  · refine iff_of_true ?_ ?_
    · unfold closed
      split
      · next absent => cases absent
      · next alone => exact absurd (List.cons.inj alone).2 more
      · -- A function closes with its body, and has no bracket of its own.
        next same =>
          obtain ⟨-, rfl⟩ := List.cons.inj same
          exact others
      · next same =>
          obtain ⟨-, rfl⟩ := List.cons.inj same
          exact others
    · rintro ⟨rfl, -⟩
      cases opens

/-- A template is the innermost construct exactly if a quote is the innermost bracket. -/
theorem quoted_iff :
    contexts.headD .braceStatement = .quoteTemplate ↔ brackets.head? = some .quote := by
  rcases mirrored.cases stacked with ⟨rfl, rfl⟩ | ⟨outer, rfl, others⟩ |
    ⟨context, outer, bracket, around, rfl, more, opens, rfl, others⟩
  · simp
  · cases brackets with
    | nil => simp
    | cons innermost around =>
        obtain rfl : Bracket.brace = innermost := (List.cons.inj others).1
        simp
  · rw [List.headD_cons, List.head?_cons, Option.some.injEq]
    constructor
    · rintro rfl
      exact (Option.some.inj opens).symm
    · rintro rfl
      cases context <;> first | rfl | cases opens

/-- After a token that is no mark of a tag, the open constructs are the open brackets as before,
unless a function closes instead of a bracket. -/
theorem mirrored_nestedPlain_iff {previous kind : Kind} {block : Bool}
    (other : kind.isTagMark = false) :
    Mirrored (nestedPlain previous kind block contexts) (kind.bracketsAfter brackets) ↔
      ¬(kind.isClosing = true ∧ contexts.headD .braceStatement = .functionExpression ∧
        brackets ≠ []) := by
  have opened {context : Context} {bracket : Bracket} (opens : context.bracket? = some bracket) :
      Mirrored (context :: contexts) (bracket :: brackets) := by
    rw [Mirrored, List.filterMap_cons_some opens, show List.filterMap _ _ = _ from mirrored]
    rfl
  have kept (still : kind.bracketsAfter brackets = brackets) (free : kind.isClosing = false) :
      Mirrored contexts (kind.bracketsAfter brackets) ↔ ¬(kind.isClosing = true ∧
        contexts.headD .braceStatement = .functionExpression ∧ brackets ≠ []) :=
    iff_of_true (by rwa [still]) (by simp [free])
  unfold nestedPlain
  split
  · next named =>
      have keyword := (Bool.and_eq_true_iff.mp named).1
      exact kept (by cases kind <;> first | rfl | cases keyword)
        (by cases kind <;> first | rfl | cases keyword)
  split
  · simpa [Kind.bracketsAfter, Kind.isClosing] using mirrored_closed_iff stacked mirrored
  · simpa [Kind.bracketsAfter, Kind.isClosing] using mirrored_closed_iff stacked mirrored
  · exact iff_of_true (opened (by split <;> rfl)) (by simp [Kind.isClosing])
  · exact iff_of_true (opened rfl) (by simp [Kind.isClosing])
  · exact iff_of_true (opened (by split <;> rfl)) (by simp [Kind.isClosing])
  · split
    · exact iff_of_true mirrored (by simp [Kind.isClosing])
    · exact kept rfl rfl
  · have quoted := quoted_iff stacked mirrored
    rw [Kind.bracketsAfter]
    refine iff_of_true ?_ (by simp [Kind.isClosing])
    split
    · next inside =>
        have inside := beq_iff_eq.mp inside
        rw [if_pos (quoted.mp inside), List.drop_one]
        rcases mirrored.cases stacked with ⟨rfl, rfl⟩ | ⟨outer, rfl, others⟩ |
          ⟨context, outer, bracket, around, rfl, more, opens, rfl, others⟩
        · cases inside
        · cases inside
        · exact others
    · next outside =>
        rw [if_neg fun quote => outside (beq_iff_eq.mpr (quoted.mpr quote))]
        exact opened rfl
  · cases other
  · cases other
  · exact kept (by unfold Kind.bracketsAfter; split <;> first | rfl | contradiction)
      (by simp_all [Kind.isClosing])

end Nested

variable {setting : Setting} {strictly : Bool} {first last state : State}

/-- The constructs that are open after a token are the brackets that are open. -/
def State.Bracketed (state : State) : Prop :=
  Mirrored state.contexts (Bracket.openAfter state.tokens)

/-- A bracket that is open closes where the word for a function has been read, but not its body. -/
def State.Unfinished (first last : State) : Prop :=
  last.kind.isClosing = true ∧ first.context = .functionExpression ∧
    Bracket.openAfter first.tokens ≠ []

instance (first last : State) : Decidable (first.Unfinished last) :=
  inferInstanceAs (Decidable (_ ∧ _))

/-- Without markup no token is the mark of a tag. -/
theorem Fetches.isTagMark (plain : setting.jsx = false) (fetches : Fetches setting first last)
    (stacked : Stacked first.contexts) : last.kind.isTagMark = false := by
  rw [Kind.isTagMark, Bool.or_eq_false_iff, beq_eq_false_iff_ne, beq_eq_false_iff_ne]
  constructor
  · intro starts
    exact absurd (plain.symm.trans (fetches.tagStart starts)) (by decide)
  · intro ends
    have inTag := fetches.tagEnd ends
    obtain ⟨context, outer, same⟩ := List.exists_cons_of_ne_nil stacked.ne_nil
    have free := stacked.plain context (by simp [same])
    rw [State.context, same, List.headD_cons] at inTag
    rcases inTag with rfl | rfl <;> cases free

/-- After a token, the open constructs mirror the open brackets unless the token closes a function
expression to which the brackets give another meaning. -/
theorem Fetches.mirrored_iff {brackets : List Bracket} (plain : setting.jsx = false)
    (fetches : Fetches setting first last) (stacked : Stacked first.contexts)
    (mirrored : Mirrored first.contexts brackets) :
    Mirrored last.contexts (last.kind.bracketsAfter brackets) ↔
      ¬(last.kind.isClosing = true ∧ first.context = .functionExpression ∧ brackets ≠ []) := by
  obtain ⟨block, contexts⟩ := fetches.contexts
  rw [contexts, nested, if_neg (by simp [plain])]
  exact mirrored_nestedPlain_iff stacked mirrored (fetches.isTagMark plain stacked)

/-- A token keeps the constructs in step with the brackets exactly if it does not close a bracket
before the body of a function has been read. -/
theorem Passed.bracketed_iff (plain : setting.jsx = false) (reached : Reached setting strictly first)
    (stacked : Stacked first.contexts) (passed : Passed setting first last)
    (bracketed : first.Bracketed) : last.Bracketed ↔ ¬first.Unfinished last := by
  obtain ⟨tokens, -⟩ := next_tokens reached.tracked passed.2
  obtain ⟨advances, -⟩ := (next_meets reached.sound).of_ok passed.2
  have same := State.record_contexts first
  rw [State.Bracketed, tokens, Bracket.openAfter_concat, State.Unfinished, State.context, ← same]
  exact Fetches.mirrored_iff plain advances (same ▸ stacked) (same ▸ bracketed)

/-- Without markup the open constructs stay those of plain code. -/
theorem Passed.stacked (plain : setting.jsx = false) (passed : Passed setting first last)
    (stacked : Stacked first.contexts) : Stacked last.contexts := by
  have upholds : Upholds next := inferInstance
  have after := upholds.upholds setting first plain stacked
  rwa [passed.2] at after

/-- The token behind one that is no chunk of a template is a chunk exactly if a quote is the
innermost bracket, unless the text ends there. -/
theorem Passed.template_iff (reached : Reached setting strictly first)
    (stacked : Stacked first.contexts) (passed : Passed setting first last)
    (bracketed : first.Bracketed) (between : first.kind ≠ .template) (goesOn : last.kind ≠ .eof) :
    last.kind = .template ↔ (Bracket.openAfter first.tokens).head? = some .quote := by
  obtain ⟨advances, -⟩ := (next_meets reached.sound).of_ok passed.2
  rw [← quoted_iff stacked bracketed]
  constructor
  · intro chunk
    by_contra outside
    exact (advances.unquoted outside).1 chunk
  · exact fun inside => (advances.quoted inside between).resolve_left goesOn

/-- The constructs are in step with the brackets after the first token. -/
theorem begin_bracketed (plain : setting.jsx = false)
    (begins : (do skipShebang; nextToken : Scan Unit) setting (.initial strictly) =
      .ok () first) : first.Bracketed := by
  obtain ⟨⟨middle, skips, fetches⟩, -⟩ := (begin_meets setting strictly).of_ok begins
  have initial : middle.contexts = [.braceStatement] := skips.contexts
  have tokens := (begin_tokens strictly () first begins).1
  have mirrored : Mirrored middle.contexts [] := by
    rw [initial]
    rfl
  rw [State.Bracketed, tokens]
  exact (fetches.mirrored_iff plain (initial ▸ .initial) mirrored).mpr (by simp)

/-- In a chain of states the constructs are the brackets throughout unless one of them leaves a
function unfinished. -/
theorem bracketed_chain_iff (plain : setting.jsx = false) {states : List State}
    (chain : (first :: states).IsChain (Passed setting))
    (reached : ∀ state ∈ first :: states, Reached setting strictly state)
    (stacked : Stacked first.contexts) (bracketed : first.Bracketed) :
    (∀ state ∈ first :: states, state.Bracketed) ↔
      (first :: states).IsChain fun former latter => ¬former.Unfinished latter := by
  induction states generalizing first with
  | nil => simpa using bracketed
  | cons second rest inductionHypothesis =>
      obtain ⟨passed, chain⟩ := List.isChain_cons_cons.mp chain
      have step := passed.bracketed_iff plain (reached first (by simp)) stacked bracketed
      rw [List.forall_mem_cons, List.isChain_cons_cons, ← step, and_iff_right bracketed]
      by_cases kept : second.Bracketed
      · rw [and_iff_right kept]
        exact inductionHypothesis chain (List.forall_mem_cons.mp reached).2
          (passed.stacked plain stacked) kept
      · exact iff_of_false (fun all => kept (all second List.mem_cons_self)) fun both => kept both.1

/-- In a chain of states none of which leaves a function unfinished, a token behind one that is no
chunk of a template is a chunk exactly if a quote is the innermost bracket. -/
theorem template_chain_iff (plain : setting.jsx = false) {states : List State}
    (chain : (first :: states).IsChain (Passed setting))
    (finished : (first :: states).IsChain fun former latter => ¬former.Unfinished latter)
    (reached : ∀ state ∈ first :: states, Reached setting strictly state)
    (stacked : Stacked first.contexts) (bracketed : first.Bracketed)
    {before after : List Token} {mark token next : Token}
    (split : (first :: states).map State.token = before ++ mark :: token :: next :: after)
    (between : mark.kind ≠ .template) : token.kind = .template ↔
      (Bracket.openAfter (first.recorded ++ before ++ [mark])).head? = some .quote := by
  induction states generalizing first before with
  | nil => cases before <;> simp at split
  | cons second rest inductionHypothesis =>
      obtain ⟨passed, chain⟩ := List.isChain_cons_cons.mp chain
      obtain ⟨ends, finished⟩ := List.isChain_cons_cons.mp finished
      obtain ⟨begun, reached⟩ := List.forall_mem_cons.mp reached
      rw [List.map_cons] at split
      cases before with
      | nil =>
          obtain ⟨rfl, later⟩ := List.cons.inj split
          obtain ⟨rfl, others⟩ := List.cons.inj later
          obtain ⟨third, others, rfl, -⟩ := List.map_eq_cons_iff.mp others
          have goesOn : second.kind ≠ .eof := (List.isChain_cons_cons.mp chain).1.1
          rw [List.append_nil]
          exact passed.template_iff begun stacked bracketed between goesOn
      | cons earlier before =>
          obtain ⟨rfl, later⟩ := List.cons.inj split
          have recorded : second.recorded = first.recorded ++ [first.token] :=
            List.append_inj_left' (next_tokens begun.tracked passed.2).1 rfl
          have step := inductionHypothesis chain finished reached (passed.stacked plain stacked)
            ((passed.bracketed_iff plain begun stacked bracketed).mpr ends) later
          rw [recorded] at step
          simpa using step

/-- A scan that begins goes from state to state, and begins in step with the brackets. -/
structure Begins (setting : Setting) (strictly : Bool) (first : State) (rest : List State) :
    Prop where
  passed : (first :: rest).IsChain (Passed setting)
  reached : ∀ state ∈ first :: rest, Reached setting strictly state
  stacked : Stacked first.contexts
  bracketed : first.Bracketed
  alone : first.recorded = []

/-- Without markup, a scan reads nothing or begins in step with the brackets. -/
theorem scan_begins (plain : setting.jsx = false) (strictMode : Bool) :
    (scan setting strictMode).states = [] ∨ ∃ first rest,
      (scan setting strictMode).states = first :: rest ∧
        Begins setting (strictMode && setting.isModule) first rest := by
  rw [scan]
  split
  · next first begins =>
      obtain ⟨⟨rest, head⟩, reached, passed, -⟩ :=
        scanFrom_scans (2 * setting.source.size + 2) (.start begins)
      rw [head] at reached passed
      have upholds : Upholds (do skipShebang; nextToken) := inferInstance
      have stacked := upholds.upholds setting (.initial (strictMode && setting.isModule)) plain
        .initial
      rw [begins] at stacked
      exact .inr ⟨first, rest, head, passed, reached, stacked, begin_bracketed plain begins,
        List.append_left_eq_self.mp (begin_tokens _ _ _ begins).1⟩
  · exact .inl rfl

/-- In a scan without markup that leaves no function unfinished, a token behind one that is no chunk
of a template is a chunk exactly if a quote is the innermost bracket. -/
theorem scan_template_iff (plain : setting.jsx = false) {strictMode : Bool}
    (finished : (scan setting strictMode).states.IsChain fun former latter =>
      ¬former.Unfinished latter) {before after : List Token} {mark token next : Token}
    (split : (scan setting strictMode).tokens = before ++ mark :: token :: next :: after)
    (between : mark.kind ≠ .template) :
    token.kind = .template ↔ (Bracket.openAfter (before ++ [mark])).head? = some .quote := by
  rw [Reading.tokens] at split
  rcases scan_begins plain strictMode with nothing | ⟨first, rest, states, begins⟩
  · rw [nothing] at split
    simp at split
  · rw [states] at split finished
    have chunk := template_chain_iff plain begins.passed finished begins.reached begins.stacked
      begins.bracketed split between
    rwa [begins.alone] at chunk

/-- In a scan of a text without markup the constructs that are open after each token are the open
brackets, exactly if no bracket closes where a function has no body yet. -/
theorem scan_bracketed_iff (plain : setting.jsx = false) (strictMode : Bool) :
    (∀ state ∈ (scan setting strictMode).states, state.Bracketed) ↔
      (scan setting strictMode).states.IsChain fun former latter => ¬former.Unfinished latter := by
  rcases scan_begins plain strictMode with nothing | ⟨first, rest, states, begins⟩
  · simp [nothing]
  · rw [states]
    exact bracketed_chain_iff plain begins.passed begins.reached begins.stacked begins.bracketed

/-- The body of a function closes with it, but the brace of a class closes a property that is named
like the word for a function. -/
theorem scan_bracketed_iff_function :
    (∀ state ∈ (scan { source := .ofString "(function (a) {b(c)})" } true).states,
      state.Bracketed) ∧
    ¬∀ state ∈ (scan { source := .ofString "class A { function = 1 }" } true).states,
      state.Bracketed :=
  ⟨(scan_bracketed_iff rfl true).mpr (by decide +kernel),
    fun all => absurd ((scan_bracketed_iff rfl true).mp all) (by decide +kernel)⟩

end Lexer

end EcmaSyntax
