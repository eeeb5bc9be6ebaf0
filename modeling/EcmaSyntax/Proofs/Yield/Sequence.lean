import EcmaSyntax.Grammar.Expression.Access
import EcmaSyntax.Proofs.Yield.Echo
import EcmaSyntax.Proofs.Yield.Function

namespace EcmaSyntax

namespace Grammar

variable {law : Law} {given : Prop} {rules : Rules} {mark : Mark} {node : Node}

/-- What is known of the tokens where a chunk of a template has been read: the last one spells it,
the one before is a mark of the template, and the current one is another, if it is the last
chunk. -/
def Quoted (chunk : Node × Bool) (setting : Lexer.Setting) (lexer : Lexer.State) : Prop :=
  lexer.Quotes setting chunk.1.form chunk.1.start chunk.1.stop ∧
    chunk.1.form.closing? = some (if chunk.2 then .backQuote else .dollarBraceL) ∧
      (chunk.2 = true → lexer.kind = .backQuote)

/-- The current token spells the chunk of a template that stands behind a mark, whatever its kind
is. -/
theorem templateChunk_gives {setting : Setting} {state : State}
    (tracked : state.lexer.Tracked setting.toSetting)
    (opened : state.lexer.After (fun mark => mark.kind.opensChunk = true) setting.toSetting) :
    Gives templateChunk setting state fun chunk after =>
      Quoted chunk setting.toSetting after.lexer := by
  rw [templateChunk, Gives.bind_iff, gives_mark, Gives.bind_iff]
  refine rawText_gives.mono ?_
  rintro raw _ ⟨same, text, sliced, rfl⟩
  rw [same, Gives.bind_iff, gives_valueText, Gives.bind_iff, Grammar.next, gives_lex]
  intro _ lexer passed
  obtain ⟨mark, inside, opens⟩ := opened
  obtain ⟨before, split⟩ := List.getLast?_eq_some_iff.mp inside
  have recorded : lexer.recorded = before ++ [mark, state.lexer.token] := by
    have passed : lexer.recorded = state.lexer.recorded ++ [state.lexer.token] :=
      List.append_inj_left' (Lexer.next_tokens tracked passed).1 rfl
    rw [passed, split, List.append_assoc]
    rfl
  have stop : state.lexer.token.stop = lexer.lastStop :=
    (Lexer.next_tokens tracked passed).2.last _ (by simp [recorded])
  rw [Gives.bind_iff, gives_atKind, Gives.bind_iff]
  intro chunk after finished
  obtain ⟨form, start, stops⟩ := finish_gives chunk after finished
  obtain ⟨_, _, _, _, _, rfl⟩ := finish_aside chunk after finished
  have spelled : chunk.form.SpelledBy setting.source state.lexer.token := by
    have cooks : ((String.ofList text).map LineEnding.feed) =
        String.ofList (text.map LineEnding.feed) := String.ext (by simp)
    rw [form]
    refine ⟨text, sliced, cooks, rfl, fun chunk free single => ?_⟩
    have cooked : state.lexer.value = _ := tracked.sound.cooked chunk text sliced free single
    show state.lexer.value.text?.getD "" = _
    rw [cooked, cooks]
    rfl
  exact gives_pure.mpr ⟨⟨before, mark, state.lexer.token, recorded, opens, start.symm,
    stop.trans stops.symm, spelled⟩, form ▸ rfl, beq_iff_eq.mp⟩

instance : Plain templateChunk := inferInstanceAs (Plain (Grammar.mark >>= _))

/-- Whatever is read as the chunk of a template has its form. -/
theorem templateChunk_ends : Ends templateChunk fun chunk => chunk.1.form.isSpelled = true :=
  .last fun _ => .last fun _ => .last fun _ => .last fun _ => .last fun _ => fun _ _ =>
    Gives.bind_iff.mpr (finish_gives.mono fun _ _ made => gives_pure.mpr (by rw [made.1]; rfl))

theorem templateChunk_yields :
    Yields law given templateChunk fun chunk => chunk.1.form.isSpelled = true :=
  (YieldsAt.plain.also templateChunk_ends).weaken fun _ => And.right

/-- What a template is made of is lawful, its chunks and the expressions between them. -/
structure Woven (law : Law) (quasis inner : List Node) : Prop where
  chunks : AllLawful law quasis
  expressions : AllLawful law inner
  counted : quasis.length = inner.length + 1

theorem Woven.reverse {quasis inner : List Node} (woven : Woven law quasis inner) :
    Woven law quasis.reverse inner.reverse :=
  ⟨woven.chunks.reverse, woven.expressions.reverse, by simpa using woven.counted⟩

/-- What has been read of a template is lawful, the last parts first, but for the last chunk, of
which only the form is known. -/
structure Weaves (law : Law) (quasis inner : List Node) : Prop where
  chunk : ∀ chunk ∈ quasis.head?, chunk.form.isSpelled = true
  others : AllLawful law quasis.tail
  expressions : AllLawful law inner
  counted : quasis.length = inner.length + 1

/-- A chunk that tokens spell is lawful. -/
theorem Weaves.woven {quasis inner : List Node} (weaves : Weaves law quasis inner)
    (spells : ∀ chunk ∈ quasis.head?,
      law.layout.spells law.mode chunk.form chunk.start chunk.stop) : Woven law quasis inner := by
  refine ⟨?_, weaves.expressions, weaves.counted⟩
  cases quasis with
  | nil => exact nofun
  | cons chunk others =>
      have form := weaves.chunk chunk rfl
      refine .cons ?_ weaves.others
      unfold Form.isSpelled at form
      split at form
      · next same =>
          exact .ofUniform (same ▸ rfl) (same ▸ Form.permitted_of_isFree rfl)
            ⟨.ofOpen (same ▸ rfl), same ▸ trivial, fun _ => spells chunk rfl⟩ (same ▸ trivial)
      · cases form

/-- Where a mark stands behind the last chunk that has been read of a template, the chunk is
lawful. -/
theorem weaves_learn {quasis inner : List Node} {α : Type} {action : Parse α} {good : α → Prop}
    (goesOn : Yields law (given ∧ Woven law quasis inner) action good) :
    YieldsFrom law none (fun setting lexer => ∀ chunk ∈ quasis.head?,
      lexer.Quotes setting chunk.form chunk.start chunk.stop ∧ chunk.form.closing? = some lexer.kind)
        (given ∧ Weaves law quasis inner) action good := by
  have learnt : ∀ setting lexer, law.layout.Knows setting lexer → (∀ chunk ∈ quasis.head?,
      lexer.Quotes setting chunk.form chunk.start chunk.stop ∧
        chunk.form.closing? = some lexer.kind) →
        ∀ chunk ∈ quasis.head?, law.layout.spells law.mode chunk.form chunk.start chunk.stop :=
    fun _ _ knows quoted chunk inside =>
      knows.spells (quoted chunk inside).1 (quoted chunk inside).2
  exact .learn learnt (.ofYields (goesOn.ofGiven fun known =>
    ⟨known.1.1, known.1.2.woven known.2⟩))

section Sequence

variable (lawful : rules.Lawful law)

include lawful

/-- Expressions with commas are lawful, or may become patterns. -/
theorem coverExpression_yields {noIn : Bool} :
    Yields law given (coverExpression rules noIn) (CoverLawful law) := by
  refine .step fun _ => (cover_yields lawful).bind fun first => .step fun _ => .ite (fun _ => ?_)
    fun _ => .pure And.right
  refine .via (fun gathered => AllHedged law gathered.1 gathered.2)
    (.loop (fun gathered => AllHedged law gathered.1 gathered.2)
      (fun known => known.2.mono (fun first => .cons first .nil) fun first => .cons first .nil) ?_) ?_
  · rintro ⟨items, pending⟩
    refine .step fun _ => .ite (fun _ => (cover_yields lawful).bind fun _ => .more fun known => ?_)
      fun _ => .done fun known => known.2.mono Every.reverse Every.reverse
    exact known.1.2.and known.2 (fun rest item => .cons item rest) fun rest item => .cons item rest
  · rintro ⟨items, pending⟩
    refine .step fun _ => finish_made.bind fun node => .pure ?_
    rintro ⟨⟨_, known⟩, made, _⟩
    exact known.mono (.sequence made) fun all => .ofPlain (made ▸ rfl) (made ▸ all)

/-- An expression is lawful. -/
theorem expression_yields {noIn : Bool} :
    Yields law given (expression rules noIn) (Node.Lawful law) := by
  refine .step fun _ => (assignment_yields lawful).bind fun first => .step fun _ =>
    .ite (fun _ => ?_) fun _ => .pure And.right
  refine .via (AllLawful law)
    (.loop (AllLawful law) (fun known => .cons known.2 .nil) fun items => ?_)
    fun items => .step fun _ => finish_lawful rfl And.right
  exact .step fun _ => .ite
    (fun _ => (assignment_yields lawful).bind fun _ => .more fun known => .cons known.2 known.1.2)
    fun _ => .done fun known => known.2.reverse

/-- A condition in parentheses is lawful. -/
theorem parenExpression_yields :
    Yields law given (parenExpression rules) (Node.Lawful law) :=
  .step fun _ => (expression_yields lawful).bind fun _ => .step fun _ => .pure And.right

/-- A spread is lawful. -/
theorem spread_yields : Yields law given (spread rules) (CoverLawful law) := by
  refine .step fun _ => .step fun _ => (cover_yields lawful).bind fun _ =>
    finish_made.bind fun node => .pure ?_
  rintro ⟨⟨_, known⟩, made, _⟩
  exact known.mono (.spread made) fun argument => .ofPlain (made ▸ rfl) (made ▸ argument)

/-- An item of a list is lawful. -/
theorem plainListItem_yields {allowHole : Bool} :
    Yields law given (plainListItem rules allowHole) (SlotHedged law) := by
  refine .step fun _ => .ite (fun _ => .pure fun _ => ⟨.none, fun _ => .none⟩) fun _ =>
    .step fun _ => ?_
  exact .choose (CoverLawful law)
    (.ite (fun _ => spread_yields lawful) fun _ => cover_yields lawful)
    fun item => .pure fun known => known.2.mono .some .some

/-- An item of a list is lawful, unless it is a hole. -/
theorem listItem_yields {allowHole : Bool} :
    Yields law given (listItem rules allowHole) (SlotHedged law) := by
  refine .step fun _ => (plainListItem_yields lawful).bind fun item => ?_
  refine .step fun _ => .step fun _ => .ite (fun _ => ?_) fun _ => .pure And.right
  split
  · exact .unexpected
  · next inner same =>
      refine (typeAnnotation_yields lawful).bind fun annot => finish_made.bind fun cast => .pure ?_
      rintro ⟨⟨⟨_, known⟩, annotated⟩, made, _⟩
      refine known.mono (fun covers => .some (.cast made (covers inner same) annotated)) fun all => ?_
      exact .some (.ofPlain (made ▸ rfl) (made ▸ ⟨all inner same, annotated⟩))

/-- The items of a list are lawful, or may become patterns. -/
theorem listItems_yields {close : Kind} {allowHoles : Bool} :
    Yields law given (listItems rules close allowHoles) fun items =>
      SlotsHedged law items.value items.pending := by
  refine .via (fun gathered => SlotsHedged law gathered.1 gathered.2)
    (.loop (fun gathered => SlotsHedged law gathered.2.1 gathered.2.2)
      (fun _ => ⟨nofun, fun _ => nofun⟩) ?_)
    fun _ => .pure And.right
  rintro ⟨first, items, pending⟩
  have ended : given ∧ SlotsHedged law items pending →
      SlotsHedged law items.reverse pending :=
    fun known => known.2.mono Slots.reverse Slots.reverse
  refine .step fun _ => .ite (fun _ => .done ended) fun _ => ?_
  have ends : Yields law (given ∧ SlotsHedged law items pending) (do
      let item ← listItem rules allowHoles
      return .more (false, item.value :: items, pending <|> item.pending))
      (Turned (fun gathered => SlotsHedged law gathered.2.1 gathered.2.2)
        fun gathered : List (Option Node) × Option Nat =>
          SlotsHedged law gathered.1 gathered.2) :=
    (listItem_yields lawful).bind fun _ => .more fun known => known.1.2.and known.2
      (fun rest item => .cons item rest) fun rest item => .cons item rest
  exact .ite
    (fun _ => .step fun _ => .step fun _ => .ite (fun _ => .done ended) fun _ => ends)
    fun _ => ends

/-- An array is lawful, or may become a pattern. -/
theorem arrayLiteral_yields :
    Yields law given (arrayLiteral rules) (CoverApt law) := by
  refine .step fun _ => .step fun _ => (listItems_yields lawful).bind fun _ => .step fun _ =>
    finish_made.bind fun node => .pure ?_
  rintro ⟨⟨_, known⟩, made, _⟩
  exact known.mono (fun all => .list made all Maybe.none)
    fun all => .ofPlain (made ▸ rfl) (made ▸ ⟨all, Maybe.none⟩)

/-- The arguments of a construction are lawful. -/
theorem plainArguments_yields :
    Yields law given (plainArguments rules) (AllLawful law) :=
  (listItems_yields lawful).bind fun _ => (settle_yields fun known => known.2.settled).bind
    fun _ => .step fun _ => .pure fun known => known.2.nodes

/-- A template is lawful, and its chunks are spelled as they stand. That a chunk stands before a
mark is learnt where the turn after it begins. -/
theorem template_yields :
    YieldsFrom law none (fun _ lexer => lexer.kind = .backQuote) given (template rules)
      (Node.Apt law) := by
  refine .onMark fun mark => .passWord (.bind Quoted ?_ (.ofYields templateChunk_yields) fun first =>
    .andThen (?_ : YieldsFrom law none _ _ _ fun parts => Woven law parts.1 parts.2) fun parts => ?_)
  · rintro setting state tracked ⟨quote, inside, kind, -⟩
    exact templateChunk_gives tracked ⟨quote, inside, by simp [Kind.opensChunk, kind]⟩
  · refine YieldsFrom.mono (.loop (fun gathered => Weaves law gathered.1 gathered.2.1)
      (fun gathered setting lexer => ∀ chunk ∈ gathered.1.head?,
        Quoted (chunk, gathered.2.2) setting lexer) (fun known => ?_) ?_ ?_) ?_
    · exact { chunk := by simp [known.2], others := .nil, expressions := .nil, counted := rfl }
    · rintro ⟨quasis, expressions, last⟩ setting state tracked -
      refine gives_ite (fun _ => gives_pure.mpr nofun) fun _ => ?_
      have closes : Plain (expect .dollarBraceL) := inferInstance
      refine closes.tracks tracked fun _ middle tracked => ?_
      refine (expression_yields lawful).advances.tracks tracked fun inner last tracked => ?_
      rw [Gives.bind_iff]
      intro _ after passed
      have plain : Plain (expect .braceR) := inferInstance
      have still := (plain.traces setting last _ after passed).tracked tracked
      obtain ⟨brace, inside, kind⟩ := expect_after tracked _ after passed
      refine Gives.bind_iff.mpr ((templateChunk_gives still
        ⟨brace, inside, by simp [Kind.opensChunk, kind]⟩).mono fun chunk _ quoted => gives_pure.mpr ?_)
      rintro _ ⟨⟩ _ ⟨⟩
      exact quoted
    · rintro ⟨quasis, expressions, last⟩
      refine .ite (fun ended => .mono (weaves_learn (.done fun known => known.2.reverse)) ?_)
        fun goesOn => .awaited (.mono (weaves_learn ?_) ?_)
      · intro setting lexer quoted chunk inside
        obtain ⟨quotes, closing, kind⟩ := quoted chunk inside
        exact ⟨quotes, by simp [closing, kind ended, ended]⟩
      · refine .step fun _ => (expression_yields lawful).bind fun inner => .step fun _ =>
          templateChunk_yields.bind fun chunk => .more fun ⟨⟨⟨_, woven⟩, inner⟩, spelled⟩ => ?_
        exact { chunk := by simp [spelled], others := woven.chunks
                expressions := .cons inner woven.expressions
                counted := congrArg Nat.succ woven.counted }
      · rintro setting lexer ⟨quoted, kind⟩ chunk inside
        obtain ⟨quotes, closing, -⟩ := quoted chunk inside
        exact ⟨quotes, by simp [closing, kind, goesOn]⟩
    · intro setting lexer quoted
      simpa using quoted
  · exact .step fun _ => finish_permitted rfl
      (fun known => Form.permitted_of_template known.2.counted) fun known =>
        ⟨known.2.chunks, known.2.expressions⟩

end Sequence

section Access

variable (lawful : rules.Lawful law)

instance : Plain asyncArrowFollows := inferInstanceAs (Plain (hasTypes >>= _))

include lawful

/-- The arguments of a call are lawful. -/
theorem callArguments_yields {maybeArrow : Bool} :
    Yields law given (callArguments rules maybeArrow) (AllLawful law) := by
  refine .via (fun gathered => AllLawful law gathered.1)
    (.loop (fun gathered => AllLawful law gathered.2.1) (fun _ => .nil) ?_) ?_
  · rintro ⟨first, items, inner⟩
    refine .step fun _ => .ite (fun _ => .done fun known => known.2.reverse) fun _ => ?_
    have ends : Yields law (given ∧ AllLawful law items) (do
        let inner := inner || (← atKind .parenL)
        let item ← (← listItem rules false).settle
        return .more (false, item.toList ++ items, inner))
        (Turned (fun gathered => AllLawful law gathered.2.1)
          fun gathered : List Node × Bool => AllLawful law gathered.1) := by
      refine .step fun _ => (listItem_yields lawful).bind fun _ =>
        (settle_yields fun known => known.2.settled).bind fun item => .more fun known =>
          .append ?_ known.1.1.2
      exact fun node inside => known.2 node (Option.mem_toList.mp inside)
    exact .ite
      (fun _ => .step fun _ => .step fun _ =>
        .ite (fun _ => .done fun known => known.2.reverse) fun _ => ends)
      fun _ => ends
  · rintro ⟨items, inner⟩
    exact .step fun _ => .guard (.pure And.right)

/-- A parenthesis after the word for an asynchronous arrow function is on the line of the word. -/
theorem callTail_yields {known : Prop} (calls : given → known → law.layout.calls mark.pos)
    (base : given → node.Lawful law) :
    YieldsFrom law none (fun setting lexer => lexer.Words known mark.pos node setting ∧
      lexer.kind = .parenL) given (callTail rules mark node) fun call => call.1.Apt law := by
  have rest : ∀ maybeArrow : Bool,
      Yields law (given ∧ (maybeArrow = true → law.layout.calls mark.pos)) (do
        next
        let arguments ← callArguments rules maybeArrow
        let call ← finish mark (.callExpression node arguments)
        if maybeArrow && (← asyncArrowFollows) then
          let returnType ← typeAnnotation? rules
          expect .arrow
          return (← arrowTail rules mark arguments true returnType, true)
        else
          checkReferenced arguments
          return (call, false)) fun call => call.1.Apt law := by
    refine fun maybeArrow => .step fun _ => (callArguments_yields lawful).bind fun arguments =>
      .bind (finish_yields rfl fun known => ⟨base known.1.1, known.2⟩) fun call => ?_
    refine .step fun follows => .ite (fun arrow => ?_) fun _ => .step fun _ => .pure And.right
    refine ( typeAnnotation?_yields lawful).bind fun _ => .step fun _ => ?_
    exact .bind (arrowTail_free lawful (fun known => .mono known.1.1.2 fun _ => .lawful) And.right
      (fun _ absent => by cases absent) fun known _ =>
        known.1.1.1.2 (Bool.and_eq_true_iff.mp arrow).1) fun _ => .pure And.right
  refine .look fun state => .mayEnd (.ofYields ((rest _).ofGiven fun holds => ⟨holds, ?_⟩)) ?_
  · simp
  · have learnt : ∀ setting lexer, law.layout.Knows setting lexer →
        (lexer.Words known mark.pos node setting ∧ lexer.kind = .parenL) ∧ lexer.Joined setting →
          node.isNamed "async" = true → known ∨ law.layout.calls mark.pos := by
      rintro setting lexer knows ⟨⟨words, kind⟩, joined⟩ named
      refine (words named).imp_right fun ⟨word, last, start⟩ => start ▸ ?_
      exact knows.calls (.inr ⟨kind, joined⟩) word last
    refine .learn learnt (.ofYields ((rest _).ofGiven fun ⟨holds, named⟩ => ⟨holds, fun arrow => ?_⟩))
    simp only [Bool.and_eq_true] at arrow
    exact (named arrow.1.2).elim (calls holds) id

/-- A member is lawful if what it is taken of is. -/
theorem memberTail?_yields (base : given → node.Lawful law) :
    Yields law given (memberTail? rules mark node) fun member =>
      ∀ node ∈ member, node.Apt law := by
  have taken : ∀ member : Node, member.Apt law →
      ∀ node ∈ some member, node.Apt law := by
    rintro member operand _ ⟨rfl⟩
    exact operand
  refine .ofFrom (.onKind fun current => ?_)
  split
  · exact .ofYields (.step fun _ => identifier_yields.lawful.bind fun _ =>
      .bind (finish_yields rfl fun known => ⟨base known.1, known.2⟩) fun _ =>
        .pure fun known => taken _ known.2)
  · exact .ofYields (.step fun _ => (expression_yields lawful).bind fun _ => .step fun _ =>
      .bind (finish_yields rfl fun known => ⟨base known.1, known.2⟩) fun _ =>
        .pure fun known => taken _ known.2)
  · exact .andThen ((template_yields lawful).mono fun _ _ => And.right) fun _ =>
      .bind (finish_yields rfl fun known => ⟨base known.1, known.2.lawful⟩) fun _ =>
        .pure fun known => taken _ known.2
  · exact .ofYields (.pure fun _ => nofun)

/-- A chain of members is lawful. -/
theorem memberChain_yields :
    Yields law given (memberChain rules) (Node.Apt law) := by
  refine .step fun _ => (atom_yields lawful).bind fun base => ?_
  refine .loop (Node.Apt law) And.right fun base => ?_
  refine (memberTail?_yields lawful fun known => known.2.lawful).bind fun member => ?_
  split
  · exact .more fun known => known.2 _ rfl
  · exact .done fun known => known.1.2

/-- What follows an expression is lawful; an arrow that follows a call is one of asynchronous
code. -/
theorem access_yields {known : Prop} (calls : given → known → law.layout.calls mark.pos)
    (base : given → node.Apt law) :
    YieldsFrom law none (Lexer.State.Words known mark.pos node) given (access rules mark node)
      (Node.Apt law) := by
  refine .loop (Node.Apt law) (Lexer.State.Words known mark.pos) base ?_ fun base =>
    .onKind fun current => ?_
  · refine fun _ setting state _ _ => (accessTurn_composes setting state).mono ?_
    rintro _ after composed next rfl named
    exact absurd named (Bool.eq_false_iff.mp (Node.isNamed_of_isComposed composed))
  split
  · exact .ofYields (.step fun _ => (memberChain_yields lawful).bind fun _ =>
      .bind (finish_yields rfl fun known =>
        ⟨Maybe.some known.1.2.lawful, known.2.lawful⟩) fun _ => .more And.right)
  · refine .andThen (callTail_yields lawful (fun known => calls known.1) fun known =>
      known.2.lawful) ?_
    rintro ⟨call, isArrow⟩
    exact .ite (fun _ => .done And.right) fun _ => .more And.right
  · refine .ofYields ((memberTail?_yields lawful fun known => known.2.lawful).bind fun member => ?_)
    split
    · exact .more fun known => known.2 _ rfl
    · exact .done fun known => known.1.2

/-- A chain of members and calls is lawful. -/
theorem accessChain_yields :
    Yields law given (accessChain rules) (CoverApt law) := by
  refine .ofFrom (.onMark fun mark => .look fun _ => .named (fun _ lexer => lexer.kind) fun kind => ?_)
  have learnt : ∀ setting lexer, law.layout.Knows setting lexer →
      (True ∧ lexer.start = mark.pos) ∧ lexer.kind = kind →
        kind ≠ .num → kind ≠ .string → kind ≠ .name → law.layout.calls mark.pos := by
    rintro setting lexer knows ⟨⟨-, start⟩, rfl⟩ number string name
    exact start ▸ knows.opens name number string
  refine .learn learnt (.bind (fun base => Lexer.State.Words (kind ≠ .num ∧ kind ≠ .string ∧ kind ≠ .name) mark.pos
    base.value) ?_ (.ofYields (.ofGiven (lawful.yields .atom rfl) fun _ => trivial)) fun base => ?_)
  · rintro setting state tracked ⟨⟨-, start⟩, rfl⟩
    refine (lawful.naming setting state tracked).mono fun base after naming named => ?_
    obtain ⟨number, string, passed⟩ := naming named
    by_cases name : state.lexer.kind = .name
    · exact .inr (start ▸ passed name)
    · exact .inl ⟨number, string, name⟩
  refine .ite (fun _ => .ofYields (.pure And.right)) fun goesOn => ?_
  have none : base.pending = none := by
    rw [← Option.not_isSome_iff_eq_none]
    exact fun some => goesOn (Bool.or_eq_true_iff.mpr (.inr some))
  exact .andThen (access_yields lawful (fun known other => known.1.2 other.1 other.2.1 other.2.2)
    fun known => known.2.settled none) fun _ => .pure fun known => .ofApt known.2

end Access

end Grammar

end EcmaSyntax
