import EcmaSyntax.Grammar.Expression.Primary
import EcmaSyntax.Proofs.Yield.Class
import EcmaSyntax.Proofs.Yield.Element
import EcmaSyntax.Proofs.Yield.Operator

namespace EcmaSyntax

namespace Grammar

variable {law : Law} {given : Prop} {rules : Rules} {mark : Mark} {node : Node}

section Parentheses

instance {params : List Node} : Plain (checkBareParameters params) := by
  unfold checkBareParameters
  split
  · split <;> infer_instance
  · infer_instance

theorem checkBareParameters_still {params : List Node} (setting : Setting) (state : State) :
    Gives (checkBareParameters params) setting state fun _ after => after = state := by
  unfold checkBareParameters
  split
  · split <;> exact fun _ _ absent => by cases absent
  · exact gives_pure.mpr rfl

instance {parts : ParenParts} : Plain (checkGrouped parts) := by
  unfold checkGrouped
  cases parts.comma <|> parts.rest <|> parts.pending <;> infer_instance

instance : Plain closesNext := inferInstanceAs (Plain (lex Lexer.lookahead >>= _))

/-- Items in parentheses are one expression. -/
theorem groupedExpression_yields {items : List Node} {start stop : Mark}
    (all : given → AllLawful law items) :
    Yields law given (groupedExpression items start stop) (Node.Lawful law) := by
  unfold groupedExpression
  split
  · exact .unexpected
  · next single => exact .pure fun known => all known single (List.mem_singleton_self _)
  · exact .step fun _ => .lawful (finishAt_yields rfl all)

/-- What stands in parentheses is lawful if nothing is pending. -/
abbrev PartsHedged (law : Law) (parts : ParenParts) : Prop :=
  AllHedged law parts.items parts.pending

/-- One more item in parentheses is read. -/
def parenTurn (rules : Rules) (parts : ParenParts) :
    Parse (Turn (Bool × ParenParts) ParenParts) := do
  if ← atKind .ellipsis then
    let mark ← Grammar.mark
    let rest ← parenItem rules (← restElement) mark
    return .done { parts with items := rest :: parts.items, rest := some mark.pos }
  let item ← rules (.assignment false true)
  return .more (false, { parts with
    items := item.value :: parts.items, pending := parts.pending <|> item.pending })

variable (lawful : rules.Lawful law)

include lawful

/-- The items in parentheses stay lawful when one is read. -/
theorem parenTurn_yields {parts : ParenParts} (holds : given → PartsHedged law parts) :
    Yields law given (parenTurn rules parts)
      (Turned (fun gathered => PartsHedged law gathered.2) (PartsHedged law)) := by
  refine .step fun _ => .ite (fun _ => .step fun mark => ?_) fun _ => ?_
  · have settled (node : Node) : given ∧ node.Lawful law ∧ node.RestName →
        NodeHedged law node none := fun known => .ofLawful known.2.1
    refine restElement_yields.bind fun rest => (parenItem_yields lawful (settled rest)).bind
      fun _ => .done fun known => ?_
    exact (holds known.1.1).mono (fun before => .cons known.2.covers before)
      fun before => .cons (known.2.settled rfl) before
  · refine .via (CoverLawful law) (.ofGiven (lawful.yields (.assignment false true) rfl)
      fun _ => trivial) fun _ => .more fun known => ?_
    exact (holds known.1).and known.2 (fun before item => .cons item before)
      fun before item => .cons item before

/-- The items in parentheses are lawful, or may become patterns. -/
theorem parenParts_yields : Yields law given (parenParts rules) (PartsHedged law) := by
  refine .via (PartsHedged law)
    (.loop (fun gathered => PartsHedged law gathered.2) (fun _ => ⟨.nil, fun _ => .nil⟩) ?_)
    fun parts => .pure fun known => known.2.mono Every.reverse Every.reverse
  rintro ⟨first, parts⟩
  have item : Yields law (given ∧ PartsHedged law parts) (parenTurn rules parts) _ :=
    parenTurn_yields lawful And.right
  refine .step fun _ => .ite (fun _ => .done And.right) fun _ => .ite (fun _ => ?_) fun _ => item
  exact .step fun _ => .step fun _ => .ite (fun _ => .step fun _ => .done And.right) fun _ => item

/-- What stands in parentheses lies where it is read. -/
theorem parenTurn_bounded {first : Nat} {known : List Node} {parts : ParenParts} :
    Bounded first given (parts.items ++ known) (parenTurn rules parts)
      (Turn.nodes (fun gathered => gathered.2.items) ParenParts.items) := by
  refine .step fun _ => .ite (.onMark fun mark => ?_) ?_
  · refine .bind restElement_bounded fun rest => .bind (parenItem_bounded lawful And.right
      List.mem_cons_self) fun item => .pure (List.cons_subset_cons _ ?_)
    exact List.subset_cons_of_subset _ (List.subset_append_left _ _)
  · refine .bind ((lawful.bounded first (.assignment false true)).mono (fun _ => trivial)
      (List.nil_subset _)) fun item => .pure (List.cons_subset_cons _ ?_)
    exact List.subset_append_left _ _

/-- The items in parentheses lie where they have been read. -/
theorem parenParts_bounded {first : Nat} {known : List Node} :
    Bounded first given known (parenParts rules) ParenParts.items := by
  refine .bind (.loop (fun gathered => gathered.2.items) (List.nil_subset _) ?_) fun parts =>
    .pure fun node inside => List.mem_append_left _ (List.mem_reverse.mp inside)
  rintro ⟨begun, parts⟩
  have all : parts.items ⊆ parts.items ++ known := List.subset_append_left _ _
  refine .step fun _ => .ite (.pure all) (.ite ?_ (parenTurn_bounded lawful))
  exact .step fun _ => .step fun _ => .ite (.step fun _ => .pure all) (parenTurn_bounded lawful)

/-- The arrow after a list of parameters stands on the line of the parenthesis that closes it. -/
theorem plainParentheses_yields {maybeArrow : Bool} :
    YieldsFrom law none (fun _ lexer => mark.pos ≤ lexer.start) given
      (plainParentheses rules mark maybeArrow) (Node.Apt law) := by
  refine .onward (.ofYields .plain) fun _ => .look fun innerStart => .bind (fun parts _ lexer =>
    mark.pos ≤ lexer.start ∧ ∀ item ∈ parts.items, item.stop ≤ lexer.lastStop) ?_
    (.ofYields (parenParts_yields lawful)) fun parts => .look fun innerStop => .plain
      (fun _ => Lexer.State.Heads mark.pos parts.items) ?_ fun _ => .pointed ?_ ?_
  · intro setting state tracked begun parts after ends
    have bounded : Bounded mark.pos True [] (parenParts rules) ParenParts.items :=
      parenParts_bounded lawful
    have onward := (bounded.advances.traces setting state parts after ends).onward tracked
    exact ⟨Nat.le_trans begun onward.1, fun item inside =>
      (bounded.inside setting state tracked begun .nil trivial parts after ends item inside).stop⟩
  · intro setting state tracked ⟨begun, stops⟩
    have closes := Nat.le_trans tracked.sound.ordered tracked.sound.within
    exact expect_gives tracked ⟨begun, fun item inside => Nat.le_trans (stops item inside) closes⟩
  · refine .ite (fun _ => .still checkBareParameters_still .plain fun _ => ?_) fun absent =>
      absurd rfl absent
    exact arrowTail_yields lawful (fun known => known.1.2.covers) fun _ => .none
  · refine .ite (fun absent => by cases absent) fun _ =>
      (YieldsAt.also checkGrouped_settled .plain).bind fun _ =>
        (groupedExpression_yields fun known => ?_).bind fun inner => .pure fun known => ?_
    · exact known.1.2.settled known.2.2.1
    · exact .ofParenthesized (known.2.congr rfl rfl rfl) rfl

/-- An arrow function whose parameters have been read as one expression. -/
theorem annotatedArrow_yields (holds : given → node.Lawful law)
    (free : given → ∀ start function, law.layout.points start function) :
    Yields law given (annotatedArrow rules node mark) (Node.Apt law) := by
  refine (typeAnnotation_yields lawful).bind fun annot => .step fun _ => ?_
  refine arrowTail_free lawful (fun known => ?_) (fun known => .some known.2)
    (fun known _ => free known.1 _) fun _ absent => by cases absent
  split
  · next same =>
      have all : AllLawful law _ := (holds known.1).parts same rfl
      exact all.mono fun _ => .lawful
  · exact .cons (.lawful (holds known.1)) .nil

theorem annotatedArrow_steps : Steps (annotatedArrow rules node mark) :=
  have yields : Yields law False (annotatedArrow rules node mark) (Node.Apt law) :=
    annotatedArrow_yields lawful False.elim False.elim
  yields.steps

/-- An arrow function without parameters is lawful. -/
theorem emptyArrow_yields (free : given → ∀ start function, law.layout.points start function) :
    Yields law given (emptyArrow rules mark) (Node.Apt law) :=
  .step fun _ => .step fun _ => ( typeAnnotation?_yields lawful).bind fun _ => .step fun _ =>
    arrowTail_free lawful (fun _ => .nil) And.right (fun known _ => free known.1 _)
      fun _ absent => by cases absent

/-- Parentheses in a language with types are lawful. -/
theorem typedParentheses_yields {maybeArrow : Bool}
    (free : given → ∀ start function, law.layout.points start function) :
    YieldsFrom law none (fun _ lexer => mark.pos ≤ lexer.start) given
      (typedParentheses rules mark maybeArrow) (Node.Apt law) := by
  refine .onwardEither fun empty => .ite (fun _ => .ofYields (emptyArrow_yields lawful free))
    fun _ => .andThen (plainParentheses_yields lawful) fun inner => .step fun _ => .ite
      (fun _ => ?_) fun _ => .pure And.right
  refine (duplicate_yields fun known => known.2.lawful).bind fun candidate => ?_
  refine (YieldsAt.attempt (annotatedArrow_yields lawful And.right fun known =>
    free known.1.1)).bind fun result => ?_
  split
  · exact .pure fun known => known.2 _ rfl
  · exact .pure fun known => known.1.1.2

/-- What begins with a parenthesis is lawful. -/
theorem parentheses_yields {maybeArrow : Bool} :
    YieldsFrom law none (fun _ lexer => mark.pos ≤ lexer.start) given
      (parentheses rules mark maybeArrow) (Node.Apt law) := by
  refine .onTypes fun types => .ite (fun typed => ?_) fun _ =>
    (plainParentheses_yields lawful).mono fun _ _ => And.left
  exact typed ▸ .typed (typedParentheses_yields lawful And.right)

end Parentheses

section Primary

/-- An expression of one token is lawful. -/
theorem tokenExpression_yields {form : Form} (plain : form.isPlain = true)
    (all : form.Lawful law) :
    Yields law given (tokenExpression mark form) (Node.Apt law) :=
  .step fun _ => finish_yields plain fun _ => all

/-- The word for the class above is lawful. -/
theorem superExpression_yields :
    Yields law given (superExpression mark) (Node.Apt law) := by
  have rest : Yields law given (finish mark .superKeyword) (Node.Apt law) :=
    finish_yields rfl fun _ => trivial
  refine .step fun _ => .step fun _ => .guard (.step fun _ => .step fun current => ?_)
  split
  · exact .guard rest
  · exact rest
  · exact rest
  · exact .fail

/-- A property of a word is lawful. -/
theorem metaPropertyTail_yields {wanted : String} (holds : given → node.Lawful law) :
    Yields law given (metaPropertyTail mark node wanted) (Node.Apt law) :=
  identifier_yields.lawful.bind fun _ => .guard
    (finish_yields rfl fun known => ⟨holds known.1, known.2⟩)

/-- A regular expression is lawful. -/
theorem regexpLiteral_yields : Yields law given regexpLiteral (Node.Apt law) := by
  refine .step fun state => ?_
  split
  · exact literal_yields rfl trivial
  · exact literal_yields rfl trivial

variable (lawful : rules.Lawful law)

include lawful

/-- What waits for something is lawful. -/
theorem awaitTail_yields :
    Yields law given (awaitTail rules mark) (Node.Apt law) :=
  .step fun _ => .guard (.step fun _ => .guard (.step fun _ =>
    (operand_yields lawful).bind fun _ => finish_yields rfl fun known => known.2.lawful))

/-- The arrow after a name stands on the line of the name. -/
theorem nameOrArrow_yields {maybeArrow : Bool} (name : given → node.Apt law) :
    YieldsFrom law none (Lexer.State.Heads mark.pos [node]) given
      (nameOrArrow rules mark node maybeArrow) (Node.Apt law) := by
  refine .pointed ?_ ?_
  · exact .ite (fun _ => arrowTail_yields lawful
      (fun known => .cons (.lawful (name known).lawful) .nil) fun _ => .none)
        fun absent => absurd rfl absent
  · exact .ite (fun absent => by cases absent) fun _ => .pure name

/-- The word for a function stands on the line of the word before it. A name may stand on any
line. -/
theorem asyncOrName_yields {maybeArrow : Bool} (name : given → node.Apt law) :
    YieldsFrom law none (fun setting lexer => lexer.Heads mark.pos [node] setting ∧
      lexer.After (fun token => token.start = mark.pos) setting) given
      (asyncOrName rules mark node maybeArrow) (Node.Apt law) := by
  have other : YieldsFrom law none (fun setting lexer => lexer.Heads mark.pos [node] setting ∧
      lexer.After (fun token => token.start = mark.pos) setting) given (do
      if maybeArrow && (← atKind .name) then
        let param ← identifier false
        expect .arrow
        arrowTail rules mark [param] true none
      else nameOrArrow rules mark node maybeArrow) (Node.Apt law) := by
    refine .onAtKind fun isName => .ite (fun found => ?_) fun _ =>
      (nameOrArrow_yields lawful name).mono fun _ _ known => known.1.1
    refine .mono (.called (identifier_yields.lawful.bind fun param => .step fun _ =>
      arrowTail_free lawful (fun known => .cons (.lawful known.2) .nil) (fun _ => .none)
        (fun _ absent => by cases absent) fun known _ => known.1.2)) ?_
    exact fun _ _ known => ⟨known.1.2, .inl (known.2 (Bool.and_eq_true_iff.mp found).2)⟩
  refine .onAtKind fun isFunction => .mayEnd ?_ ?_
  · rw [Bool.not_true, Bool.and_false, if_neg Bool.false_ne_true]
    exact other.mono fun _ _ known => known.1.1
  · refine .ite (fun found => ?_) fun _ => other.mono fun _ _ known => known.1.1
    refine .mono (.joined (.step fun _ => functionTail_yields lawful fun known _ => known.2))
      fun _ _ known => ⟨known.1.1.2, known.1.2 (Bool.and_eq_true_iff.mp found).1, known.2⟩

/-- An expression that begins with a name is lawful. -/
theorem nameExpression_yields {maybeArrow : Bool} :
    YieldsFrom law none (fun _ lexer => lexer.start = mark.pos) given
      (nameExpression rules mark maybeArrow) (Node.Apt law) := by
  refine .look fun _ => .look fun _ => .look fun _ => .ite (fun _ => .ofYields .fail) fun _ =>
    .look fun _ => .look fun _ => .bind (fun id setting lexer => lexer.Heads mark.pos [id] setting ∧
      lexer.After (fun token => token.start = mark.pos) setting) ?_ (.ofYields identifier_yields)
      fun id => ?_
  · intro setting state tracked start
    have here : state.lexer.At (fun token => token.start = mark.pos) setting.toSetting := start
    refine (identifier_gives tracked here).mono ?_
    rintro id after ⟨last, inside, start, stop⟩
    exact ⟨⟨last, inside, Nat.le_of_eq start.symm, by simpa using Nat.le_of_eq stop⟩, last, inside,
      start⟩
  split
  · refine .look fun _ => .ite (fun _ => .ofYields (awaitTail_yields lawful)) fun _ => ?_
    exact (nameOrArrow_yields lawful And.right).mono fun _ _ => And.left
  · exact asyncOrName_yields lawful And.right
  · exact (nameOrArrow_yields lawful And.right).mono fun _ _ => And.left

section Naming

variable {setting : Setting} {state : State} {holds : Token → Prop}

/-- The word for an asynchronous function is the token that has been passed last, if this is what
comes of a step. -/
abbrev Words (holds : Token → Prop) (setting : Setting) (node : Node) (state : State) : Prop :=
  node.isNamed "async" = true → state.lexer.After holds setting.toSetting

omit lawful in
/-- What is composed is no word. -/
theorem Composes.words {action : Parse Node} (composes : Composes action) :
    Gives action setting state (Words holds setting) :=
  (composes setting state).mono fun _ _ composed named =>
    absurd named (Bool.eq_false_iff.mp (Node.isNamed_of_isComposed composed))

omit lawful in
/-- A name that is left alone is the word that has been passed. -/
theorem nameOrArrow_words {maybeArrow : Bool} (tracked : state.lexer.Tracked setting.toSetting)
    (passed : state.lexer.After holds setting.toSetting) :
    Gives (nameOrArrow rules mark node maybeArrow) setting state (Words holds setting) := by
  refine Gives.bind_iff.mpr ((mayEndStatement_gives tracked).mono ?_)
  rintro stops _ ⟨rfl, -⟩
  refine gives_ite (fun _ => ?_) fun _ => gives_pure.mpr fun _ => passed
  rw [Gives.bind_iff, eat, gives_lex]
  refine (Lexer.eat_after .arrow tracked).mono fun found after met => ?_
  cases found with
  | true => exact arrowTail_composes.words
  | false =>
      cases met
      exact gives_pure.mpr fun _ => passed

omit lawful in
/-- So is the word for asynchronous code if it is left alone. -/
theorem asyncOrName_words {maybeArrow : Bool} (tracked : state.lexer.Tracked setting.toSetting)
    (passed : state.lexer.After holds setting.toSetting) :
    Gives (asyncOrName rules mark node maybeArrow) setting state (Words holds setting) := by
  rw [asyncOrName, Gives.bind_iff, gives_atKind, Gives.bind_iff]
  refine (mayEndStatement_gives tracked).mono ?_
  rintro stops _ ⟨rfl, -⟩
  refine gives_ite (fun _ => Gives.last fun _ _ => functionTail_composes.words) fun _ => ?_
  rw [Gives.bind_iff, gives_atKind]
  refine gives_ite (fun _ => Gives.last fun _ _ => Gives.last fun _ _ => arrowTail_composes.words)
    fun _ => nameOrArrow_words tracked passed

omit lawful in
/-- An expression that is only a name is the word at which it begins. -/
theorem nameExpression_words {maybeArrow : Bool} (tracked : state.lexer.Tracked setting.toSetting)
    (here : state.lexer.At holds setting.toSetting) :
    Gives (nameExpression rules mark maybeArrow) setting state (Words holds setting) := by
  refine gives_look fun _ => gives_look fun _ => gives_look fun _ =>
    gives_ite (fun _ => fun _ _ absent => by cases absent) fun _ => ?_
  refine gives_look fun _ => gives_look fun _ => Gives.bind_iff.mpr fun id after read => ?_
  have plain : ∀ {liberal}, Plain (identifier liberal) := inferInstance
  have still := (plain.traces setting state id after read).tracked tracked
  obtain ⟨last, inside, known, -⟩ := identifier_gives tracked here id after read
  have passed : after.lexer.After holds setting.toSetting := ⟨last, inside, known⟩
  show Gives _ _ _ _
  split
  · exact gives_look fun _ => gives_ite (fun _ => awaitTail_composes.words) fun _ =>
      nameOrArrow_words still passed
  · exact asyncOrName_words still passed
  · exact nameOrArrow_words still passed

omit lawful in
/-- An expression that is the word for asynchronous code begins with this word. -/
theorem primary_naming (setting : Setting) (state : State)
    (tracked : state.lexer.Tracked setting.toSetting) :
    Gives (primary rules) setting state fun cover after => cover.value.isNamed "async" = true →
      state.lexer.kind ≠ .num ∧ state.lexer.kind ≠ .string ∧ (state.lexer.kind = .name →
        after.lexer.After (fun token => token.start = state.lexer.start) setting.toSetting) := by
  have literal : ∀ {form : Form} {value : Option RawValue}, form.isComposed = true →
      Ends (literal form value) fun node => node.isNamed "async" ≠ true := fun composed =>
    .last fun _ => .last fun _ => .last fun _ => (Ends.composed composed).bind fun _ kept =>
      .give (Bool.eq_false_iff.mp (Node.isNamed_of_isComposed kept))
  by_cases number : state.lexer.kind = .num
  · rw [primary, Gives.bind_iff, gives_kind, number]
    refine Gives.bind_iff.mpr ?_
    rw [plainPrimary, Gives.bind_iff, gives_mark, Gives.bind_iff, gives_get, Gives.bind_iff,
      gives_kind, number]
    exact gives_look fun _ => (literal rfl setting state).mono fun _ _ unnamed =>
      gives_pure.mpr fun named => absurd named unnamed
  by_cases string : state.lexer.kind = .string
  · rw [primary, Gives.bind_iff, gives_kind, string]
    refine Gives.bind_iff.mpr ?_
    rw [plainPrimary, Gives.bind_iff, gives_mark, Gives.bind_iff, gives_get, Gives.bind_iff,
      gives_kind, string]
    exact gives_look fun _ => (literal rfl setting state).mono fun _ _ unnamed =>
      gives_pure.mpr fun named => absurd named unnamed
  by_cases name : state.lexer.kind = .name
  · rw [primary, Gives.bind_iff, gives_kind, name]
    refine Gives.bind_iff.mpr ?_
    rw [plainPrimary, Gives.bind_iff, gives_mark, Gives.bind_iff, gives_get, Gives.bind_iff,
      gives_kind, name]
    have here : state.lexer.At (fun token => token.start = state.lexer.start) setting.toSetting := rfl
    exact (nameExpression_words tracked here).mono fun _ _ words => gives_pure.mpr fun named =>
      ⟨by decide, by decide, fun _ => words named⟩
  exact fun _ _ _ _ => ⟨number, string, fun known => absurd known name⟩

end Naming

/-- A block that is an expression is lawful. -/
theorem doExpression_yields :
    Yields law given (doExpression rules mark) (Node.Apt law) := by
  refine .step fun _ => get_yields.bind fun state => (enclosed_yields lawful).bind fun body =>
    finish_yields rfl fun ⟨known, enclosed⟩ => ?_
  have same : { law.mode with inGenerator := state.inGenerator } = law.mode := by
    rw [known.2.2]
  rw [same] at enclosed
  exact enclosed

/-- A function that is an expression is lawful. -/
theorem functionExpression_yields :
    Yields law given (functionExpression rules) (Node.Apt law) :=
  .step fun _ => identifier_yields.lawful.bind fun _ => .step fun _ => .choose (fun _ => True)
    (.ite (fun _ => .plain) fun _ => .plain) fun _ => .ite
      (fun _ => metaPropertyTail_yields fun known => known.1.2)
      fun _ => functionTail_plain lawful

/-- The construction of an object is lawful. -/
theorem newExpression_yields :
    Yields law given (newExpression rules) (Node.Apt law) := by
  refine .step fun mark => identifier_yields.lawful.bind fun word => .step fun _ =>
    .ite (fun _ => metaPropertyTail_yields And.right) fun _ => ?_
  refine (memberChain_yields lawful).bind fun callee => .step fun _ => ?_
  exact .choose (AllLawful law)
    (.ite (fun _ => plainArguments_yields lawful) fun _ => .pure fun _ => .nil)
    fun _ => finish_yields rfl fun known => ⟨known.1.2.lawful, known.2⟩

/-- A class that is an expression is lawful. -/
theorem classExpression_yields :
    Yields law given (classExpression rules) (Node.Apt law) := by
  have rest : Yields law given (do
      let mark ← Grammar.mark
      let decorators ← takeDecorators
      classTail rules mark decorators false false) (Node.Apt law) :=
    .step fun _ => takeDecorators_yields.bind fun _ => classTail_yields lawful And.right
  exact .step fun _ => .ite (fun _ => .after (leadingDecorators_yields lawful) fun _ => rest)
    fun _ => rest

/-- A call that is bound to an object is lawful. -/
theorem bindExpression_yields :
    Yields law given (bindExpression rules mark) (Node.Apt law) := by
  refine .step fun _ => (memberChain_yields lawful).bind fun callee => ?_
  split
  · exact finish_yields rfl fun known => ⟨Maybe.none, known.2.lawful⟩
  · exact .raise

theorem plainPrimary_yields :
    Yields law given (plainPrimary rules) (Node.Apt law) := by
  refine .ofFrom (.onMark fun mark => .look fun state => .onKind fun current => ?_)
  split
  · exact .ofYields superExpression_yields
  · exact .ofYields (tokenExpression_yields rfl trivial)
  · exact (nameExpression_yields lawful).mono fun _ _ known => known.1.2
  · exact (nameExpression_yields lawful).mono fun _ _ known => known.1.2
  · exact .ofYields (doExpression_yields lawful)
  · exact .ofYields regexpLiteral_yields
  · exact .ofYields numberLiteral_yields
  · exact .ofYields stringLiteral_yields
  · exact .ofYields (tokenExpression_yields rfl trivial)
  · exact .ofYields (tokenExpression_yields rfl trivial)
  · exact .ofYields (tokenExpression_yields rfl trivial)
  · exact (parentheses_yields lawful).mono fun _ _ known => Nat.le_of_eq known.1.2.symm
  · exact .ofYields (functionExpression_yields lawful)
  · exact .ofYields (classExpression_yields lawful)
  · exact .ofYields (classExpression_yields lawful)
  · exact .ofYields (newExpression_yields lawful)
  · exact (template_yields lawful).mono fun _ _ => And.right
  · exact .ofYields (bindExpression_yields lawful)
  · exact .ofYields .unexpected

/-- Every expression that no operator takes apart is lawful. -/
theorem primary_yields (expressing : rules.Expressing) :
    Yields law given (primary rules) (CoverApt law) := by
  refine .step fun current => ?_
  split
  · exact arrayLiteral_yields lawful
  · exact object_yields lawful expressing
  · exact textChild_yields.bind fun _ => .pure fun known => .ofApt known.2
  · exact .step fun mark => .step fun _ => .via (Node.Apt law)
      (.ofGiven (lawful.yields (.element mark) rfl) fun _ => trivial)
        fun _ => .pure fun known => .ofApt known.2
  · exact (plainPrimary_yields lawful).bind fun _ => .pure fun known => .ofApt known.2

end Primary

end Grammar

end EcmaSyntax
