import EcmaSyntax.Proofs.Yield.Echo

namespace EcmaSyntax

/-- The form is an assignment. -/
def Form.isAssignment : Form → Bool
  | .assignmentExpression .. => true
  | _ => false

/-- The node may be an expression. -/
def Node.IsExpression (node : Node) : Prop := node.form.isPart = false

/-- The node may be an operand: it is an expression, and in parentheses if it is an assignment. -/
structure Node.IsOperand (node : Node) : Prop where
  expression : node.IsExpression
  grouped : node.form.isAssignment = true → node.isParenthesized = true

section Operand

variable {base node : Node}

/-- What is composed may be an operand. -/
theorem Node.IsOperand.ofComposed (composed : node.form.isComposed = true) : node.IsOperand := by
  unfold Form.isComposed at composed
  split at composed
  · cases composed
  · cases composed
  · next other =>
      refine ⟨by simpa [IsExpression] using composed, fun assigns => ?_⟩
      unfold Form.isAssignment at assigns
      split at assigns
      · next same => exact absurd same (other _ _ _ _)
      · cases assigns

/-- A name may be an operand. -/
theorem Node.IsOperand.ofName (named : node.isIdentifier = true) : node.IsOperand := by
  unfold isIdentifier name? at named
  split at named
  · next same => exact ⟨by rw [IsExpression, same]; rfl, by rw [same]; nofun⟩
  · cases named

/-- A node tells that it stands in parentheses. -/
theorem Node.IsExpression.grouped {start : Nat} (expression : node.IsExpression) :
    (node.mapExtra fun extra =>
      { extra with parenthesized := true, parenStart := some start }).IsOperand :=
  ⟨expression, fun _ => rfl⟩

/-- What grows out of an operand is one. -/
theorem Node.Grows.operand (grows : base.Grows node) (operand : base.IsOperand) :
    node.IsOperand := by
  rcases grows with rfl | composed
  · exact operand
  · exact .ofComposed composed

end Operand

namespace Grammar

/-- What the rules of the circle read may be an expression or an operand. -/
structure Rules.Expressing (rules : Rules) : Prop where
  cover : ∀ noIn inParens, Ends (rules (.assignment noIn inParens)) fun cover : Cover Node =>
    cover.value.IsExpression
  unary : Ends (rules .unary) fun cover : Cover Node => cover.value.IsOperand
  atom : Ends (rules .atom) fun cover : Cover Node => cover.value.IsOperand
  operators : ∀ left mark level noIn, Ends (rules (.operators left mark level noIn))
    fun node : Node => left.Grows node
  element : ∀ mark, Ends (rules (.element mark)) fun node : Node => node.form.isComposed = true

variable {rules : Rules} {mark : Mark} {form : Form} {node base : Node} {α : Type}

namespace Ends

variable {action : Parse α} {good : α → Prop}

/-- A step ends one level deeper as it would elsewhere. -/
theorem nested (ends : Ends action good) :
    Ends (Grammar.nested action) good := fun setting _ =>
  gives_nested (fun value _ => good value) fun deeper _ => ends setting deeper

/-- A trial ends as its step does, or with nothing. -/
theorem attempt (ends : Ends action good) :
    Ends (Grammar.attempt action) fun result => ∀ value ∈ result, good value := by
  intro setting state result last tried
  unfold Grammar.attempt at tried
  split at tried
  · next value after same =>
      cases tried
      rintro _ ⟨rfl⟩
      exact ends setting state value _ same
  · cases tried
    exact nofun
  · cases tried

/-- A cover is made of a node. -/
theorem covered {action : Parse Node} {good : Node → Prop} (ends : Ends action good) :
    Ends (do return { value := ← action }) fun cover : Cover Node => good cover.value :=
  ends.bind fun _ known => .give known

end Ends

/-- What comes out of a step may be an operand. -/
abbrev Operates (action : Parse (Cover Node)) : Prop := Ends action fun cover => cover.value.IsOperand

/-- A name is one. -/
theorem identifier_isIdentifier {liberal : Bool} :
    Ends (identifier liberal) fun node => node.isIdentifier = true := by
  have named : ∀ (mark : Mark) (name : String), Ends (do
      if !liberal && name == "await" && (← get).inAsync then raise mark.pos .awaitInAsync
      next
      finish mark (.identifier name none false)) fun node => node.isIdentifier = true := by
    refine fun mark name => .last fun _ => .guard (.last fun _ => Ends.finish.mono fun node same => ?_)
    rw [Node.isIdentifier, Node.name?, same]
    rfl
  refine .last fun mark => .last fun current => .last fun text => .ite ?_ ?_
  · exact .last fun _ => .guard (.last fun name => named mark name)
  · split
    · exact .ite (.last fun name => named mark name) (.last fun name => named mark name)
    · exact .last fun name => named mark name

theorem literal_composes {rawValue : Option RawValue} (composed : form.isComposed = true) :
    Composes (literal form rawValue) :=
  .last fun _ => .last fun _ => .last fun _ => (Ends.composed composed).bind fun _ kept =>
    .give kept

/-- An expression that begins with a name is an operand. -/
theorem nameExpression_operates {maybeArrow : Bool} :
    Ends (nameExpression rules mark maybeArrow) Node.IsOperand := by
  refine .last fun _ => .last fun _ => .last fun _ => .guard (.last fun _ => .last fun _ => ?_)
  refine identifier_isIdentifier.bind fun id named => ?_
  have grown : ∀ {action : Parse Node}, Ends action (Node.Grows id) →
      Ends action Node.IsOperand := fun grows =>
    grows.mono fun _ grown => grown.operand (.ofName named)
  split
  · exact .last fun _ => .ite (awaitTail_composes.mono fun _ => .ofComposed)
      (grown nameOrArrow_grows)
  · exact grown asyncOrName_grows
  · exact grown nameOrArrow_grows

theorem metaPropertyTail_composes {word : Node} {wanted : String} :
    Composes (metaPropertyTail mark word wanted) :=
  .last fun _ => .guard (.composed rfl)

theorem functionExpression_composes : Composes (functionExpression rules) :=
  .last fun _ => .last fun _ => .last fun _ => .choose fun _ =>
    .ite metaPropertyTail_composes functionTail_composes

theorem newExpression_composes : Composes (newExpression rules) :=
  .last fun _ => .last fun _ => .last fun _ => .ite metaPropertyTail_composes <|
    .last fun _ => .last fun _ => .choose fun _ => .composed rfl

theorem classTail_composes {decorators : List Node} {isStatement optionalId : Bool} :
    Composes (classTail rules mark decorators isStatement optionalId) := by
  refine .last fun _ => .last fun _ => .last fun _ => .last fun _ => .choose fun _ => ?_
  refine .last fun _ => .choose fun _ => .last fun _ => .last fun _ => .composed ?_
  split <;> rfl

theorem classExpression_composes : Composes (classExpression rules) :=
  .last fun _ => .guard (.last fun _ => .last fun _ => classTail_composes)

theorem bindExpression_composes : Composes (bindExpression rules mark) := by
  refine .last fun _ => .last fun callee => ?_
  split
  · exact .composed rfl
  · exact fun _ _ _ _ absent => by cases absent

theorem template_composes : Composes (template rules) :=
  .last fun _ => .last fun _ => .last fun _ => .last fun _ => .last fun _ => .composed rfl

theorem yieldExpression_composes : Composes (yieldExpression rules) :=
  .last fun _ => .last fun _ => .last fun _ => .last fun _ => .ite (.composed rfl)
    (.last fun _ => .last fun _ => .composed rfl)

theorem element_composes : Composes (element rules mark) := by
  have last : ∀ (opening : Node) (children : List Node) (closing : Option Node), Composes (do
      if ← atAngle "<" then raise (← get).lexer.start .adjacentElements
      finish mark (.jsxElement opening children closing)) := fun _ _ _ =>
    .last fun _ => .ite (.last fun _ => .last fun _ => .composed rfl) (.composed rfl)
  refine .nested (.last fun ⟨opening, selfClosing⟩ => .ite (last _ _ _) ?_)
  exact .last fun ⟨children, closing⟩ => .last fun _ => last _ _ _

theorem superExpression_composes : Composes (superExpression mark) := by
  refine .last fun _ => .last fun _ => .guard (.last fun _ => .last fun current => ?_)
  split
  · exact .guard (.composed rfl)
  · exact .composed rfl
  · exact .composed rfl
  · exact .last fun _ => .composed rfl

/-- An item in parentheses grows out of its expression. -/
theorem parenItem_grows : Ends (parenItem rules base mark) (Node.Grows base) := by
  refine .last fun annot => ?_
  split
  · exact (Ends.composed rfl).mono fun _ => .inr
  · exact .give (.inl rfl)

/-- What stands in parentheses is an expression. -/
theorem groupedExpression_expresses {items : List Node} {start stop : Mark}
    (expressions : ∀ item ∈ items, item.IsExpression) :
    Ends (groupedExpression items start stop) Node.IsExpression := by
  unfold groupedExpression
  split
  · exact fun _ _ _ _ absent => by cases absent
  · exact .give (expressions _ List.mem_cons_self)
  · exact .last fun _ => .last fun _ => .guard (.give rfl)

/-- What stands between two parentheses is an expression only if no rest is in it, and nothing is
pending. -/
theorem checkGrouped_settled {parts : ParenParts} :
    Ends (checkGrouped parts) fun _ => parts.pending = none ∧ parts.rest = none := by
  have settled {α : Type} {first second third : Option α}
      (absent : (first <|> second <|> third) = none) : third = none ∧ second = none := by
    cases first <;> cases second <;> simp_all
  unfold checkGrouped
  refine .ite (.last fun _ => .last fun _ => ?_) ?_
  all_goals
    split
    · exact fun _ _ _ _ absent => by cases absent
    · next absent => exact .give (settled absent)

section Circle

variable (expressing : rules.Expressing)

include expressing

/-- An operand is an expression. -/
theorem Rules.Expressing.operand : Ends rules.operand Node.IsExpression := by
  refine expressing.unary.bind fun cover known => ?_
  unfold Cover.settle
  split
  · exact fun _ _ _ _ absent => by cases absent
  · exact .give known.expression

/-- What stands between two parentheses are expressions, unless the last is a rest. -/
theorem parenParts_expresses : Ends (parenParts rules)
    fun parts => parts.rest = none → ∀ item ∈ parts.items, item.IsExpression := by
  refine .bind (.loop (fun gathered => ∀ item ∈ gathered.2.items, item.IsExpression) nofun ?_)
    fun parts (known : parts.rest = none → ∀ item ∈ parts.items, item.IsExpression) =>
      .give fun none item inside => known none item (List.mem_reverse.mp inside)
  rintro ⟨first, parts⟩ known
  have goesOn : Ends (do
      if ← atKind .ellipsis then
        let mark ← mark
        let rest ← parenItem rules (← restElement) mark
        return .done { parts with items := rest :: parts.items, rest := some mark.pos }
      let item ← rules (.assignment false true)
      return .more (false, { parts with
        items := item.value :: parts.items, pending := parts.pending <|> item.pending }))
      (Turned (fun gathered : Bool × ParenParts => ∀ item ∈ gathered.2.items, item.IsExpression)
        fun parts : ParenParts => parts.rest = none → ∀ item ∈ parts.items, item.IsExpression) := by
    refine .last fun _ => .ite ?_ ?_
    · exact .last fun _ => .last fun _ => .last fun _ => .give nofun
    · refine (expressing.cover false true).bind fun item expression => .give ?_
      exact List.forall_mem_cons.mpr ⟨expression, known⟩
  refine .last fun _ => .ite (.give fun _ => known) (.ite ?_ goesOn)
  exact .last fun _ => .last fun _ => .ite (.last fun _ => .give fun _ => known) goesOn

/-- What begins with a parenthesis is an operand. -/
theorem plainParentheses_operates {maybeArrow : Bool} :
    Ends (plainParentheses rules mark maybeArrow) Node.IsOperand := by
  refine .last fun _ => .last fun _ => (parenParts_expresses expressing).bind fun parts known => ?_
  refine .last fun _ => .last fun _ => .last fun _ => .choose fun _ => .ite ?_ ?_
  · exact .last fun _ => arrowTail_composes.mono fun _ => .ofComposed
  · refine checkGrouped_settled.bind fun _ settled => ?_
    exact (groupedExpression_expresses (known settled.2)).bind fun _ expression =>
      .give (Node.IsExpression.grouped expression)

/-- So it is in a language with types. -/
theorem parentheses_operates {maybeArrow : Bool} :
    Ends (parentheses rules mark maybeArrow) Node.IsOperand := by
  refine .last fun _ => .ite (.choose fun _ => .ite ?_ ?_) (plainParentheses_operates expressing)
  · refine .last fun _ => .last fun _ => .last fun _ => .last fun _ => ?_
    exact arrowTail_composes.mono fun _ => .ofComposed
  · refine (plainParentheses_operates expressing).bind fun node operand => .last fun _ => .ite ?_
      (.give operand)
    have arrow : ∀ candidate, Composes (annotatedArrow rules candidate mark) := fun _ =>
      .last fun _ => .last fun _ => arrowTail_composes
    refine .last fun candidate => (arrow candidate).attempt.bind fun tried composed => ?_
    split
    · exact .give (.ofComposed (composed _ rfl))
    · exact .give operand

/-- An expression that begins neither with a string nor with a tag is an operand. -/
theorem plainPrimary_operates : Ends (plainPrimary rules) Node.IsOperand := by
  have composed : ∀ {action : Parse Node}, Composes action → Ends action Node.IsOperand :=
    fun composes => composes.mono fun _ => .ofComposed
  have token : ∀ {mark : Mark} {form : Form}, form.isComposed = true →
      Composes (tokenExpression mark form) := fun composed => .last fun _ => .composed composed
  refine .last fun mark => .last fun _ => .last fun current => ?_
  split
  · exact composed superExpression_composes
  · exact composed (token rfl)
  · exact nameExpression_operates
  · exact nameExpression_operates
  · exact composed (.last fun _ => .last fun _ => .last fun _ => .composed rfl)
  · refine composed (.last fun _ => ?_)
    split <;> exact literal_composes rfl
  · exact composed (.last fun _ => literal_composes rfl)
  · exact composed (.last fun _ => literal_composes rfl)
  · exact composed (token rfl)
  · exact composed (token rfl)
  · exact composed (token rfl)
  · exact parentheses_operates expressing
  · exact composed functionExpression_composes
  · exact composed classExpression_composes
  · exact composed classExpression_composes
  · exact composed newExpression_composes
  · exact composed template_composes
  · exact composed bindExpression_composes
  · exact fun _ _ _ _ absent => by cases absent

/-- Every expression that no operator takes apart is an operand. -/
theorem primary_operates : Operates (primary rules) := by
  refine .last fun current => ?_
  split
  · exact .last fun _ => .last fun _ => .last fun _ => .last fun _ => (Ends.composed rfl).bind
      fun _ known => .give (.ofComposed known)
  · exact .last fun _ => .last fun _ => .last fun _ => (Ends.composed rfl).bind
      fun _ known => .give (.ofComposed known)
  · refine .covered (.last fun _ => ?_)
    exact (literal_composes rfl).bind fun _ known => .give (.ofComposed known)
  · exact .last fun mark => .last fun _ =>
      ((expressing.element mark).mono fun _ => .ofComposed).covered
  · exact (plainPrimary_operates expressing).covered

/-- A chain of members and calls is an operand. -/
theorem accessChain_operates : Operates (accessChain rules) := by
  refine .last fun _ => .last fun _ => expressing.atom.bind fun base operand => .ite (.give operand) ?_
  exact (access_grows.mono fun _ grown => grown.operand operand).covered

omit expressing in
theorem prefixed_composes : Composes (prefixed rules) := by
  have finished : ∀ (isUpdate parenthesized : Bool) (mark : Mark) (operator : String)
      (argument : Node), Composes (do
        let node ← finish mark
          (if isUpdate then .updateExpression operator true argument
            else .unaryExpression operator true argument)
        return node.mapExtra fun extra =>
          { extra with parenthesizedArgument := some parenthesized }) := by
    intro isUpdate parenthesized mark operator argument
    refine (Ends.composed ?_).bind fun node composed => .give composed
    cases isUpdate <;> rfl
  refine .last fun mark => .last fun isUpdate => .last fun operator => .last fun _ =>
    .last fun parenthesized => .last fun argument => .ite ?_ ?_
  · exact .last fun _ => finished _ _ _ _ _
  · exact .last fun _ => .guard (finished _ _ _ _ _)

/-- An operand with its operators is one. -/
theorem unary_operates : Operates (unary rules) := by
  refine .last fun _ => .ite (prefixed_composes.mono fun _ => .ofComposed).covered ?_
  refine .last fun _ => (accessChain_operates expressing).bind fun base operand => .ite
    (.give operand) ?_
  exact (stepsAfter_grows.mono fun _ grown => grown.operand operand).covered

/-- A conditional expression is no bare assignment. -/
theorem conditional_operates {noIn : Bool} : Operates (conditional rules noIn) := by
  have test : Operates (binary rules noIn) := by
    refine .last fun _ => expressing.unary.bind fun base operand => .ite (.give operand) ?_
    exact ((expressing.operators _ _ _ _).mono fun _ grown => grown.operand operand).covered
  refine .last fun _ => test.bind fun test operand => .ite (.give operand) ?_
  refine .last fun _ => .ite (.last fun _ => .last fun _ => .last fun _ => ?_) (.give operand)
  exact (Ends.composed rfl).bind fun _ known => .give (.ofComposed known)

/-- An expression without commas is no pattern. -/
theorem assignment_expresses {noIn inParens : Bool} : Ends (assignment rules noIn inParens)
    fun cover => cover.value.IsExpression := by
  have rest : ∀ mark : Mark, Ends (do
      let left ← conditional rules noIn
      let node ← if inParens then parenItem rules left.value mark else pure left.value
      if (← kind).isAssign then return { value := ← assignmentTail rules mark node noIn }
      else return { left with value := node }) fun cover : Cover Node =>
        cover.value.IsExpression := by
    refine fun mark => (conditional_operates expressing).bind fun left operand => ?_
    have tail : ∀ node : Node, node.IsExpression → Ends (do
        if (← kind).isAssign then return { value := ← assignmentTail rules mark node noIn }
        else return { left with value := node }) fun cover : Cover Node =>
          cover.value.IsExpression := by
      refine fun node expression => .last fun _ => .ite ?_ (.give expression)
      refine assignmentTail_forms.bind fun node ⟨_, _, _, _, same⟩ => .give ?_
      rw [Node.IsExpression, same]
      rfl
    refine .ite (parenItem_grows.bind fun node grown => ?_) (tail left.value operand.expression)
    exact tail node (grown.operand operand).expression
  refine .nested (.last fun _ => .last fun _ => .ite ?_ ?_)
  · exact (yieldExpression_composes.mono fun _ composed =>
      (Node.IsOperand.ofComposed composed).expression).covered
  · exact .last fun mark => .last fun _ => .last fun _ => .guard (rest mark)

/-- An expression with commas is no pattern. -/
theorem coverExpression_expresses {noIn : Bool} : Ends (coverExpression rules noIn)
    fun cover => cover.value.IsExpression := by
  refine .last fun mark => (expressing.cover noIn false).bind fun first expression =>
    .last fun _ => .ite (.last fun _ => .last fun _ => ?_) (.give expression)
  exact Ends.finish.bind fun node same => .give (by rw [Node.IsExpression, same]; rfl)

end Circle

/-- What a rule reads may be an expression or an operand if this holds for the rules that it refers
to. -/
theorem rule_expressing (expressing : rules.Expressing) : (rule rules).Expressing where
  cover _ _ := assignment_expresses expressing
  unary := unary_operates expressing
  atom := primary_operates expressing
  operators _ _ _ _ := operators_grows
  element _ := element_composes

/-- The rules express, however often they refer to each other. -/
theorem rulesWithin_expressing (count : Nat) : (rulesWithin count).Expressing := by
  induction count with
  | zero =>
      have never : ∀ {goal : Goal} {good}, Ends (rulesWithin 0 goal) good :=
        fun _ _ _ _ absent => by cases absent
      exact ⟨fun _ _ => never, never, never, fun _ _ _ _ => never, fun _ => never⟩
  | succ count inductionHypothesis => exact rule_expressing inductionHypothesis

end Grammar

end EcmaSyntax
