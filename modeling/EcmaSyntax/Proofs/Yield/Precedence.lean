import EcmaSyntax.Proofs.Tree.Operand
import EcmaSyntax.Proofs.Yield.Circle

namespace EcmaSyntax

/-- An orderly node whose operator binds tighter than a level if it is a bare operation. -/
structure Node.Tight (followed : Nat → Prop) (level : Nat) (node : Node) : Prop where
  orderly : node.Orderly followed
  above : ∀ inner ∈ node.bareOperator?, ∃ high, levelOf? inner = some high ∧ level < high

/-- All parentheses that directly follow a token which has been read are known to follow. -/
def Within (followed : Nat → Prop) (lexer : Lexer.State) : Prop :=
  ∀ start, ParenthesisAfter lexer.tokens start → followed start

/-- The law that operands are grouped by precedence, whatever stands around them. -/
def Law.grouping (followed : Nat → Prop) (mode : Mode := {}) : Law where
  mode := mode
  good _ _ := Node.Orderly followed
  head _ _ := Node.Orderly followed
  operand _ := Node.Operand followed
  above _ := Node.Tight followed
  within lexer := Within followed lexer ∧ Ascending lexer.settled
  silent untyped := untyped.elim
  made whole _ _ _ headed := by
    refine .ofWhole whole (Form.has_iff.mpr ?_)
    simp only [ite_self]
    exact Form.placed_iff_each.mp (Form.headed_self.mp headed)
  declared same placed := by
    refine .ofWhole (same ▸ rfl) (Form.has_iff.mpr ?_)
    simp only [ite_self]
    exact Form.placed_iff_each.mp placed
  head_of_good orderly := orderly
  lined _ := .free
  whole whole good := .ofWhole (good []) whole
  parenthesized good := .ofParenthesized (good [])
  good_of_operand operand _ := operand.orderly
  good_of_above above _ := above.orderly
  parts orderly := orderly.parts
  redressed orderly redressed placed := by
    refine .ofWhole redressed.isWhole (Form.has_iff.mpr ?_)
    simp only [ite_self]
    have each := orderly.each redressed.isTemplate
    exact Form.placed_iff_each.mp (placed (Form.placed_iff_each.mpr each))
  congr orderly same _ := orderly.congr same
  knows _ _ _ := Layout.knows_free
  earlier traces tracked within :=
    ⟨fun start known => within.1 start (traces.follows tracked known),
      within.2.init (traces.settled tracked)⟩
  ascending := And.right

namespace Grammar

/-- The operators that bind tighter than a level end at a token of this kind. -/
def Kind.Stops (level : Nat) (noIn : Bool) (kind : Kind) : Prop :=
  ∀ high, kind.precedence? = some high → high ≤ level ∨ noIn = true ∧ kind = .kwIn

/-- What the rules of the circle yield is grouped by precedence, and operations end where a token
binds no tighter. -/
structure Rules.Orderly (followed : Nat → Prop) (rules : Rules) : Prop
    extends rules.Lawful (.grouping followed) where
  stops : ∀ left mark level noIn setting state,
    Gives (rules (.operators left mark level noIn)) setting state fun _ after =>
      Kind.Stops level noIn after.lexer.kind

theorem Rules.Orderly.lawful {followed : Nat → Prop} {rules : Rules}
    (orderly : rules.Orderly followed) (mode : Mode) : rules.Lawful (.grouping followed mode) :=
  orderly.toLawful.under mode

variable {followed : Nat → Prop} {mode : Mode} {given : Prop} {rules : Rules} {mark : Mark}
  {node left : Node}

section Exponent

/-- What passes for the base of an exponent is no bare unary operator, except before a
parenthesis. -/
theorem checkExponentBase_yields :
    Yields (.grouping followed mode) given (checkExponentBase left) fun _ =>
      left.isBareUnary = true →
        left.extra.any (fun extra => extra.parenthesizedArgument == some true) = true := by
  unfold checkExponentBase
  split
  · refine .ite (fun _ => .raise) fun guarded => .pure fun _ bare => ?_
    rw [Node.isBareUnary, Node.isParenthesized, Bool.and_eq_true, Bool.not_eq_true'] at bare
    cases extra : left.extra with
    | none => simp [extra] at guarded
    | some extra => simp_all
  · next other =>
      refine .pure fun _ bare => ?_
      rw [Node.isBareUnary, Bool.and_eq_true] at bare
      split at bare
      · next same => exact absurd same (other _ _ _)
      · exact absurd bare.2 (by decide)

end Exponent

section Operation

variable {kind : Kind} {operator : String} {right : Node} {level precedence : Nat} {noIn : Bool}

/-- What stands left of an operator that is read next. -/
structure Leftmost (followed : Nat → Prop) (level : Nat) (noIn : Bool) (next : Kind)
    (left : Node) : Prop where
  orderly : left.Orderly followed
  guarded : left.isBareUnary = true →
    left.extra.any (fun extra => extra.parenthesizedArgument == some true) = true →
    followed left.start
  bound : ∀ inner ∈ left.bareOperator?, ∃ before high, Kind.ofOperator? inner = some before ∧
    before.precedence? = some high ∧ level < high ∧ Kind.Stops (before.rightLevel high) noIn next

theorem Leftmost.ofOperand (operand : left.Operand followed) (next : Kind) :
    Leftmost followed level noIn next left := by
  refine ⟨operand.orderly, operand.guarded, ?_⟩
  rw [operand.whole]
  exact nofun

theorem Leftmost.above {next : Kind} (leftmost : Leftmost followed level noIn next left) :
    Node.Tight followed level left := by
  refine ⟨leftmost.orderly, fun inner bare => ?_⟩
  obtain ⟨before, high, spelled, known, above, -⟩ := leftmost.bound inner bare
  exact ⟨high, (levelOf?_eq spelled).trans known, above⟩

/-- An operation under way: what is known of its left operand. -/
structure Begun (followed : Nat → Prop) (operator : String) (left : Node) : Prop where
  orderly : left.Orderly followed
  guarded : left.isBareUnary = true →
    left.extra.any (fun extra => extra.parenthesizedArgument == some true) = true →
    followed left.start
  binds : ∀ inner ∈ left.bareOperator?, Binds operator inner (groupsRight operator)

/-- An operator that the one before it stops at takes its operation for the left operand. -/
theorem Leftmost.begun (leftmost : Leftmost followed level noIn kind left)
    (spelled : Kind.ofOperator? operator = some kind) (known : kind.precedence? = some precedence)
    (goesOn : ¬(noIn = true ∧ kind = .kwIn)) : Begun followed operator left := by
  refine ⟨leftmost.orderly, leftmost.guarded, fun inner bare => ?_⟩
  obtain ⟨before, high, first, within, -, stops⟩ := leftmost.bound inner bare
  exact .ofBelow spelled known first within ((stops precedence known).resolve_right goesOn)

/-- An operator with its operands is a bare operation. -/
structure Operated (followed : Nat → Prop) (operator : String) (node : Node) : Prop where
  orderly : node.Orderly followed
  bare : node.bareOperator? = some operator
  binary : node.isBareUnary = false

/-- An operation stands leftmost in a looser one. -/
theorem Operated.leftmost {next : Kind} (operated : Operated followed operator node)
    (spelled : Kind.ofOperator? operator = some kind) (known : kind.precedence? = some precedence)
    (above : level < precedence) (stops : Kind.Stops (kind.rightLevel precedence) noIn next) :
    Leftmost followed level noIn next node := by
  refine ⟨operated.orderly, fun bare => absurd bare (by simp [operated.binary]), ?_⟩
  rw [operated.bare]
  rintro _ ⟨rfl⟩
  exact ⟨kind, precedence, spelled, known, above, stops⟩

/-- A binary operation is grouped if its operands are those of its operator. -/
theorem binaryForm_grouped (operands : Operands followed operator left right) :
    (binaryForm kind operator left right).Grouped followed := by
  unfold binaryForm
  split <;> exact operands

theorem binaryForm_children (first : left.Orderly followed) (last : right.Orderly followed) :
    ∀ child ∈ (binaryForm kind operator left right).children, child.Orderly followed := by
  have has : (binaryForm kind operator left right).Has (Node.Orderly followed)
      (Node.Orderly followed) := by
    unfold binaryForm
    split <;> exact ⟨first, last⟩
  exact has.children

/-- What has been made of an operator and its operands is an operation. -/
theorem Operated.ofMade (operands : Operands followed operator left right)
    (first : left.Orderly followed) (last : right.Orderly followed)
    (made : node.form = binaryForm kind operator left right) (plain : node.extra = none) :
    Operated followed operator node := by
  have free : node.isParenthesized = false := by rw [Node.isParenthesized, plain]; rfl
  refine ⟨Node.orderly_iff.mpr ?_, ?_, ?_⟩
  · rw [made]
    exact ⟨binaryForm_grouped operands, binaryForm_children first last⟩
  · unfold binaryForm at made
    split at made <;> simp [Node.bareOperator?, free, made]
  · unfold binaryForm at made
    split at made <;> simp [Node.isBareUnary, made]

variable (orderly : rules.Orderly followed)

include orderly

/-- An operation groups its operands by precedence. -/
theorem operation_yields (spelled : Kind.ofOperator? operator = some kind)
    (known : kind.precedence? = some precedence) :
    Yields (.grouping followed mode) (Begun followed operator left)
      (operation rules left mark kind operator (kind.rightLevel precedence) noIn)
      (Operated followed operator) := by
  have rest : ∀ {given : Prop}, (given → Begun followed operator left) →
      (given → operator = "**" → left.isBareUnary = true → followed left.start) →
      Yields (.grouping followed mode) given (do
        next
        let rightMark ← Grammar.mark
        let right ← nested do
          let operand ← rules.operand
          rules (.operators operand rightMark (kind.rightLevel precedence) noIn)
        finish mark (binaryForm kind operator left right)) (Operated followed operator) := by
    intro given begun base
    refine .step fun _ => .step fun _ =>
      (rightOperand_yields (orderly.lawful mode)).bind fun right => ?_
    refine finish_made.refine ?_
    rintro node ⟨holds, right⟩ ⟨made, -, plain⟩
    refine .ofMade ⟨?_, base holds, (begun holds).binds, fun inner bare => ?_⟩ (begun holds).orderly
      right.orderly made plain
    · rw [levelOf?_eq spelled, known]
      rfl
    · obtain ⟨high, within, above⟩ := right.above inner bare
      exact .ofAbove spelled known within above
  refine .ite (fun same => ?_) fun other => rest id fun _ same => ?_
  · exact checkExponentBase_yields.bind fun _ => rest And.left fun holds _ bare =>
      holds.1.guarded bare (holds.2 bare)
  · exact absurd (beq_iff_eq.mpr same) other

/-- An operation ends where its right operand does. -/
theorem operation_stops {setting : Setting} {state : State} :
    Gives (operation rules left mark kind operator level noIn) setting state fun _ after =>
      Kind.Stops level noIn after.lexer.kind := by
  have rest : ∀ state, Gives (do
      next
      let rightMark ← Grammar.mark
      let right ← nested do
        let operand ← rules.operand
        rules (.operators operand rightMark level noIn)
      finish mark (binaryForm kind operator left right)) setting state fun _ after =>
      Kind.Stops level noIn after.lexer.kind := by
    refine fun _ => .last fun _ _ => .last fun rightMark _ => Gives.bind_iff.mpr ?_
    refine (gives_nested (fun _ lexer => Kind.Stops level noIn lexer.kind) fun _ _ =>
      .last fun operand _ => orderly.stops operand rightMark level noIn setting _).mono
        fun _ _ stops => ?_
    exact finish_aside.mono fun _ _ aside => aside.lexer.kind ▸ stops
  exact gives_ite (fun _ => .last fun _ _ => rest _) fun _ => rest _

omit orderly in
/-- The operations after an operand stop before an operator that binds too loosely. -/
theorem operators_stops {setting : Setting} {state : State} :
    Gives (operators rules left mark level noIn) setting state fun _ after =>
      Kind.Stops level noIn after.lexer.kind := by
  refine gives_loop (fun _ _ => True) (fun _ after => Kind.Stops level noIn after.lexer.kind)
    (fun gathered state _ => ?_) trivial
  rw [Gives.bind_iff, gives_kind]
  split
  · next none => exact gives_pure.mpr fun high known => by simp [none] at known
  · next precedence known =>
      refine gives_ite (fun ends => gives_pure.mpr fun high same => ?_) fun _ => ?_
      · rw [known] at same
        cases same
        simpa using ends
      · exact .last fun _ _ => .last fun _ _ => gives_pure.mpr trivial

/-- An operation is a left operand for what follows it. -/
theorem operation_leftmost {setting : Setting} {state : State}
    (spelled : Kind.ofOperator? operator = some kind) (known : kind.precedence? = some precedence)
    (above : level < precedence) (under : state.Under (.grouping followed mode) setting) :
    Gives (operation rules left mark kind operator (kind.rightLevel precedence) noIn) setting state
      fun node after => (Law.grouping followed mode).within after.lexer →
        Waiting (.grouping followed mode) state → Begun followed operator left →
          Leftmost followed level noIn after.lexer.kind node ∧
            Waiting (.grouping followed mode) after ∧ after.labels = state.labels := by
  intro node after ends within waiting begun
  exact ((operation_yields orderly spelled known).good setting state under node after ends within
    .anywhere waiting begun).imp_left fun operated =>
      operated.leftmost spelled known above (operation_stops orderly node after ends)

/-- Between two turns the left operand suits the token that follows it: each operation ends where
its right operand does, and that ends where an operator binds no tighter. -/
theorem operators_yields (operand : given → left.Operand followed) :
    Yields (.grouping followed mode) given (operators rules left mark level noIn)
      (Node.Tight followed level) where
  steps := operators_steps orderly.toLawful
  good setting state under := by
    let law := Law.grouping followed mode
    refine gives_loop
      (fun left now => now.Under law setting ∧ (law.within now.lexer → Stands none state →
        Waiting law state → given → Leftmost followed level noIn now.lexer.kind left ∧
          Waiting law now ∧ now.labels = state.labels))
      (fun (node : Node) after => law.within after.lexer → Stands none state →
        Waiting law state → given →
          node.Tight followed level ∧ Waiting law after ∧ after.labels = state.labels)
      ?_ ⟨under, fun _ _ waiting known => ⟨.ofOperand (operand known) _, waiting, rfl⟩⟩
    rintro left now ⟨under, begun⟩
    have done : ∀ within stands waiting known, left.Tight followed level ∧
        Waiting law now ∧ now.labels = state.labels :=
      fun within stands waiting known => (begun within stands waiting known).imp_left Leftmost.above
    rw [Gives.bind_iff, gives_kind]
    split
    · exact gives_pure.mpr done
    next precedence known =>
    refine gives_ite (fun _ => gives_pure.mpr done) fun goesOn => ?_
    rw [Bool.or_eq_true, decide_eq_true_iff, Bool.and_eq_true, beq_iff_eq, not_or,
      Nat.not_le] at goesOn
    obtain ⟨word, same, spelled⟩ := (under.tracked.written now.lexer.token
      (List.mem_append_right _ (List.mem_singleton_self _))).spelled
      (show now.lexer.kind.precedence?.isSome by rw [known]; rfl)
    have written : now.lexer.value.text?.getD "" = word := by
      rw [show now.lexer.value = .text word from same]
      rfl
    rw [Gives.bind_iff, gives_valueText, Gives.bind_iff, written]
    intro node after ends
    have steps : Steps (operation rules left mark now.lexer.kind word
      (now.lexer.kind.rightLevel precedence) noIn) := operation_steps orderly.toLawful
    have traces := steps.traces setting now node after ends
    refine gives_pure.mpr ⟨steps.under under node after ends, fun within stands waiting given => ?_⟩
    obtain ⟨leftmost, ordered, labels⟩ :=
      begun (law.earlier traces under.tracked within) stands waiting given
    rw [← labels]
    exact operation_leftmost orderly spelled known goesOn.1 under node after ends within ordered
      (leftmost.begun spelled known goesOn.2)

end Operation

/-- A parenthesis that opens after the current token follows it. -/
theorem next_opens {setting : Setting} {state : State}
    (tracked : state.lexer.Tracked setting.toSetting) :
    Gives next setting state fun _ after => after.lexer.kind = .parenL →
      ParenthesisAfter after.lexer.tokens state.lexer.start := by
  intro _ after ends opens
  unfold Grammar.next lex at ends
  split at ends <;> cases ends
  next lexer read =>
    obtain ⟨tokens, -⟩ := Lexer.next_tokens tracked read
    refine ⟨(state.lexer.entries.filterMap Entry.token?).reverse, state.lexer.token, lexer.token,
      [], ?_, rfl, opens⟩
    rw [show State.lexer { state with lexer := lexer } = lexer from rfl, tokens,
      Lexer.State.tokens, List.append_assoc]
    rfl

/-- A unary operator, and whether a parenthesis opens after it. -/
theorem prefixHead_yields :
    Yields (.grouping followed mode) given (do
      let mark ← Grammar.mark
      let isUpdate ← atKind .incDec
      let operator ← valueText
      next
      let parenthesized ← atKind .parenL
      return (mark, isUpdate, operator, parenthesized))
      fun head => head.2.2.2 = true → followed head.1.pos where
  steps := (inferInstance : Plain _).toSteps
  good setting state under := by
    simp only [Gives.bind_iff, gives_mark, gives_atKind, gives_valueText, gives_pure]
    intro _ after ends within _ waiting _
    have plain : Plain next := inferInstance
    exact ⟨fun found => within.1 _ (next_opens under.tracked _ after ends (beq_iff_eq.mp found)),
      by rwa [Waiting, plain.decorators setting state _ after ends],
      plain.labels setting state _ after ends⟩

/-- What follows a unary operator is given what its first token may open. -/
theorem YieldsAt.afterPrefix {rest : Mark → Bool → String → Bool → Parse Node} {good : Node → Prop}
    (goesOn : ∀ mark isUpdate operator parenthesized,
      Yields (.grouping followed mode) (given ∧ (parenthesized = true → followed mark.pos))
        (rest mark isUpdate operator parenthesized) good) :
    Yields (.grouping followed mode) given (do
      let mark ← Grammar.mark
      let isUpdate ← atKind .incDec
      let operator ← valueText
      next
      let parenthesized ← atKind .parenL
      rest mark isUpdate operator parenthesized) good := by
  have grouped := (prefixHead_yields : Yields (.grouping followed mode) given _ _).bind fun head =>
    goesOn head.1 head.2.1 head.2.2.1 head.2.2.2
  simpa only [bind_assoc, pure_bind] using grouped

/-- A unary operator with its operand keeps whether the operand is in parentheses. -/
theorem prefixed_yields (orderly : rules.Orderly followed) :
    Yields (.grouping followed mode) given (prefixed rules) (Node.Operand followed) := by
  refine .afterPrefix fun mark isUpdate operator parenthesized =>
    (YieldsAt.nested (operand_yields (orderly.lawful mode))).bind fun argument => ?_
  have rest : Yields (.grouping followed mode)
      ((given ∧ (parenthesized = true → followed mark.pos)) ∧ argument.Operand followed) (do
        let node ← finish mark
          (if isUpdate then .updateExpression operator true argument
            else .unaryExpression operator true argument)
        return node.mapExtra fun extra =>
          { extra with parenthesizedArgument := some parenthesized })
      (Node.Operand followed) := by
    refine finish_made.bind fun node => .pure ?_
    rintro ⟨⟨⟨-, opens⟩, operand⟩, made, start, plain⟩
    cases isUpdate with
    | true =>
        have whole : node.form.isWhole = true := by rw [made]; rfl
        have has : node.form.Has (Node.Orderly followed) (Node.Orderly followed) := by
          rw [made]
          exact operand.orderly
        exact .ofWhole (.ofWhole whole has) whole
    | false =>
        refine .ofUnary operand.orderly made fun guarded => ?_
        change followed node.start
        rw [start]
        exact opens (by simpa [Node.mapExtra, plain] using guarded)
  exact .ite (fun _ => .step fun _ => rest) fun _ => .step fun _ => .guard rest

/-- A rule yields what it should if the rules that it refers to do. -/
theorem rule_orderly (orderly : rules.Orderly followed) (echoing : rules.Echoing)
    (expressing : rules.Expressing) : (rule rules).Orderly followed where
  toLawful := rule_lawful orderly.toLawful echoing expressing fun _ =>
    ⟨fun _ _ _ _ => operators_yields orderly id, prefixed_yields orderly⟩
  stops _ _ _ _ _ _ := operators_stops

/-- The rules are orderly, however often they refer to each other. -/
theorem rulesWithin_orderly (count : Nat) : (rulesWithin count).Orderly followed := by
  induction count with
  | zero => exact ⟨rulesWithin_zero_lawful, fun _ _ _ _ _ _ _ _ absent => by cases absent⟩
  | succ count inductionHypothesis =>
      exact rule_orderly inductionHypothesis (rulesWithin_echoing count)
        (rulesWithin_expressing count)

end Grammar

end EcmaSyntax
