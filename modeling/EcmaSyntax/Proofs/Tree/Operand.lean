import EcmaSyntax.Proofs.Tree.All
import EcmaSyntax.Token.Basic

namespace EcmaSyntax

/-- The kind of the binary operator that a word spells. -/
def Kind.ofOperator? : String → Option Kind
  | "||" => some .logicalOr
  | "&&" => some .logicalAnd
  | "|" => some .bitwiseOr
  | "^" => some .bitwiseXor
  | "&" => some .bitwiseAnd
  | "==" | "!=" | "===" | "!==" => some .equality
  | "<" | ">" | "<=" | ">=" | "<==" | ">==" => some .relational
  | "<<" | ">>" | ">>>" => some .bitShift
  | "+" | "-" => some .plusMin
  | "%" => some .modulo
  | "*" => some .star
  | "/" => some .slash
  | "**" | "%*" => some .exponent
  | "in" => some .kwIn
  | "instanceof" => some .kwInstanceof
  | _ => none

/-- The precedence of the binary operator that a word spells. -/
def levelOf? (operator : String) : Option Nat := (Kind.ofOperator? operator).bind Kind.precedence?

/-- The binary operator that a word spells groups to the right. -/
def groupsRight (operator : String) : Bool :=
  (Kind.ofOperator? operator).any Kind.rightAssociative

/-- The inner operator has a precedence as high as the outer one, or a higher one. -/
def Binds (outer inner : String) (higher : Bool) : Prop :=
  ∃ low high, levelOf? outer = some low ∧ levelOf? inner = some high ∧
    if higher then low < high else low ≤ high

namespace Node

/-- The binary operator of a node that is not in parentheses. -/
def bareOperator? (node : Node) : Option String :=
  if node.isParenthesized then none
  else
    match node.form with
    | .binaryExpression operator _ _ => some operator
    | .logicalExpression operator _ _ => some operator
    | _ => none

/-- The node is a unary operator with its operand, not in parentheses. -/
def isBareUnary (node : Node) : Bool :=
  !node.isParenthesized &&
    match node.form with
    | .unaryExpression .. => true
    | _ => false

end Node

/-- The operands of a binary operator are grouped by precedence. What stands left of an exponent
is a bare unary operator only where the token that begins it is followed as given. -/
structure Operands (followed : Nat → Prop) (operator : String) (left right : Node) : Prop where
  known : (levelOf? operator).isSome
  base : operator = "**" → left.isBareUnary = true → followed left.start
  left : ∀ inner ∈ left.bareOperator?, Binds operator inner (groupsRight operator)
  right : ∀ inner ∈ right.bareOperator?, Binds operator inner (!groupsRight operator)

/-- If a form is a binary operator, its operands are grouped by precedence. -/
def Form.Grouped (followed : Nat → Prop) : Form → Prop
  | .binaryExpression operator left right => Operands followed operator left right
  | .logicalExpression operator left right => Operands followed operator left right
  | _ => True

/-- An expression that no operator takes apart is grouped in any way. -/
theorem Form.Grouped.ofWhole {followed : Nat → Prop} {form : Form}
    (whole : form.isWhole = true) : form.Grouped followed := by
  cases form <;> trivial

/-- In all of a tree operands are grouped by precedence. -/
def Node.Orderly (followed : Nat → Prop) (node : Node) : Prop :=
  ∀ inner ∈ node.walk, inner.form.Grouped followed

/-- A parenthesis opens directly after the token that begins at an offset. -/
def ParenthesisAfter (tokens : List Token) (start : Nat) : Prop :=
  ∃ before operator parenthesis after, tokens = before ++ operator :: parenthesis :: after ∧
    operator.start = start ∧ parenthesis.kind = .parenL

/-- A token that binds two operands spells its operator. -/
def Token.Spelled (token : Token) : Prop :=
  token.kind.precedence?.isSome →
    ∃ word, token.value = .text word ∧ Kind.ofOperator? word = some token.kind

/-- The operators of the language that tokens of a kind stand for. -/
def Kind.operators : Kind → List String
  | .eq => ["="]
  | .assign => ["+=", "-=", "*=", "/=", "%=", "**=", "<<=", ">>=", ">>>=", "&=", "|=", "^="]
  | .incDec => ["++", "--"]
  | .prefixOp => ["!", "~"]
  | .logicalOr => ["||"]
  | .logicalAnd => ["&&"]
  | .bitwiseOr => ["|"]
  | .bitwiseXor => ["^"]
  | .bitwiseAnd => ["&"]
  | .equality => ["==", "!=", "===", "!=="]
  | .relational => ["<", ">", "<=", ">="]
  | .bitShift => ["<<", ">>", ">>>"]
  | .plusMin => ["+", "-"]
  | .modulo => ["%"]
  | .star => ["*"]
  | .slash => ["/"]
  | .exponent => ["**"]
  | .kwIn => ["in"]
  | .kwInstanceof => ["instanceof"]
  | _ => []

/-- What is read as one operator of a kind, although the language has no such operator. -/
def Kind.misread : Kind → List String
  | .assign => ["%*="]
  | .exponent => ["%*"]
  | .relational => ["<==", ">=="]
  | _ => []

/-- A token that stands for an operator has the text of one, or is misread. -/
def Token.Written (token : Token) : Prop :=
  token.kind.operators ≠ [] →
    ∃ word, token.value = .text word ∧ word ∈ token.kind.operators ++ token.kind.misread

/-- What binds two operands stands for an operator. -/
theorem Kind.operators_ne_nil {kind : Kind} (binds : kind.precedence?.isSome = true) :
    kind.operators ≠ [] := by
  cases kind <;> simp [Kind.precedence?, Kind.traits, Kind.operators] at binds ⊢

/-- A binary operator is spelled by the texts that are read as it, and by no others. -/
theorem Kind.ofOperator?_eq_some {kind : Kind} {word : String}
    (binds : kind.precedence?.isSome = true) :
    Kind.ofOperator? word = some kind ↔ word ∈ kind.operators ++ kind.misread := by
  constructor
  · unfold Kind.ofOperator?
    split <;> rintro ⟨⟩ <;> decide
  · have each : kind.precedence?.isSome = true →
        ∀ word ∈ kind.operators ++ kind.misread, Kind.ofOperator? word = some kind := by
      cases kind <;> decide
    exact each binds word

/-- A token that binds two operands spells its operator if it has the text of one. -/
theorem Token.Written.spelled {token : Token} (written : token.Written) : token.Spelled := by
  intro binds
  obtain ⟨word, text, among⟩ := written (Kind.operators_ne_nil binds)
  exact ⟨word, text, (Kind.ofOperator?_eq_some binds).mpr among⟩

namespace Kind

variable {kind : Kind} {level : Nat}

/-- Only what binds tightest groups to the right. -/
theorem rightAssociative_iff (known : kind.precedence? = some level) :
    kind.rightAssociative = true ↔ level = 11 := by
  cases kind <;> simp [precedence?, rightAssociative, traits] at known ⊢ <;> omega

/-- There are eleven levels of precedence. -/
theorem precedence?_bounds (known : kind.precedence? = some level) : 1 ≤ level ∧ level ≤ 11 := by
  cases kind <;> simp [precedence?, traits] at known <;> omega

/-- The level above which the right operand of an operator binds. -/
def rightLevel (kind : Kind) (level : Nat) : Nat :=
  if kind.rightAssociative then level - 1 else level

end Kind

section Binds

variable {kind : Kind} {outer inner : String} {low high : Nat}

/-- The level of an operator is that of its kind. -/
theorem levelOf?_eq {operator : String} (spelled : Kind.ofOperator? operator = some kind) :
    levelOf? operator = kind.precedence? := by
  rw [levelOf?, spelled, Option.bind_some]

/-- An operator groups to the right if its kind does. -/
theorem groupsRight_eq {operator : String} (spelled : Kind.ofOperator? operator = some kind) :
    groupsRight operator = kind.rightAssociative := by
  rw [groupsRight, spelled, Option.any_some]

/-- What binds above the right level of an operator may stand right of it. -/
theorem Binds.ofAbove (spelled : Kind.ofOperator? outer = some kind)
    (known : kind.precedence? = some low) (within : levelOf? inner = some high)
    (above : kind.rightLevel low < high) : Binds outer inner (!groupsRight outer) := by
  refine ⟨low, high, (levelOf?_eq spelled).trans known, within, ?_⟩
  have positive := (Kind.precedence?_bounds known).1
  rw [groupsRight_eq spelled]
  unfold Kind.rightLevel at above
  cases right : kind.rightAssociative <;> simp [right] at above ⊢ <;> omega

/-- An operator that binds no tighter than the right level of the one before it takes the
operation of that one for its left operand. -/
theorem Binds.ofBelow {before : Kind} (spelled : Kind.ofOperator? outer = some kind)
    (known : kind.precedence? = some low) (first : Kind.ofOperator? inner = some before)
    (within : before.precedence? = some high) (below : low ≤ before.rightLevel high) :
    Binds outer inner (groupsRight outer) := by
  refine ⟨low, high, (levelOf?_eq spelled).trans known, (levelOf?_eq first).trans within, ?_⟩
  have right := Kind.rightAssociative_iff known
  have earlier := Kind.rightAssociative_iff within
  have bound := (Kind.precedence?_bounds within).2
  rw [groupsRight_eq spelled]
  unfold Kind.rightLevel at below
  split
  · next grouping =>
      -- The operator would bind tightest, and so would the one before it, which groups right.
      have tightest := right.mp grouping
      split at below
      · omega
      · next other =>
          have : high = 11 := by omega
          exact absurd (earlier.mpr this) other
  · split at below <;> omega

end Binds

namespace Node

variable {followed : Nat → Prop} {node : Node}

/-- A tree is orderly if its root is and if the trees below it are. -/
theorem orderly_iff : node.Orderly followed ↔
    node.form.Grouped followed ∧ ∀ child ∈ node.form.children, child.Orderly followed := by
  unfold Orderly
  rw [walk_eq]
  simp only [List.mem_cons, List.mem_flatMap, forall_eq_or_imp, forall_exists_index, and_imp]
  exact and_congr_right' ⟨fun all child member inner below => all inner child member below,
    fun all inner child member below => all child member inner below⟩

/-- All that an orderly node consists of is orderly, unless it is a template. -/
theorem Orderly.each (orderly : node.Orderly followed) (other : node.form.isTemplate = false) :
    Field.Each (fun _ => Orderly followed) node.form.fields :=
  Form.each_of_children other (orderly_iff.mp orderly).2

/-- The nodes are orderly that an orderly node consists of. -/
theorem Orderly.parts (orderly : node.Orderly followed) (spine : node.form.isSpine = true) :
    node.form.Has (Orderly followed) (Orderly followed) :=
  Form.has_of_children spine (orderly_iff.mp orderly).2

/-- Whether a tree is orderly does not depend on how and where its root was written. -/
theorem Orderly.congr {other : Node} (orderly : node.Orderly followed)
    (same : other.form = node.form) : other.Orderly followed := by
  rw [orderly_iff, same, ← orderly_iff]
  exact orderly

/-- A node that may be an operand of any operator: it is no bare operation itself, and if it is a
bare unary operator of which a parenthesis is the operand, the token after it is known. -/
structure Operand (followed : Nat → Prop) (node : Node) : Prop where
  orderly : node.Orderly followed
  whole : node.bareOperator? = none
  guarded : node.isBareUnary = true →
    node.extra.any (fun extra => extra.parenthesizedArgument == some true) = true →
    followed node.start

/-- A node of most forms is orderly if the nodes are that it consists of. -/
theorem Orderly.ofWhole (whole : node.form.isWhole = true)
    (all : node.form.Has (Orderly followed) (Orderly followed)) : node.Orderly followed :=
  orderly_iff.mpr ⟨.ofWhole whole, all.children⟩

/-- Most forms are operands. -/
theorem Operand.ofWhole (orderly : node.Orderly followed) (whole : node.form.isWhole = true) :
    node.Operand followed := by
  refine ⟨orderly, ?_, ?_⟩
  · unfold bareOperator?
    split
    · rfl
    · split <;> simp_all [Form.isWhole]
  · intro bare
    unfold isBareUnary at bare
    split at bare <;> simp_all [Form.isWhole]

/-- A unary operator with its operand is an operand itself. -/
theorem Operand.ofUnary {operator : String} {isPrefix : Bool} {argument : Node}
    (orderly : argument.Orderly followed)
    (made : node.form = .unaryExpression operator isPrefix argument)
    (guarded : node.extra.any (fun extra => extra.parenthesizedArgument == some true) = true →
      followed node.start) : node.Operand followed := by
  refine ⟨orderly_iff.mpr ?_, ?_, fun _ => guarded⟩
  · rw [made]
    have has : (Form.unaryExpression operator isPrefix argument).Has (Orderly followed)
      (Orderly followed) := orderly
    exact ⟨trivial, has.children⟩
  · rw [bareOperator?, made]
    split <;> rfl

/-- What stands in parentheses is an operand. -/
theorem Operand.ofParenthesized (orderly : node.Orderly followed)
    (parenthesized : node.isParenthesized = true) : node.Operand followed := by
  refine ⟨orderly, by rw [bareOperator?, if_pos parenthesized], ?_⟩
  intro bare
  rw [isBareUnary, parenthesized] at bare
  exact absurd bare (by simp)

end Node

end EcmaSyntax
