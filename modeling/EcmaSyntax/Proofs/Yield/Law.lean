/-
This file says what may be asked of the nodes that a parse yields.
-/

import EcmaSyntax.Proofs.Tree.Layout

namespace EcmaSyntax

namespace Form

/-- A node of this form is no jump, and no jump may be aimed at it, and all code in it is of the
same mode. Whether it is an operation of one of the operators that are grouped does not matter for
jumps, but such forms are left out. -/
def isUniform : Form → Bool
  | .breakStatement .. | .continueStatement .. => false
  | form => form.isWhole && !form.isAim && form.isSteady

/-- Besides, it does not matter on which lines a node of this form stands. -/
def isSimple (form : Form) : Bool := form.isUniform && form.isUnlaid

/-- Besides, a node of this form is permitted everywhere. -/
def isPlain (form : Form) : Bool := form.isSimple && form.isFree

section Simple

variable {form : Form} {enclosures : List Enclosure}

theorem isWhole_of_isUniform (uniform : form.isUniform = true) : form.isWhole = true := by
  cases form <;> first | rfl | cases uniform

theorem jumps_of_isUniform (uniform : form.isUniform = true) : form.Jumps enclosures := by
  cases form <;> trivial

theorem isAim_of_isUniform (uniform : form.isUniform = true) : form.isAim = false := by
  cases form <;> first | rfl | cases uniform

theorem isSteady_of_isUniform (uniform : form.isUniform = true) : form.isSteady = true := by
  cases form <;> first | rfl | cases uniform

/-- A simple form is uniform. -/
theorem isUniform_of_isSimple (simple : form.isSimple = true) : form.isUniform = true :=
  (Bool.and_eq_true_iff.mp simple).1

theorem isUnlaid_of_isSimple (simple : form.isSimple = true) : form.isUnlaid = true :=
  (Bool.and_eq_true_iff.mp simple).2

theorem isWhole_of_isSimple (simple : form.isSimple = true) : form.isWhole = true :=
  isWhole_of_isUniform (isUniform_of_isSimple simple)

/-- A plain form is simple. -/
theorem isSimple_of_isPlain (plain : form.isPlain = true) : form.isSimple = true :=
  (Bool.and_eq_true_iff.mp plain).1

theorem isFree_of_isPlain (plain : form.isPlain = true) : form.isFree = true :=
  (Bool.and_eq_true_iff.mp plain).2

/-- What lies along the spine of a pattern is simple. -/
theorem isSimple_of_isSpine (spine : form.isSpine = true) : form.isSimple = true := by
  cases form <;> first | rfl | cases spine

/-- What stands around the nodes of such a form is what stands around the form, but for the block
of an expression that is one. -/
theorem placed_iff_has {good : Mode → List Enclosure → Node → Prop} {mode : Mode}
    (uniform : form.isUniform = true) : form.Placed good mode enclosures ↔
      form.Has (good mode enclosures) (good mode []) := by
  rw [placed_iff_around (isSteady_of_isUniform uniform), around_has (isAim_of_isUniform uniform)]

end Simple

section Function

variable {form : Form} {function : FunctionForm} {heading : ClassForm}
  {enclosures : List Enclosure}

theorem isWhole_of_function (same : form.function? = some function) : form.isWhole = true := by
  cases form <;> first | rfl | cases same

theorem isOpen_of_function (same : form.function? = some function) : form.isOpen = true := by
  cases form <;> first | rfl | cases same

theorem isSpelled_of_function (same : form.function? = some function) : form.isSpelled = false := by
  cases form <;> first | rfl | cases same

theorem jumps_of_function (same : form.function? = some function) : form.Jumps enclosures := by
  cases form <;> trivial

theorem isWhole_of_class (same : form.class? = some heading) : form.isWhole = true := by
  cases form <;> first | rfl | cases same

theorem jumps_of_class (same : form.class? = some heading) : form.Jumps enclosures := by
  cases form <;> trivial

theorem isUnlaid_of_class (same : form.class? = some heading) : form.isUnlaid = true := by
  cases form <;> first | rfl | cases same

end Function

end Form

/-- A function stands on its lines as it has to if its words do. -/
theorem Node.Lined.ofFunction {layout : Layout} {mode : Mode} {node : Node}
    {function : FunctionForm} (same : node.form.function? = some function)
    (linked : node.form.Linked layout node.start) : node.Lined layout mode :=
  ⟨.ofOpen (Form.isOpen_of_function same), linked,
    .ofUnspelled (Form.isSpelled_of_function same)⟩

/-- A condition on nodes that depends on the mode of the code and on what stands around them, and
that most nodes fulfil as soon as the nodes do that they consist of, with what is known of a parse
that yields them. -/
structure Law where
  /-- The mode of the code that the law is applied to. -/
  mode : Mode := {}
  /-- What the law asks of the lines that nodes stand on. -/
  layout : Layout := .free
  /-- The law only speaks of texts in a language without types. -/
  untyped : Prop := False
  /-- The condition itself. -/
  good : Mode → List Enclosure → Node → Prop
  /-- A node may be the head of a loop. -/
  head : Mode → List Enclosure → Node → Prop
  /-- A node may be an operand of any operator. -/
  operand : Mode → Node → Prop
  /-- A node may be the right operand of an operator of a level. -/
  above : Mode → Nat → Node → Prop
  /-- The text that is read is the one that the condition speaks of. -/
  speaks : Lexer.Setting → Prop := fun _ => True
  /-- The tokens that have been read are among those that the condition speaks of. -/
  within : Lexer.State → Prop
  silent {setting : Lexer.Setting} : untyped → speaks setting → setting.flow = false
  made {mode : Mode} {enclosures : List Enclosure} {node : Node} : node.form.isWhole = true →
    node.form.Jumps enclosures → node.form.Permitted untyped mode → node.Lined layout mode →
    node.form.Headed head good mode enclosures → good mode enclosures node
  declared {mode : Mode} {enclosures : List Enclosure} {node : Node} {kind : VariableKind}
    {declarations : List Node} : node.form = .variableDeclaration kind declarations →
    node.form.Placed good mode enclosures → head mode enclosures node
  head_of_good {mode : Mode} {enclosures : List Enclosure} {node : Node} :
    good mode enclosures node → head mode enclosures node
  lined {mode : Mode} {enclosures : List Enclosure} {node : Node} :
    good mode enclosures node → node.Lined layout mode
  whole {mode : Mode} {node : Node} : node.form.isWhole = true →
    (∀ enclosures, good mode enclosures node) → operand mode node
  parenthesized {mode : Mode} {node : Node} : (∀ enclosures, good mode enclosures node) →
    node.isParenthesized = true → operand mode node
  good_of_operand {mode : Mode} {node : Node} : operand mode node →
    ∀ enclosures, good mode enclosures node
  good_of_above {mode : Mode} {level : Nat} {node : Node} : above mode level node →
    ∀ enclosures, good mode enclosures node
  parts {mode : Mode} {enclosures : List Enclosure} {node : Node} : good mode enclosures node →
    node.form.isSpine = true → node.form.Has (good mode enclosures) (good mode [])
  redressed {mode : Mode} {enclosures : List Enclosure} {node other : Node} :
    good mode enclosures node → node.form.Redressed other.form →
    (node.form.Placed good mode enclosures → other.form.Placed good mode enclosures) →
    good mode enclosures other
  congr {mode : Mode} {enclosures : List Enclosure} {node other : Node} :
    good mode enclosures node → other.form = node.form → other.Lined layout mode →
    good mode enclosures other
  knows {setting : Lexer.Setting} {lexer : Lexer.State} : speaks setting →
    lexer.Tracked setting → within lexer → layout.Knows setting lexer
  earlier {setting : Lexer.Setting} {first last : Lexer.State} : first.Traces setting last →
    first.Tracked setting → within last → within first
  ascending {lexer : Lexer.State} : within lexer → Ascending lexer.settled

namespace Law

/-- The law for code of another mode. -/
def under (law : Law) (mode : Mode) : Law := { law with mode := mode }

variable {law : Law} {mode : Mode} {enclosures : List Enclosure} {node : Node}

/-- A node is good if all nodes are that it consists of, and if it is where it may be. -/
theorem placed (whole : node.form.isWhole = true) (jumps : node.form.Jumps enclosures)
    (permitted : node.form.Permitted law.untyped mode) (lined : node.Lined law.layout mode)
    (placed : node.form.Placed law.good mode enclosures) : law.good mode enclosures node :=
  law.made whole jumps permitted lined (placed.headed law.head_of_good)

end Law

namespace Node

/-- A node is as a law asks, given what stands around it. -/
def Follows (law : Law) (enclosures : List Enclosure) (node : Node) : Prop :=
  law.good law.mode enclosures node

/-- A node is as a law asks, whatever stands around it. -/
def Lawful (law : Law) (node : Node) : Prop := ∀ enclosures, node.Follows law enclosures

/-- A node is as a law asks of the head of a loop, whatever stands around it. -/
def Heads (law : Law) (node : Node) : Prop := ∀ enclosures, law.head law.mode enclosures node

/-- A node is as a law asks of an operand. -/
def Apt (law : Law) (node : Node) : Prop := law.operand law.mode node

/-- A node is as a law asks of the right operand of an operator of a level. -/
def Above (law : Law) (level : Nat) (node : Node) : Prop := law.above law.mode level node

/-- A node is as a law asks if nothing stands around it. -/
abbrev Enclosed (law : Law) (node : Node) : Prop := node.Follows law []

/-- A node is as a law asks of code of some mode. -/
def Somewhere (law : Law) (node : Node) : Prop := ∃ mode, node.Lawful (law.under mode)

end Node

/-- The nodes that a form consists of are as a law asks. -/
abbrev Form.Lawful (law : Law) (form : Form) : Prop :=
  form.Has (Node.Lawful law) (Node.Enclosed law)

/-- The nodes that a function consists of are as a law asks, and what it binds is permitted. -/
structure FunctionForm.Lawful (law : Law) (isArrow : Bool) (function : FunctionForm) : Prop where
  has : function.Has (Node.Lawful law) (Node.Enclosed (law.under (law.mode.inside function)))
  permitted : function.Permitted law.mode isArrow

/-- The nodes that a class consists of are as a law asks, and its name is permitted. -/
structure ClassForm.Lawful (law : Law) (heading : ClassForm) : Prop where
  has : heading.Has (Node.Somewhere law) (Node.Lawful law)
    (Node.Lawful (law.under law.mode.strictly))
  named : heading.Named law.mode

namespace Node

variable {law : Law} {node other : Node} {level : Nat} {enclosures : List Enclosure}

/-- What is apt is lawful. -/
theorem Apt.lawful (apt : node.Apt law) : node.Lawful law := law.good_of_operand apt

/-- What binds tighter than a level is lawful. -/
theorem Above.lawful (above : node.Above law level) : node.Lawful law := law.good_of_above above

/-- What is lawful may head a loop. -/
theorem Lawful.heads (lawful : node.Lawful law) : node.Heads law := fun enclosures =>
  law.head_of_good (lawful enclosures)

/-- A declaration may be the head of a loop if what it declares is lawful. -/
theorem Heads.ofDeclaration {kind : VariableKind} {declarations : List Node}
    (same : node.form = .variableDeclaration kind declarations)
    (lawful : ∀ declaration ∈ declarations, declaration.Lawful law) : node.Heads law :=
  fun enclosures => law.declared same (same ▸ (Form.placed_iff_has rfl).mpr
    fun declaration inside => lawful declaration inside enclosures)

/-- What is lawful may stand in a function. -/
theorem Lawful.enclosed (lawful : node.Lawful law) : node.Enclosed law := lawful []

/-- What is lawful here is lawful somewhere. -/
theorem Lawful.somewhere (lawful : node.Lawful law) : node.Somewhere law := ⟨law.mode, lawful⟩

/-- A node of most forms follows the law if the nodes do that it consists of, if it is permitted,
and if it stands on its lines as it has to. -/
theorem Follows.ofUniform (uniform : node.form.isUniform = true)
    (permitted : node.form.Permitted law.untyped law.mode) (lined : node.Lined law.layout law.mode)
    (has : node.form.Has (Follows law enclosures) (Enclosed law)) :
    node.Follows law enclosures :=
  law.placed (Form.isWhole_of_isUniform uniform) (Form.jumps_of_isUniform uniform) permitted lined
    ((Form.placed_iff_has uniform).mpr has)

/-- For most forms the lines do not matter. -/
theorem Follows.ofSimple (simple : node.form.isSimple = true)
    (permitted : node.form.Permitted law.untyped law.mode)
    (has : node.form.Has (Follows law enclosures) (Enclosed law)) :
    node.Follows law enclosures :=
  .ofUniform (Form.isUniform_of_isSimple simple) permitted
    (.ofUnlaid (Form.isUnlaid_of_isSimple simple)) has

/-- A plain statement follows the law if its parts do. -/
theorem Follows.ofPlain (plain : node.form.isPlain = true)
    (has : node.form.Has (Follows law enclosures) (Enclosed law)) :
    node.Follows law enclosures :=
  .ofSimple (Form.isSimple_of_isPlain plain)
    (Form.permitted_of_isFree (Form.isFree_of_isPlain plain)) has

/-- A uniform node is lawful if it is permitted, stands on its lines, and has lawful parts. -/
theorem Lawful.ofUniform (uniform : node.form.isUniform = true)
    (permitted : node.form.Permitted law.untyped law.mode) (lined : node.Lined law.layout law.mode)
    (has : node.form.Lawful law) : node.Lawful law := fun enclosures =>
  .ofUniform uniform permitted lined (has.mono (fun _ lawful => lawful enclosures) fun _ enclosed =>
    enclosed)

/-- A simple node is lawful if it is permitted and has lawful parts. -/
theorem Lawful.ofSimple (simple : node.form.isSimple = true)
    (permitted : node.form.Permitted law.untyped law.mode) (has : node.form.Lawful law) :
    node.Lawful law :=
  .ofUniform (Form.isUniform_of_isSimple simple) permitted
    (.ofUnlaid (Form.isUnlaid_of_isSimple simple)) has

/-- A plain node is lawful if it has lawful parts. -/
theorem Lawful.ofPlain (plain : node.form.isPlain = true) (has : node.form.Lawful law) :
    node.Lawful law := fun enclosures =>
  .ofPlain plain (has.mono (fun _ lawful => lawful enclosures) fun _ enclosed => enclosed)

/-- A node of most forms is an operand if the nodes are lawful that it consists of. -/
theorem Apt.ofSimple (simple : node.form.isSimple = true)
    (permitted : node.form.Permitted law.untyped law.mode) (has : node.form.Lawful law) :
    node.Apt law :=
  law.whole (Form.isWhole_of_isSimple simple) (Lawful.ofSimple simple permitted has)

/-- A plain node is apt if it has lawful parts. -/
theorem Apt.ofPlain (plain : node.form.isPlain = true) (has : node.form.Lawful law) :
    node.Apt law :=
  .ofSimple (Form.isSimple_of_isPlain plain)
    (Form.permitted_of_isFree (Form.isFree_of_isPlain plain)) has

/-- A function is an operand if it is lawful, and its key and decorators are, if it has some, and if
it has the parameters of its kind. -/
theorem Apt.ofFunction {function : FunctionForm} (same : node.form.function? = some function)
    (lawful : function.Lawful law node.form.isArrow)
    (regular : node.form.Regular) (linked : node.form.Linked law.layout node.start)
    (has : node.form.Has (Lawful law) (Enclosed (law.under (law.mode.inside function)))) :
    node.Apt law := by
  have whole := Form.isWhole_of_function same
  exact law.whole whole fun enclosures => law.placed whole (Form.jumps_of_function same)
    (Form.permitted_of_function same lawful.permitted regular) (.ofFunction same linked)
    ((Form.placed_iff_function same).mpr
      (has.mono (fun _ part => part enclosures) fun _ body => body))

/-- A class is an operand if it is lawful. -/
theorem Apt.ofClass {heading : ClassForm} (same : node.form.class? = some heading)
    (lawful : heading.Lawful law) : node.Apt law := by
  have whole := Form.isWhole_of_class same
  exact law.whole whole fun enclosures => law.placed whole (Form.jumps_of_class same)
    (Form.permitted_of_class same lawful.named) (.ofUnlaid (Form.isUnlaid_of_class same))
    ((Form.placed_iff_class same).mpr (lawful.has.mono
      (fun _ ⟨mode, decorator⟩ => ⟨mode, decorator enclosures⟩) (fun _ part => part enclosures)
      fun _ body => body enclosures))

/-- A block follows the law if its directives do, and if its statements do in the mode that the
directives make. -/
theorem Follows.ofBlock {directives body : List Node}
    (same : node.form = .blockStatement directives body)
    (before : ∀ directive ∈ directives, directive.Follows law enclosures)
    (after : ∀ statement ∈ body,
      statement.Follows (law.under (law.mode.after directives)) enclosures) :
    node.Follows law enclosures :=
  law.placed (same ▸ rfl) (same ▸ trivial) (same ▸ Form.permitted_of_isFree rfl)
    (.ofUnlaid (same ▸ rfl)) (same ▸ Form.placed_iff_block.mpr ⟨before, after⟩)

/-- A program follows the law if its directives do, and its statements after them. -/
theorem Follows.ofProgram {sourceType : SourceType} {directives body : List Node}
    (same : node.form = .program sourceType directives body)
    (before : ∀ directive ∈ directives, directive.Follows law enclosures)
    (after : ∀ statement ∈ body,
      statement.Follows (law.under (law.mode.after directives)) enclosures) :
    node.Follows law enclosures :=
  law.placed (same ▸ rfl) (same ▸ trivial) (same ▸ Form.permitted_of_isFree rfl)
    (.ofUnlaid (same ▸ rfl)) (same ▸ Form.placed_iff_program.mpr ⟨before, after⟩)

/-- What stands in parentheses is an operand. -/
theorem Apt.ofParenthesized (lawful : node.Lawful law)
    (parenthesized : node.isParenthesized = true) : node.Apt law :=
  law.parenthesized lawful parenthesized

/-- The nodes follow the law that a node consists of which may be taken apart. -/
theorem Follows.parts (follows : node.Follows law enclosures) {form : Form}
    (same : node.form = form) (spine : form.isSpine = true) :
    form.Has (Follows law enclosures) (Enclosed law) := by
  subst same
  exact law.parts follows spine

/-- The parts along the spine of a lawful pattern are lawful. -/
theorem Lawful.parts (lawful : node.Lawful law) {form : Form} (same : node.form = form)
    (spine : form.isSpine = true) : form.Lawful law := by
  have each := fun enclosures => Form.has_iff.mp ((lawful enclosures).parts same spine)
  refine Form.has_iff.mpr fun field member child inside => ?_
  have known := fun enclosures => each enclosures field member child inside
  by_cases opens : form.opens field.1 = true
  · simp only [if_pos opens] at known ⊢
    exact known []
  · simp only [if_neg opens] at known ⊢
    exact known

/-- A node still follows the law when it is given other decorators or type parameters that do. -/
theorem Follows.redressed (follows : node.Follows law enclosures) {form : Form}
    (same : node.form = form) (redressed : form.Redressed other.form)
    (placed : form.Placed law.good law.mode enclosures →
      other.form.Placed law.good law.mode enclosures) : other.Follows law enclosures := by
  subst same
  exact law.redressed follows redressed placed

/-- A class still follows the law when it is given decorators that did so where they were read. -/
theorem Follows.decorated (follows : node.Follows law enclosures) {form : Form}
    (same : node.form = form) (redressed : form.Redressed other.form) {heading : ClassForm}
    {decorators : List Node} (before : form.class? = some heading)
    (after : other.form.class? = some { heading with decorators := decorators })
    (lawful : ∀ decorator ∈ decorators, decorator.Somewhere law) :
    other.Follows law enclosures := by
  refine follows.redressed same redressed fun placed => ?_
  rw [Form.placed_iff_class before] at placed
  rw [Form.placed_iff_class after]
  refine { placed with decorators := fun decorator inside => ?_ }
  obtain ⟨mode, lawful⟩ := lawful decorator inside
  exact ⟨mode, lawful enclosures⟩

/-- Whether a node follows the law does not depend on how it was written, but for the lines. -/
theorem Follows.congr (follows : node.Follows law enclosures) (same : other.form = node.form)
    (lined : other.Lined law.layout law.mode) : other.Follows law enclosures :=
  law.congr follows same lined

/-- Whether a node is lawful depends on its form and its place. -/
theorem Lawful.congr (lawful : node.Lawful law) (same : other.form = node.form)
    (start : other.start = node.start) (stop : other.stop = node.stop) : other.Lawful law :=
  fun enclosures => (lawful enclosures).congr same
    ((law.lined (lawful enclosures)).congr same start stop)

/-- Nor does it depend on where it was written, for most forms. -/
theorem Lawful.moved (lawful : node.Lawful law) (same : other.form = node.form)
    (unlaid : node.form.isUnlaid = true) : other.Lawful law := fun enclosures =>
  (lawful enclosures).congr same (.ofUnlaid (same ▸ unlaid))

end Node

section Covers

/-- Something in an expression of this form may still be read as a pattern. -/
def Form.isCover : Form → Bool
  | .objectExpression .. | .objectProperty .. | .arrayExpression .. | .spreadElement ..
  | .sequenceExpression .. | .typeCastExpression .. => true
  | _ => false

/-- The nodes that an expression consists of which may still become a pattern fulfil a condition
where they may be read as patterns themselves, and another one elsewhere. -/
def Form.HasCovers (covers part : Node → Prop) : Form → Prop
  | .objectExpression properties annot =>
    (∀ node ∈ properties, covers node) ∧ ∀ node ∈ annot, part node
  | .objectProperty _ _ _ decorators key value =>
    (∀ node ∈ decorators, part node) ∧ part key ∧ covers value
  | .arrayExpression elements annot =>
    (∀ node, some node ∈ elements → covers node) ∧ ∀ node ∈ annot, part node
  | .spreadElement argument => covers argument
  | _ => True

/-- A node is as a law asks, or it may still be read as a pattern and is so but for the defaults in
it. -/
inductive Node.Covers (law : Law) : Node → Prop
  | lawful {node : Node} (lawful : node.Lawful law) : Covers law node
  | object {node : Node} {properties : List Node} {annot : Option Node}
      (same : node.form = .objectExpression properties annot)
      (all : ∀ property ∈ properties, Covers law property)
      (annotated : ∀ type ∈ annot, type.Lawful law) : Covers law node
  | property {node : Node} {method shorthand computed : Bool} {decorators : List Node}
      {key value : Node}
      (same : node.form = .objectProperty method shorthand computed decorators key value)
      (decorated : ∀ decorator ∈ decorators, decorator.Lawful law) (keyed : key.Lawful law)
      (valued : Covers law value) : Covers law node
  | list {node : Node} {elements : List (Option Node)} {annot : Option Node}
      (same : node.form = .arrayExpression elements annot)
      (all : ∀ element, some element ∈ elements → Covers law element)
      (annotated : ∀ type ∈ annot, type.Lawful law) : Covers law node
  | spread {node argument : Node} (same : node.form = .spreadElement argument)
      (inner : Covers law argument) : Covers law node
  | sequence {node : Node} {expressions : List Node}
      (same : node.form = .sequenceExpression expressions)
      (all : ∀ expression ∈ expressions, Covers law expression) : Covers law node
  | cast {node expression annot : Node} {isItem : Bool}
      (same : node.form = .typeCastExpression expression annot isItem)
      (inner : Covers law expression) (annotated : annot.Lawful law) : Covers law node

namespace Node.Covers

variable {law : Law} {node : Node} {form : Form}

/-- If the law speaks of languages with types, it does not ask about defaults. -/
theorem typed (covers : node.Covers law) (typed : ¬law.untyped) : node.Lawful law := by
  induction covers with
  | lawful lawful => exact lawful
  | object same _ annotated all =>
      exact .ofSimple (same ▸ rfl) (same ▸ Form.permitted_of_object fun untyped =>
        (typed untyped).elim) (same ▸ ⟨all, annotated⟩)
  | property same decorated keyed _ valued =>
      exact .ofPlain (same ▸ rfl) (same ▸ ⟨decorated, keyed, valued⟩)
  | list same _ annotated all => exact .ofPlain (same ▸ rfl) (same ▸ ⟨all, annotated⟩)
  | spread same _ inner => exact .ofPlain (same ▸ rfl) (same ▸ inner)
  | sequence same _ all => exact .ofPlain (same ▸ rfl) (same ▸ all)
  | cast same _ annotated inner => exact .ofPlain (same ▸ rfl) (same ▸ ⟨inner, annotated⟩)

/-- An expression that can not become a pattern has no defaults that are left over. -/
theorem settled (covers : node.Covers law) (other : node.form.isCover = false) :
    node.Lawful law := by
  cases covers with
  | lawful lawful => exact lawful
  | _ => simp_all [Form.isCover]

/-- What refers to something has no defaults that are left over. -/
theorem referring (covers : node.Covers law) (refers : law.untyped → node.isReference = true) :
    node.Lawful law := by
  by_cases untyped : law.untyped
  · refine covers.settled ?_
    have reference := refers untyped
    unfold Node.isReference at reference
    split at reference
    · next same => exact same ▸ rfl
    · next same => exact same ▸ rfl
    · cases reference
  · exact covers.typed untyped

/-- What an expression consists of may be read as a pattern where the expression may. -/
theorem parts (covers : node.Covers law) (same : node.form = form) :
    form.HasCovers (Covers law) (Node.Lawful law) := by
  subst same
  cases covers with
  | lawful lawful =>
      unfold Form.HasCovers
      split
      case h_1 properties annot same =>
        have parts := lawful.parts same rfl
        exact ⟨fun _ inside => .lawful (parts.1 _ inside), parts.2⟩
      case h_2 decorators key value same =>
        have parts := lawful.parts same rfl
        exact ⟨parts.1, parts.2.1, .lawful parts.2.2⟩
      case h_3 elements annot same =>
        have parts := lawful.parts same rfl
        exact ⟨fun _ inside => .lawful (parts.1 _ inside), parts.2⟩
      case h_4 argument same =>
        have parts := lawful.parts same rfl
        exact .lawful parts
      case h_5 => trivial
  | _ => simp_all [Form.HasCovers]

end Node.Covers

end Covers

end EcmaSyntax
