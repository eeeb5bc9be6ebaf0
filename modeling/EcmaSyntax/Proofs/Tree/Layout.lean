/-
This file says where statements may end, which tokens of a statement or an expression stand on one
line, and which nodes are spelled by a token.
-/

import EcmaSyntax.Proofs.Lexer.Trace
import EcmaSyntax.Proofs.Tree.Permitted

namespace EcmaSyntax

namespace Source

/-- A line terminator stands between two offsets. -/
def Breaks (source : Source) (start stop : Nat) : Prop :=
  ∃ text, source.slice? start stop = some text ∧
    ∃ character ∈ text, Blank.isLineBreak character = true

/-- No line terminator stands between two offsets. -/
def Unbroken (source : Source) (start stop : Nat) : Prop :=
  ∃ text, source.slice? start stop = some text ∧
    ∀ character ∈ text, Blank.isLineBreak character = false

/-- What stands between two boundaries is searched for line terminators. -/
theorem breaks_or_unbroken {source : Source} {start stop : Nat}
    (begins : source.isBoundary start = true) (ends : source.isBoundary stop = true)
    (ordered : start ≤ stop) :
    if source.anyBetween Blank.isLineBreak start stop then source.Breaks start stop
    else source.Unbroken start stop := by
  have sliced : source.slice? start stop = some (source.charsBetween start stop) := by
    simp [slice?, begins, ends, ordered]
  rw [anyBetween_eq]
  split
  · next found => exact ⟨_, sliced, List.any_eq_true.mp found⟩
  · next none =>
      rw [List.any_eq_true, not_exists] at none
      exact ⟨_, sliced, fun character inside => Bool.eq_false_iff.mpr fun breaks =>
        none character ⟨inside, breaks⟩⟩

end Source

/-- What the tokens of a text and its lines say about a tree: where a statement may end, which words
are followed on their line, which operators stand on the line of what is before them, and which
nodes a token spells. -/
structure Layout where
  /-- A statement may end at an offset. -/
  ends : Nat → Prop := fun _ => True
  /-- A word of a kind that starts at an offset is followed on its line. -/
  leads : Kind → Nat → Prop := fun _ _ => True
  /-- An operator that ends at an offset stands on the line of what is before it. -/
  trails : Nat → Prop := fun _ => True
  /-- A word that starts at an offset is followed on its line by the one for a function. -/
  joins : Nat → Prop := fun _ => True
  /-- The arrow of a function that starts at an offset stands on the line of what is before it. -/
  points : Nat → FunctionForm → Prop := fun _ _ => True
  /-- The word for an asynchronous arrow function that starts at an offset is followed as it has to
  be. -/
  calls : Nat → Prop := fun _ => True
  /-- A token between two offsets spells a form, in code of a mode. -/
  spells : Mode → Form → Nat → Nat → Prop := fun _ _ _ _ => True

/-- A chunk of a template may stand behind a token of such a kind: the quote with which the template
begins, or the brace with which a substitution ends. -/
def Kind.opensChunk (kind : Kind) : Bool := kind == .backQuote || kind == .braceR

namespace Form

/-- A form is spelled by a token. -/
def isSpelled : Form → Bool
  | .templateElement .. => true
  | _ => false

/-- The kind of the token that stands behind a chunk of a template: the quote with which the
template ends, or the mark with which a substitution begins. -/
def closing? : Form → Option Kind
  | .templateElement _ _ isTail => some (if isTail then .backQuote else .dollarBraceL)
  | _ => none

theorem closing?_eq {form : Form} {kind : Kind} (closes : form.closing? = some kind) :
    kind = .backQuote ∨ kind = .dollarBraceL := by
  unfold closing? at closes
  split at closes
  · next isTail => cases isTail <;> cases closes <;> simp
  · cases closes

/-- A token spells a form: the chunk of a template is the text of the token, with a line feed for
each carriage return, and what it stands for is the value of the token. Both are the same if the
token is such a chunk, in which nothing is escaped, and no line break of two characters stands. -/
def SpelledBy (source : Source) (token : Token) : Form → Prop
  | .templateElement raw cooked _ =>
    ∃ text, source.slice? token.start token.stop = some text ∧
      raw = String.ofList (text.map LineEnding.feed) ∧ cooked = token.value.text?.getD "" ∧
        (token.kind = .template → '\\' ∉ text → ¬LineEnding.Paired text → cooked = raw)
  | _ => True

end Form

namespace Layout

variable {source : Source} {tokens : List Token} {stop start : Nat} {kind : Kind}

/-- No matter how a text is parted into lines. -/
def free : Layout := {}

/-- A statement that ends at an offset ends with a semicolon, or the token after it is a closing
brace or the end of the text, or a line terminator stands between the two. -/
def Ends (source : Source) (tokens : List Token) (stop : Nat) : Prop :=
  ∃ before next after, tokens = before ++ next :: after ∧
    (∀ token ∈ before, token.stop ≤ stop) ∧ stop ≤ next.start ∧
      ((∃ last ∈ before.getLast?, last.kind = .semi ∧ last.stop = stop) ∨
        next.kind = .braceR ∨ next.kind = .eof ∨ source.Breaks stop next.start)

/-- No line terminator stands between a word that starts at an offset and the token after it. -/
def Leads (source : Source) (tokens : List Token) (kind : Kind) (start : Nat) : Prop :=
  ∃ before word next after, tokens = before ++ word :: next :: after ∧
    word.kind = kind ∧ word.start = start ∧ source.Unbroken word.stop next.start

/-- No line terminator stands between a step up or down that ends at an offset and the token before
it. -/
def Trails (source : Source) (tokens : List Token) (stop : Nat) : Prop :=
  ∃ before operator after, tokens = before ++ operator :: after ∧
    operator.kind = .incDec ∧ operator.stop = stop ∧
      ∀ last ∈ before.getLast?, source.Unbroken last.stop operator.start

/-- The word for a function stands behind a token that starts at an offset, and no line terminator
between the two. -/
def Joins (source : Source) (tokens : List Token) (start : Nat) : Prop :=
  ∃ before word next after, tokens = before ++ word :: next :: after ∧
    word.start = start ∧ next.kind = .kwFunction ∧ source.Unbroken word.stop next.start

/-- Between the parameters of a function that starts at an offset and its body there is an arrow,
and no line terminator between the arrow and the token before it. -/
def Points (source : Source) (tokens : List Token) (start : Nat) (function : FunctionForm) : Prop :=
  ∃ before last arrow after, tokens = before ++ last :: arrow :: after ∧ arrow.kind = .arrow ∧
    start ≤ last.start ∧ (∀ param ∈ function.params, param.stop ≤ last.stop) ∧
      arrow.stop ≤ function.body.start ∧ source.Unbroken last.stop arrow.start

/-- If a name starts at an offset, another name comes next, or a parenthesis on its line. -/
def Calls (source : Source) (tokens : List Token) (start : Nat) : Prop :=
  ∃ before word after, tokens = before ++ word :: after ∧ word.start = start ∧
    (word.kind = .name → ∃ next rest, after = next :: rest ∧
      (next.kind = .name ∨ next.kind = .parenL ∧ source.Unbroken word.stop next.start))

/-- What the lines say that the tokens of a text stand on about statements and expressions. -/
def ofTokens (source : Source) (tokens : List Token) : Layout :=
  { ends := Ends source tokens, leads := Leads source tokens, trails := Trails source tokens }

/-- What they say about functions. The type of what an arrow function returns may stand on any
line. -/
def ofFunctions (source : Source) (tokens : List Token) (types : Bool) : Layout :=
  { joins := Joins source tokens
    points := fun start function => types = false → Points source tokens start function
    calls := Calls source tokens }

/-- One of the tokens, which stands behind some others, spells a form that begins and ends where the
token does, between two marks of the template that the form is a chunk of. -/
structure Spelling (source : Source) (tokens before : List Token) (token : Token) (form : Form)
    (start stop : Nat) : Prop where
  opened : ∃ mark ∈ before.getLast?, mark.kind.opensChunk = true
  closed : ∃ mark after, tokens = before ++ token :: mark :: after ∧ form.closing? = some mark.kind
  start : token.start = start
  stop : token.stop = stop
  spelled : form.SpelledBy source token

/-- One of the tokens spells a form. -/
def Spells (source : Source) (tokens : List Token) (form : Form) (start stop : Nat) : Prop :=
  ∃ before token, Spelling source tokens before token form start stop

/-- What the tokens of a text say about what they spell. -/
def ofSpelling (source : Source) (tokens : List Token) : Layout :=
  { spells := fun _ => Spells source tokens }

end Layout

namespace Form

/-- A form that ends with a semicolon, or where one may be left out. The head of a loop closes the
declaration in it. -/
def isTerminated (heads : Bool) : Form → Bool
  | .expressionStatement _ | .directive _ | .returnStatement _ | .throwStatement _
  | .breakStatement _ | .continueStatement _ | .debuggerStatement => true
  | .variableDeclaration .. => !heads
  | _ => false

/-- The kind of the word that a form begins with, if what follows it has to be on its line. -/
def word? : Form → Option Kind
  | .returnStatement (some _) => some .kwReturn
  | .throwStatement _ => some .kwThrow
  | .breakStatement (some _) => some .kwBreak
  | .continueStatement (some _) => some .kwContinue
  | .yieldExpression _ (some _) => some .kwYield
  | _ => none

/-- A form is a step up or down after its operand. -/
def isPostfix : Form → Bool
  | .updateExpression _ isPrefix _ => !isPrefix
  | _ => false

/-- The field holds what a loop begins with. -/
def isHead : Form → String → Bool
  | .forStatement .., field => field == "init"
  | .forInStatement .., field | .forOfStatement .., field => field == "left"
  | _, _ => false

/-- A form is a function with words of its own, or with an arrow. -/
def isLinked : Form → Bool
  | .functionDeclaration _ | .functionExpression _ | .arrowFunctionExpression _ => true
  | _ => false

/-- The words of a function that starts at an offset stand on the lines that they have to: those for
an asynchronous function, and the arrow of a function that is not. What follows the word for an
asynchronous arrow function does so as well. -/
def Linked (layout : Layout) (start : Nat) : Form → Prop
  | .functionDeclaration function | .functionExpression function =>
    function.isAsync = true → layout.joins start
  | .arrowFunctionExpression function =>
    (function.isAsync = false → layout.points start function) ∧
      (function.isAsync = true → layout.calls start)
  | _ => True

/-- It does not matter on which lines a form begins and ends. -/
def isOpen (form : Form) : Bool :=
  !form.isTerminated false && form.word?.isNone && !form.isPostfix

/-- It does not matter on which lines a form stands, and of which tokens it is made. -/
def isUnlaid (form : Form) : Bool := form.isOpen && !form.isLinked && !form.isSpelled

end Form

/-- The lines matter as much for a form whose type is another one. -/
theorem Form.Retyped.isUnlaid {form other : Form} (retyped : form.Retyped other) :
    other.isUnlaid = form.isUnlaid := by
  cases retyped <;> rfl

/-- A form with a place for a type may stand on any lines. -/
theorem Node.isUnlaid_of_withAnnot? {node annot param : Node}
    (placed : node.withAnnot? annot = some param) : param.form.isUnlaid = true := by
  unfold withAnnot? at placed
  split at placed <;> cases placed <;> rfl

/-- Nothing is asked of the lines of a pattern. -/
theorem Node.Pattern.isUnlaid {node : Node} (pattern : node.Pattern) :
    node.form.isUnlaid = true := by
  cases pattern with
  | identifier same => exact same ▸ rfl
  | objectPattern same each => exact same ▸ rfl
  | arrayPattern same each closes => exact same ▸ rfl
  | assignmentPattern same target => exact same ▸ rfl

/-- Nothing is asked of the lines of the name of a rest. -/
theorem Node.RestName.isUnlaid {node : Node} (rest : node.RestName) :
    node.form.isUnlaid = true := by
  obtain ⟨argument, annot, isOptional, same, -⟩ := rest
  exact same ▸ rfl

/-- A node stands on its lines as it has to, in the head of a loop or not. -/
structure Node.Laid (layout : Layout) (heads : Bool) (node : Node) : Prop where
  ends : node.form.isTerminated heads = true → layout.ends node.stop
  leads : ∀ word ∈ node.form.word?, layout.leads word node.start
  trails : node.form.isPostfix = true → layout.trails node.stop

/-- A token spells the node if it has to. -/
def Node.Spelled (layout : Layout) (mode : Mode) (node : Node) : Prop :=
  node.form.isSpelled = true → layout.spells mode node.form node.start node.stop

/-- Nothing is asked of the spelling of a form that no token spells. -/
theorem Node.Spelled.ofUnspelled {layout : Layout} {mode : Mode} {node : Node}
    (unspelled : node.form.isSpelled = false) : node.Spelled layout mode := by
  simp [Spelled, unspelled]

/-- Besides, the words of a function do, and a token spells the node if it has to. -/
structure Node.Lined (layout : Layout) (mode : Mode) (node : Node) : Prop
    extends Node.Laid layout false node where
  linked : node.form.Linked layout node.start
  spelled : node.Spelled layout mode

/-- The words of all functions in a tree stand on their lines as they have to. -/
inductive Node.Linked (layout : Layout) : Node → Prop
  | intro {node : Node} (linked : node.form.Linked layout node.start)
      (inside : ∀ field ∈ node.form.fields, ∀ child ∈ field.2.nodes, Linked layout child) :
      Linked layout node

/-- All nodes in a tree stand on their lines as they have to. -/
inductive Node.Parted (layout : Layout) : Bool → Node → Prop
  | intro {heads : Bool} {node : Node} (laid : node.Laid layout heads)
      (inside : ∀ field ∈ node.form.fields, ∀ child ∈ field.2.nodes,
        Parted layout (node.form.isHead field.1) child) : Parted layout heads node

section Laid

variable {layout : Layout} {mode : Mode} {heads : Bool} {node other : Node}

/-- Nothing is asked of the lines of a form whose tokens may stand on any. -/
theorem Form.linked_of_isLinked {form : Form} {start : Nat} (other : form.isLinked = false) :
    form.Linked layout start := by
  cases form <;> trivial

/-- Nor is anything asked of the lines of a free form. -/
theorem Form.linked_of_isFree {form : Form} {start : Nat} (free : form.isFree = true) :
    form.Linked layout start := by
  cases form <;> trivial

/-- Where statements end says nothing about the words of functions. -/
theorem Form.linked_ofTokens {form : Form} {source : Source} {tokens : List Token} {start : Nat} :
    form.Linked (.ofTokens source tokens) start := by
  cases form <;> first | trivial | exact fun _ => trivial | exact ⟨fun _ => trivial, fun _ => trivial⟩

/-- Where only the spelling matters, tokens may stand on any line. -/
theorem Form.linked_ofSpelling {form : Form} {source : Source} {tokens : List Token} {start : Nat} :
    form.Linked (.ofSpelling source tokens) start := by
  cases form <;> first | trivial | exact fun _ => trivial | exact ⟨fun _ => trivial, fun _ => trivial⟩

/-- Where only the spelling matters, statements may end anywhere. -/
theorem Node.laid_ofSpelling {source : Source} {tokens : List Token} {heads : Bool} :
    node.Laid (.ofSpelling source tokens) heads :=
  ⟨fun _ => trivial, fun _ _ => trivial, fun _ => trivial⟩

/-- Where only functions matter, statements may end anywhere. -/
theorem Node.laid_ofFunctions {source : Source} {tokens : List Token} {types : Bool} :
    node.Laid (.ofFunctions source tokens types) heads :=
  ⟨fun _ => trivial, fun _ _ => trivial, fun _ => trivial⟩

theorem Node.Laid.ofOpen (free : node.form.isOpen = true) : node.Laid layout false := by
  simp only [Form.isOpen, Bool.and_eq_true, Bool.not_eq_true', Option.isNone_iff_eq_none] at free
  obtain ⟨⟨open_, wordless⟩, still⟩ := free
  exact ⟨by simp [open_], by simp [wordless], by simp [still]⟩

theorem Node.Lined.ofUnlaid (unlaid : node.form.isUnlaid = true) : node.Lined layout mode := by
  simp only [Form.isUnlaid, Bool.and_eq_true, Bool.not_eq_true'] at unlaid
  obtain ⟨⟨free, unlinked⟩, unspelled⟩ := unlaid
  exact ⟨.ofOpen free, Form.linked_of_isLinked unlinked, .ofUnspelled unspelled⟩

/-- A declaration in the head of a loop may stand on any lines. -/
theorem Node.Laid.ofDeclaration {kind : VariableKind} {declarations : List Node}
    (same : node.form = .variableDeclaration kind declarations) : node.Laid layout true :=
  ⟨by simp [same, Form.isTerminated], by simp [same, Form.word?], by simp [same, Form.isPostfix]⟩

/-- What ends with what it has to end with, and is no step. -/
theorem Node.Laid.ofEnds (still : node.form.isPostfix = false) (ends : layout.ends node.stop)
    (leads : ∀ word ∈ node.form.word?, layout.leads word node.start) : node.Laid layout heads :=
  ⟨fun _ => ends, leads, by simp [still]⟩

/-- In a free layout everything is lined. -/
theorem Node.Lined.free : node.Lined .free mode := by
  refine ⟨⟨fun _ => trivial, fun _ _ => trivial, fun _ => trivial⟩, ?_, fun _ => trivial⟩
  cases node.form <;>
    first | trivial | exact fun _ => trivial | exact ⟨fun _ => trivial, fun _ => trivial⟩

/-- How a node is laid depends on its form and its place. -/
theorem Node.Laid.congr (laid : node.Laid layout heads) (form : other.form = node.form)
    (start : other.start = node.start) (stop : other.stop = node.stop) :
    other.Laid layout heads :=
  ⟨by rw [form, stop]; exact laid.ends, by rw [form, start]; exact laid.leads,
    by rw [form, stop]; exact laid.trails⟩

/-- How a node is lined depends on its form and its place. -/
theorem Node.Lined.congr (lined : node.Lined layout mode) (form : other.form = node.form)
    (start : other.start = node.start) (stop : other.stop = node.stop) : other.Lined layout mode :=
  ⟨lined.toLaid.congr form start stop, by rw [form, start]; exact lined.linked,
    by rw [Node.Spelled, form, start, stop]; exact lined.spelled⟩

/-- What ends as it has to anywhere does so in the head of a loop. -/
theorem Node.Laid.headed (laid : node.Laid layout false) : node.Laid layout true := by
  refine ⟨fun ends => laid.ends ?_, laid.leads, laid.trails⟩
  revert ends
  cases node.form <;> simp [Form.isTerminated]

theorem Node.Parted.mono {layout other : Layout} {heads : Bool} {node : Node}
    (parted : node.Parted layout heads)
    (implies : ∀ {heads} {node : Node}, node.Laid layout heads → node.Laid other heads) :
    node.Parted other heads := by
  induction parted with
  | intro laid inside inductionHypothesis => exact ⟨implies laid, inductionHypothesis⟩

theorem Node.Linked.mono {layout other : Layout} {node : Node} (linked : node.Linked layout)
    (implies : ∀ {form : Form} {start : Nat}, form.Linked layout start → form.Linked other start) :
    node.Linked other := by
  induction linked with
  | intro linked inside inductionHypothesis => exact ⟨implies linked, inductionHypothesis⟩

/-- What is parted as a statement is parted in the head of a loop. -/
theorem Node.Parted.headed (parted : node.Parted layout false) : node.Parted layout true := by
  cases parted with
  | intro laid inside => exact ⟨laid.headed, inside⟩

end Laid

namespace Form

variable {head good : Mode → List Enclosure → Node → Prop} {mode : Mode}
  {enclosures : List Enclosure} {form : Form}

/-- The nodes that a form consists of fulfil a condition, each in its mode and with what stands
around it, and the head of a loop another one. -/
def Headed (head good : Mode → List Enclosure → Node → Prop) (mode : Mode)
    (enclosures : List Enclosure) (form : Form) : Prop :=
  Field.Each (fun field child => ∃ inner, form.Enters field mode inner ∧
    (if form.isHead field then head else good) inner (form.around field enclosures) child)
    form.fields

/-- Heads of loops that are as good as other parts need no mention. -/
theorem headed_self : form.Headed good good mode enclosures ↔ form.Placed good mode enclosures := by
  simp only [Headed, Placed, ite_self]

/-- Where nothing heads a loop, all parts are placed. -/
theorem headed_iff_placed (other : ∀ field, form.isHead field = false) :
    form.Headed head good mode enclosures ↔ form.Placed good mode enclosures := by
  simp [Headed, Placed, other]

/-- If the condition on the heads of loops is weaker, nothing else has to be known of them. -/
theorem Placed.headed (placed : form.Placed good mode enclosures)
    (implies : ∀ {mode enclosures node}, good mode enclosures node → head mode enclosures node) :
    form.Headed head good mode enclosures := by
  intro field member child inside
  obtain ⟨inner, enters, held⟩ := placed field member child inside
  refine ⟨inner, enters, ?_⟩
  split
  · exact implies held
  · exact held

/-- What a loop consists of, its head apart. -/
theorem headed_for {init test update : Option Node} {body : Node} :
    (forStatement init test update body).Headed head good mode enclosures ↔
      (∀ node ∈ init, head mode enclosures node) ∧ (∀ node ∈ test, good mode enclosures node) ∧
        (∀ node ∈ update, good mode enclosures node) ∧ good mode (.loop :: enclosures) body := by
  have enters : ∀ field inner, (forStatement init test update body).Enters field mode inner ↔
      inner = mode := by
    intro field inner
    simp [Enters, class?, bodyMode, function?]
  simp [Headed, fields, around, isHead, enters]

/-- A loop through names has a head, what it goes through, and a body. -/
theorem headed_forIn {left right body : Node} :
    (forInStatement left right body).Headed head good mode enclosures ↔
      head mode enclosures left ∧ good mode enclosures right ∧
        good mode (.loop :: enclosures) body := by
  have enters : ∀ field inner, (forInStatement left right body).Enters field mode inner ↔
      inner = mode := by
    intro field inner
    simp [Enters, class?, bodyMode, function?]
  simp [Headed, fields, around, isHead, enters]

/-- A loop through items has a head, what it goes through, and a body. -/
theorem headed_forOf {left right body : Node} :
    (forOfStatement left right body).Headed head good mode enclosures ↔
      head mode enclosures left ∧ good mode enclosures right ∧
        good mode (.loop :: enclosures) body := by
  have enters : ∀ field inner, (forOfStatement left right body).Enters field mode inner ↔
      inner = mode := by
    intro field inner
    simp [Enters, class?, bodyMode, function?]
  simp [Headed, fields, around, isHead, enters]

end Form

section Parted

variable {layout : Layout} {heads : Bool} {node : Node} {mode : Mode} {enclosures : List Enclosure}

/-- The nodes in a tree stand on their lines as they have to if the root does and if the nodes do
that it consists of. -/
theorem Node.parted_iff_headed (mode : Mode) (enclosures : List Enclosure) :
    node.Parted layout heads ↔ node.Laid layout heads ∧
      node.form.Headed (fun _ _ => Node.Parted layout true) (fun _ _ => Node.Parted layout false)
        mode enclosures := by
  constructor
  · rintro ⟨laid, inside⟩
    refine ⟨laid, fun field member child held => ⟨_, .inr rfl, ?_⟩⟩
    have parted := inside field member child held
    cases isHead : node.form.isHead field.1 <;> simpa [isHead] using parted
  · rintro ⟨laid, headed⟩
    refine ⟨laid, fun field member child held => ?_⟩
    obtain ⟨inner, -, parted⟩ := headed field member child held
    cases isHead : node.form.isHead field.1 <;> simpa [isHead] using parted

/-- The words of all functions in a tree stand on their lines as they have to if those of the root
do and if this holds for the nodes that it consists of. -/
theorem Node.linked_iff_placed (mode : Mode) (enclosures : List Enclosure) :
    node.Linked layout ↔ node.form.Linked layout node.start ∧
      node.form.Placed (fun _ _ => Node.Linked layout) mode enclosures := by
  constructor
  · rintro ⟨linked, inside⟩
    exact ⟨linked, fun field member child held => ⟨_, .inr rfl, inside field member child held⟩⟩
  · rintro ⟨linked, placed⟩
    refine ⟨linked, fun field member child held => ?_⟩
    obtain ⟨inner, -, linked⟩ := placed field member child held
    exact linked

end Parted

namespace Lexer

variable {setting : Setting} {state : State} {tokens : List Token}

/-- No line terminator stands between the last token that has been passed and the current one. -/
def State.Joined (setting : Setting) (state : State) : Prop :=
  setting.source.Unbroken state.lastStop state.start

/-- The token that has been passed last is an arrow, which stands on the line of the one before it.
That one begins at an offset or after it, and parameters end with it or before. -/
def State.Pointed (setting : Setting) (start : Nat) (params : List Node) (state : State) : Prop :=
  ∃ before last arrow, state.recorded = before ++ [last, arrow] ∧ arrow.kind = .arrow ∧
    start ≤ last.start ∧ (∀ param ∈ params, param.stop ≤ last.stop) ∧
      setting.source.Unbroken last.stop arrow.start

/-- A statement may end with the last token that has been passed. -/
def State.Closes (setting : Setting) (state : State) : Prop :=
  (∃ last ∈ state.recorded.getLast?, last.kind = .semi) ∨ state.kind = .braceR ∨
    state.kind = .eof ∨ setting.source.Breaks state.lastStop state.start

/-- The token that has been passed last spells a form from an offset to another one, and the one
before it is a mark of a template. -/
def State.Quotes (setting : Setting) (form : Form) (start stop : Nat) (state : State) : Prop :=
  ∃ before mark token, state.recorded = before ++ [mark, token] ∧ mark.kind.opensChunk = true ∧
    token.start = start ∧ token.stop = stop ∧ form.SpelledBy setting.source token

/-- The current token is the one that comes next in what is read in the end, unless it is read again
from its start on. -/
theorem State.goesOn (settled : state.settled <+: tokens)
    (starts : state.tokens.map Token.start <+: tokens.map Token.start) :
    ∃ next after, tokens = state.recorded ++ next :: after ∧ next.start = state.start ∧
      (state.kind ≠ .num → state.kind ≠ .string → next = state.token) := by
  obtain ⟨others, rfl⟩ := state.recorded_settled.trans settled
  have split : state.tokens = state.recorded ++ [state.token] := rfl
  rw [split, List.map_append, List.map_append, List.prefix_append_right_inj] at starts
  cases others with
  | nil => simp at starts
  | cons next after =>
      refine ⟨next, after, rfl, ?_, fun number string => ?_⟩
      · simpa [eq_comm, State.token] using starts
      · rw [State.settled, if_neg (by simp [number, string]), split,
          List.prefix_append_right_inj] at settled
        simpa [eq_comm] using settled

end Lexer

namespace Layout

variable {setting : Lexer.Setting} {state : Lexer.State} {tokens : List Token}

/-- What a reading finds out about the lines is known to a layout. -/
structure Knows (layout : Layout) (setting : Lexer.Setting) (state : Lexer.State) : Prop where
  ends : state.Closes setting → layout.ends state.lastStop
  leads : state.Joined setting →
    ∀ word ∈ state.recorded.getLast?, layout.leads word.kind word.start
  trails : state.Joined setting → state.kind = .incDec → layout.trails state.stop
  joins : state.Joined setting → state.kind = .kwFunction →
    ∀ word ∈ state.recorded.getLast?, layout.joins word.start
  points : ∀ {start params} {function : FunctionForm}, setting.flow = false →
    state.Pointed setting start params →
    (∀ param ∈ function.params, ∃ other ∈ params, param.stop = other.stop) →
      state.lastStop ≤ function.body.start → layout.points start function
  typed : setting.flow = true → ∀ start function, layout.points start function
  calls : (state.kind = .name ∨ state.kind = .parenL ∧ state.Joined setting) →
    ∀ word ∈ state.recorded.getLast?, layout.calls word.start
  opens : state.kind ≠ .name → state.kind ≠ .num → state.kind ≠ .string → layout.calls state.start
  spells : ∀ {mode : Mode} {form : Form} {start stop : Nat}, state.Quotes setting form start stop →
    form.closing? = some state.kind → layout.spells mode form start stop

/-- Everything is known of a free layout. -/
theorem knows_free : Knows .free setting state :=
  ⟨fun _ => trivial, fun _ _ _ => trivial, fun _ _ => trivial, fun _ _ _ _ => trivial,
    fun _ _ _ _ => trivial, fun _ _ _ => trivial, fun _ _ _ => trivial, fun _ _ _ => trivial,
    fun _ _ => trivial⟩

/-- What a reading finds out about the lines is true of the tokens that are read in the end. -/
theorem knows_ofTokens (tracked : state.Tracked setting) (settled : state.settled <+: tokens)
    (starts : state.tokens.map Token.start <+: tokens.map Token.start) :
    (ofTokens setting.source tokens).Knows setting state := by
  obtain ⟨next, after, rfl, start, same⟩ := Lexer.State.goesOn settled starts
  refine ⟨fun closes => ?_, fun joined word last => ?_, fun joined kind => ?_,
    fun _ _ _ _ => trivial, fun _ _ _ _ => trivial, fun _ _ _ => trivial, fun _ _ _ => trivial,
    fun _ _ _ => trivial, fun _ _ => trivial⟩
  · refine ⟨state.recorded, next, after, rfl, tracked.passed, start ▸ tracked.sound.ordered, ?_⟩
    rcases closes with ⟨last, inside, semi⟩ | brace | ending | breaks
    · exact .inl ⟨last, inside, semi, tracked.last last inside⟩
    · rw [same (by simp [brace]) (by simp [brace])]
      exact .inr (.inl brace)
    · rw [same (by simp [ending]) (by simp [ending])]
      exact .inr (.inr (.inl ending))
    · exact .inr (.inr (.inr (start ▸ breaks)))
  · obtain ⟨before, recorded⟩ := List.getLast?_eq_some_iff.mp last
    refine ⟨before, word, next, after, by simp [recorded], rfl, rfl, ?_⟩
    rw [tracked.last word last, start]
    exact joined
  · rw [same (by simp [kind]) (by simp [kind])]
    refine ⟨state.recorded, state.token, after, rfl, kind, rfl, fun last inside => ?_⟩
    rw [tracked.last last inside]
    exact joined

/-- So is what it finds out about functions. -/
theorem knows_ofFunctions (tracked : state.Tracked setting) (settled : state.settled <+: tokens)
    (starts : state.tokens.map Token.start <+: tokens.map Token.start) :
    (ofFunctions setting.source tokens setting.flow).Knows setting state := by
  obtain ⟨next, rest, rfl, start, same⟩ := Lexer.State.goesOn settled starts
  refine ⟨fun _ => trivial, fun _ _ _ => trivial, fun _ _ => trivial,
    fun joined kind word last => ?_, fun {first params function} _ pointed places follows _ => ?_,
    fun typed _ _ untyped => ?_, fun follows word last => ?_, fun name number string => ?_,
    fun _ _ => trivial⟩
  · obtain ⟨before, recorded⟩ := List.getLast?_eq_some_iff.mp last
    rw [same (by simp [kind]) (by simp [kind])]
    refine ⟨before, word, state.token, rest, by simp [recorded], rfl, kind, ?_⟩
    rw [tracked.last word last]
    exact joined
  · obtain ⟨before, last, arrow, recorded, points, begun, stops, unbroken⟩ := pointed
    have stop : arrow.stop = state.lastStop := tracked.last arrow (by simp [recorded])
    refine ⟨before, last, arrow, next :: rest, by simp [recorded], points, begun, ?_,
      stop ▸ follows, unbroken⟩
    intro param inside
    obtain ⟨other, among, ends⟩ := places param inside
    exact ends ▸ stops other among
  · rw [typed] at untyped
    cases untyped
  · obtain ⟨before, recorded⟩ := List.getLast?_eq_some_iff.mp last
    have token : next = state.token := by
      rcases follows with kind | ⟨kind, -⟩ <;> exact same (by simp [kind]) (by simp [kind])
    refine ⟨before, word, next :: rest, by simp [recorded], rfl, fun _ => ⟨next, rest, rfl, ?_⟩⟩
    rw [token]
    refine follows.imp_right fun ⟨kind, joined⟩ => ⟨kind, ?_⟩
    rw [tracked.last word last]
    exact joined
  · rw [same number string]
    exact ⟨state.recorded, state.token, rest, rfl, rfl, fun named => absurd named name⟩

/-- So is what it finds out about the chunks of templates. -/
theorem knows_ofSpelling (settled : state.settled <+: tokens)
    (starts : state.tokens.map Token.start <+: tokens.map Token.start) :
    (ofSpelling setting.source tokens).Knows setting state := by
  obtain ⟨next, rest, rfl, -, same⟩ := Lexer.State.goesOn settled starts
  refine ⟨fun _ => trivial, fun _ _ _ => trivial, fun _ _ => trivial, fun _ _ _ _ => trivial,
    fun _ _ _ _ => trivial, fun _ _ _ => trivial, fun _ _ _ => trivial, fun _ _ _ => trivial,
    fun quotes closes => ?_⟩
  obtain ⟨before, mark, token, recorded, opens, start, stop, spelled⟩ := quotes
  have current : next = state.token := by
    rcases Form.closing?_eq closes with kind | kind <;>
      exact same (by simp [kind]) (by simp [kind])
  refine ⟨before ++ [mark], token, ⟨mark, by simp, opens⟩, ⟨next, rest, by simp [recorded], ?_⟩,
    start, stop, spelled⟩
  exact current ▸ closes

end Layout

/-- Tokens end with the end of the text. -/
def Closed (source : Source) (tokens : List Token) : Prop :=
  ∃ before last, tokens = before ++ [last] ∧ last.kind = .eof ∧ last.start = source.size

section Closed

variable {source : Source} {tokens : List Token} {token : Token} {kind : Kind} {start stop : Nat}

/-- It does not matter that the end of the text is read twice. -/
theorem Layout.Ends.init (ends : Ends source (tokens ++ [token]) stop)
    (closed : Closed source tokens) (last : token.start = source.size) :
    Ends source tokens stop := by
  obtain ⟨before, next, after, same, passed, ahead, how⟩ := ends
  rcases List.eq_nil_or_concat after with rfl | ⟨rest, final, rfl⟩
  · obtain ⟨others, ending, rfl, atEnd, size⟩ := closed
    obtain ⟨rfl, ⟨⟩⟩ := List.append_inj' same rfl
    exact ⟨others, ending, [], rfl,
      fun other inside => passed other (List.mem_append_left _ inside), by omega,
      .inr (.inr (.inl atEnd))⟩
  · have ends : tokens ++ [token] = (before ++ next :: rest) ++ [final] := by simp [same]
    exact ⟨before, next, rest, List.append_inj_left' ends rfl, passed, ahead, how⟩

/-- A token that leads does so without the token for the end. -/
theorem Layout.Leads.init (leads : Leads source (tokens ++ [token]) kind start)
    (closed : Closed source tokens) (goesOn : kind ≠ .eof) : Leads source tokens kind start := by
  obtain ⟨before, word, next, after, same, of, starts, unbroken⟩ := leads
  rcases List.eq_nil_or_concat after with rfl | ⟨rest, final, rfl⟩
  · obtain ⟨others, ending, rfl, atEnd, -⟩ := closed
    have ends : (others ++ [ending]) ++ [token] = (before ++ [word]) ++ [next] := by simp [same]
    obtain ⟨-, ⟨⟩⟩ := List.append_inj' (List.append_inj_left' ends rfl) rfl
    exact absurd (of.symm.trans atEnd) goesOn
  · have ends : tokens ++ [token] = (before ++ word :: next :: rest) ++ [final] := by simp [same]
    exact ⟨before, word, next, rest, List.append_inj_left' ends rfl, of, starts, unbroken⟩

/-- A token that trails does so without one that counts nothing up or down. -/
theorem Layout.Trails.init (trails : Trails source (tokens ++ [token]) stop)
    (other : token.kind ≠ .incDec) : Trails source tokens stop := by
  obtain ⟨before, operator, after, same, of, stops, unbroken⟩ := trails
  rcases List.eq_nil_or_concat after with rfl | ⟨rest, final, rfl⟩
  · obtain ⟨-, ⟨⟩⟩ := List.append_inj' same rfl
    exact absurd of other
  · have ends : tokens ++ [token] = (before ++ operator :: rest) ++ [final] := by simp [same]
    exact ⟨before, operator, rest, List.append_inj_left' ends rfl, of, stops, unbroken⟩

/-- Tokens that are joined are so without the token for the end. -/
theorem Layout.Joins.init (joins : Joins source (tokens ++ [token]) start)
    (ending : token.kind = .eof) : Joins source tokens start := by
  obtain ⟨before, word, next, after, same, starts, of, unbroken⟩ := joins
  rcases List.eq_nil_or_concat after with rfl | ⟨rest, final, rfl⟩
  · have ends : tokens ++ [token] = (before ++ [word]) ++ [next] := by simp [same]
    obtain ⟨-, ⟨⟩⟩ := List.append_inj' ends rfl
    exact absurd (of.symm.trans ending) (by decide)
  · have ends : tokens ++ [token] = (before ++ word :: next :: rest) ++ [final] := by simp [same]
    exact ⟨before, word, next, rest, List.append_inj_left' ends rfl, starts, of, unbroken⟩

/-- An arrow points without the token for the end. -/
theorem Layout.Points.init {function : FunctionForm}
    (points : Points source (tokens ++ [token]) start function) (ending : token.kind = .eof) :
    Points source tokens start function := by
  obtain ⟨before, last, arrow, after, same, of, known⟩ := points
  rcases List.eq_nil_or_concat after with rfl | ⟨rest, final, rfl⟩
  · have ends : tokens ++ [token] = (before ++ [last]) ++ [arrow] := by simp [same]
    obtain ⟨-, ⟨⟩⟩ := List.append_inj' ends rfl
    exact absurd (of.symm.trans ending) (by decide)
  · have ends : tokens ++ [token] = (before ++ last :: arrow :: rest) ++ [final] := by simp [same]
    exact ⟨before, last, arrow, rest, List.append_inj_left' ends rfl, of, known⟩

/-- The word of an asynchronous arrow stands before its parameters without the token for the end. -/
theorem Layout.Calls.init (calls : Calls source (tokens ++ [token]) start)
    (closed : Closed source tokens) (ending : token.kind = .eof)
    (last : token.start = source.size) : Calls source tokens start := by
  obtain ⟨before, word, after, same, starts, follows⟩ := calls
  rcases List.eq_nil_or_concat after with rfl | ⟨rest, final, rfl⟩
  · obtain ⟨others, final, rfl, atEnd, size⟩ := closed
    obtain ⟨-, ⟨⟩⟩ := List.append_inj' same rfl
    exact ⟨others, final, [], rfl, by omega, fun named => absurd (named.symm.trans atEnd) (by decide)⟩
  · have ends : tokens ++ [token] = (before ++ word :: rest) ++ [final] := by simp [same]
    obtain ⟨rfl, ⟨⟩⟩ := List.append_inj' ends rfl
    refine ⟨before, word, rest, rfl, starts, fun named => ?_⟩
    obtain ⟨next, others, same, kind⟩ := follows named
    cases rest with
    | nil =>
        obtain ⟨rfl, -⟩ := List.cons.inj same
        simp [ending] at kind
    | cons first rest =>
        obtain ⟨rfl, -⟩ := List.cons.inj same
        exact ⟨_, rest, rfl, kind⟩

/-- A token spells a form without the token for the end. -/
theorem Layout.Spells.init {form : Form} (spells : Spells source (tokens ++ [token]) form start stop)
    (ending : token.kind = .eof) : Spells source tokens form start stop := by
  obtain ⟨before, chunk, spelling⟩ := spells
  obtain ⟨mark, after, same, closes⟩ := spelling.closed
  rcases List.eq_nil_or_concat after with rfl | ⟨rest, final, rfl⟩
  · have ends : tokens ++ [token] = (before ++ [chunk]) ++ [mark] := by simp [same]
    obtain ⟨-, ⟨⟩⟩ := List.append_inj' ends rfl
    rcases Form.closing?_eq closes with kind | kind <;>
      exact absurd (ending.symm.trans kind) (by decide)
  · have ends : tokens ++ [token] = (before ++ chunk :: mark :: rest) ++ [final] := by simp [same]
    exact ⟨before, chunk, { spelling with
      closed := ⟨mark, rest, List.append_inj_left' ends rfl, closes⟩ }⟩

theorem Form.word?_ne_eof {form : Form} : ∀ word ∈ form.word?, word ≠ .eof := by
  intro word
  unfold word?
  split <;> rintro ⟨rfl⟩ <;> decide

/-- A node is laid as before without the token for the end. -/
theorem Node.Laid.init {heads : Bool} {node : Node}
    (laid : node.Laid (.ofTokens source (tokens ++ [token])) heads)
    (closed : Closed source tokens) (ending : token.kind = .eof)
    (last : token.start = source.size) : node.Laid (.ofTokens source tokens) heads :=
  ⟨fun ends => (laid.ends ends).init closed last,
    fun word same => (laid.leads word same).init closed (Form.word?_ne_eof word same),
    fun steps => (laid.trails steps).init (by simp [ending])⟩

/-- The tokens of a form stand as before without the token for the end. -/
theorem Form.Linked.init {form : Form} {types : Bool} (closed : Closed source tokens)
    (ending : token.kind = .eof) (last : token.start = source.size)
    (linked : form.Linked (.ofFunctions source (tokens ++ [token]) types) start) :
    form.Linked (.ofFunctions source tokens types) start := by
  cases form with
  | functionDeclaration | functionExpression => exact fun isAsync => (linked isAsync).init ending
  | arrowFunctionExpression =>
      exact ⟨fun plain untyped => (linked.1 plain untyped).init ending,
        fun isAsync => (linked.2 isAsync).init closed ending last⟩
  | _ => trivial

end Closed

end EcmaSyntax
