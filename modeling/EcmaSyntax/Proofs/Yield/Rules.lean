import EcmaSyntax.Grammar.Function
import EcmaSyntax.Proofs.Yield.Extent
import EcmaSyntax.Proofs.Yield.Line

namespace EcmaSyntax

namespace Grammar

/-- A node is a pattern that is as a law asks. -/
structure LawfulPattern (law : Law) (node : Node) : Prop where
  lawful : node.Lawful law
  pattern : node.Pattern

/-- One thing holds of what has been read, and another one as well if nothing is pending. -/
structure Hedged (covers settled : Prop) (pending : Option Nat) : Prop where
  covers : covers
  settled : pending = none → settled

namespace Hedged

variable {covers settled wider more both all : Prop} {pending other : Option Nat}

theorem mono (hedged : Hedged covers settled pending) (widens : covers → wider)
    (implies : settled → more) : Hedged wider more pending :=
  ⟨widens hedged.covers, fun none => implies (hedged.settled none)⟩

/-- Nothing is pending in two things together if nothing is in either. -/
theorem and (first : Hedged covers settled pending) (second : Hedged wider more other)
    (together : covers → wider → both) (implies : settled → more → all) :
    Hedged both all (pending <|> other) where
  covers := together first.covers second.covers
  settled none := by
    cases pending with
    | none => exact implies (first.settled rfl) (second.settled none)
    | some pos => cases none

end Hedged

/-- An expression is lawful, or may still be read as a pattern if something is pending. -/
abbrev NodeHedged (law : Law) (node : Node) : Option Nat → Prop :=
  Hedged (node.Covers law) (node.Lawful law)

/-- An expression that may still be read as a pattern is lawful if nothing is pending. -/
abbrev CoverLawful (law : Law) (cover : Cover Node) : Prop :=
  NodeHedged law cover.value cover.pending

/-- An expression that may still be read as a pattern is an operand if nothing is pending. -/
abbrev CoverApt (law : Law) (cover : Cover Node) : Prop :=
  Hedged (cover.value.Covers law) (cover.value.Apt law) cover.pending

/-- Expressions are lawful, or may still be read as patterns if something is pending. -/
abbrev AllHedged (law : Law) (nodes : List Node) : Option Nat → Prop :=
  Hedged (AllCovers law nodes) (AllLawful law nodes)

/-- An element of a list is lawful if nothing is pending. -/
abbrev SlotHedged (law : Law) (slot : Cover (Option Node)) : Prop :=
  Hedged (Maybe (Node.Covers law) slot.value) (PartLawful law slot.value) slot.pending

/-- The elements of a list are lawful, or may still be read as patterns if something is pending. -/
abbrev SlotsHedged (law : Law) (slots : List (Option Node)) : Option Nat → Prop :=
  Hedged (SlotsCovers law slots) (SlotsLawful law slots)

section Cover

variable {law : Law} {node : Node} {pending : Option Nat}

theorem NodeHedged.ofLawful (lawful : node.Lawful law) : NodeHedged law node pending :=
  ⟨.lawful lawful, fun _ => lawful⟩

theorem CoverApt.ofApt (apt : node.Apt law) : CoverApt law { value := node, pending } :=
  ⟨.lawful apt.lawful, fun _ => apt⟩

/-- What is apt or may become a pattern is lawful or may become one. -/
theorem CoverApt.lawful {cover : Cover Node} (apt : CoverApt law cover) : CoverLawful law cover :=
  apt.mono id Node.Apt.lawful

end Cover

/-- What is given for a goal: the left operand of the operators to come. -/
def Goal.Given (law : Law) : Goal → Prop
  | .operators left _ _ _ => left.Apt law
  | _ => True

/-- What the result for a goal is like. -/
def Goal.Good (law : Law) : (goal : Goal) → goal.Result → Prop
  | .assignment _ _ => CoverLawful law
  | .unary => CoverApt law
  | .atom => CoverApt law
  | .operators _ _ level _ => Node.Above law level
  | .statement _ _ => fun _ => True
  | .binding => LawfulPattern law
  | .element _ => Node.Apt law
  | .type => Node.Lawful law
  | .prefixType => Node.Lawful law
  | .primaryType => Node.Lawful law
  | .declared _ => Node.Lawful law

/-- If a mark is given for a goal, it is at an offset or after it. -/
def Goal.From (first : Nat) : Goal → Prop
  | .operators _ mark _ _ | .element mark => first ≤ mark.pos
  | _ => True

/-- The node that is given for a goal. -/
def Goal.known : Goal → List Node
  | .operators left _ _ _ => [left]
  | _ => []

/-- The expression that results for a goal. -/
def Goal.nodes : (goal : Goal) → goal.Result → List Node
  | .assignment _ _ => fun (cover : Cover Node) => [cover.value]
  | .unary => fun (cover : Cover Node) => [cover.value]
  | .atom => fun (cover : Cover Node) => [cover.value]
  | .operators _ _ _ _ => fun node => [node]
  | .element _ => fun node => [node]
  | _ => fun _ => []

/-- The expressions that the rules of the circle yield lie where they are read. -/
def Rules.Bounded (rules : Rules) : Prop := ∀ first goal,
  Grammar.Bounded first (goal.From first) goal.known (rules goal) goal.nodes

/-- An atom that is the word for an asynchronous function begins with no number and no text. If it
begins with a name it is the token that has been passed last. -/
def Rules.Naming (rules : Rules) : Prop :=
  ∀ setting (state : State), state.lexer.Tracked setting.toSetting →
    Gives (rules .atom) setting state fun (cover : Cover Node) after =>
      cover.value.isNamed "async" = true → state.lexer.kind ≠ .num ∧ state.lexer.kind ≠ .string ∧
        (state.lexer.kind = .name →
          after.lexer.After (fun token => token.start = state.lexer.start) setting.toSetting)

/-- The goal is a statement of any kind. -/
def Goal.isStatement : Goal → Bool
  | .statement _ _ => true
  | _ => false

/-- What a token makes of the labels before it. -/
def Kind.target? (kind : Kind) : Option LabelTarget :=
  if kind.isLoop then some .loop else if kind == .kwSwitch then some .switch else none

/-- The labels that a parse knows of are some directly before the current token, and some of
statements that have begun before it. -/
structure Fresh (chain outer : List Label) (state : State) : Prop where
  labels : state.labels = chain ++ outer
  chain : ∀ label ∈ chain, label.start = some state.lexer.start ∧
    label.target = Kind.target? state.lexer.kind
  outer : ∀ label ∈ outer, ∀ start, label.start = some start → Passed state.lexer start

/-- What stands around a statement are the labels before it, which the statement makes labels of
a loop or not, and what the labels around are known for. -/
structure Labeled (chain outer : List Label) (loops : Bool) (enclosures : List Enclosure) :
    Prop where
  named : ∀ name flag, .label name flag ∈ enclosures →
    ∃ label ∈ chain ++ outer, label.name = some name
  chain : ∀ label ∈ chain, ∀ name, label.name = some name → .label name loops ∈ enclosures
  known : ∀ label ∈ outer, ∀ name, label.name = some name →
    ∃ flag, .label name flag ∈ enclosures ∧ (label.target = some .loop → flag = true)
  aims : ∀ label ∈ outer, ∀ target, label.target = some target → target.enclosure ∈ enclosures

/-- A statement that begins at such a token follows the law in its place. It leaves as many labels
before it as there were, and those around as they were. -/
structure Begins (law : Law) (here : Lexer.State → Prop) (action : Parse Node) : Prop where
  steps : Steps action
  good : ∀ setting (state : State) chain outer, state.Under law setting → here state.lexer →
    Fresh chain outer state → Gives action setting state fun node after =>
      law.within after.lexer → Waiting law state →
        ∀ enclosures, Labeled chain outer node.isLoop enclosures →
          node.Follows law enclosures ∧ Waiting law after ∧
            ∃ others, others.length = chain.length ∧ after.labels = others ++ outer

/-- What the rules of the circle yield, in code of any mode. -/
structure Rules.Lawful (law : Law) (rules : Rules) : Prop where
  bounded : rules.Bounded
  naming : rules.Naming
  yieldsUnder : ∀ mode goal, goal.isStatement = false →
    Yields (law.under mode) (goal.Given (law.under mode)) (rules goal) (goal.Good (law.under mode))
  beginsUnder : ∀ mode declaration topLevel,
    Begins (law.under mode) (fun _ => True) (rules (.statement declaration topLevel))

variable {law : Law} {given : Prop} {rules : Rules}

/-- The rules yield what is lawful, each for its goal. -/
theorem Rules.Lawful.yields (lawful : rules.Lawful law) (goal : Goal)
    (other : goal.isStatement = false) : Yields law (goal.Given law) (rules goal) (goal.Good law) :=
  lawful.yieldsUnder law.mode goal other

/-- A statement begins behind its labels. -/
theorem Rules.Lawful.begins (lawful : rules.Lawful law) (declaration topLevel : Bool) :
    Begins law (fun _ => True) (rules (.statement declaration topLevel)) :=
  lawful.beginsUnder law.mode declaration topLevel

/-- The rules are as lawful for code of another mode. -/
theorem Rules.Lawful.under (lawful : rules.Lawful law) (mode : Mode) :
    rules.Lawful (law.under mode) :=
  ⟨lawful.bounded, lawful.naming, lawful.yieldsUnder, lawful.beginsUnder⟩

/-- Each rule is a step of a parse. -/
theorem Rules.Lawful.steps (lawful : rules.Lawful law) (goal : Goal) : Steps (rules goal) := by
  cases goal with
  | statement declaration topLevel => exact (lawful.begins declaration topLevel).steps
  | _ => exact (lawful.yields _ rfl).steps

/-- A value that is used as an expression is what it was. -/
theorem settle_yields {α : Type} {cover : Cover α} {good : α → Prop}
    (holds : given → cover.pending = none → good cover.value) :
    Yields law given cover.settle good := by
  unfold Cover.settle
  split
  · exact .unexpectedAt
  · next none => exact .pure fun known => holds known none

variable (lawful : rules.Lawful law)

include lawful

/-- An expression that may become a pattern is lawful, or may become one. -/
theorem cover_yields {noIn : Bool} :
    Yields law given (rules.cover noIn) (CoverLawful law) :=
  (lawful.yields (.assignment noIn false) rfl).ofGiven fun _ => trivial

/-- An expression without commas is lawful. -/
theorem assignment_yields {noIn : Bool} :
    Yields law given (rules.assignment noIn) (Node.Lawful law) :=
  (cover_yields lawful).bind fun _ => settle_yields fun known => known.2.settled

/-- An operand is apt. -/
theorem operand_yields :
    Yields law given rules.operand (Node.Apt law) :=
  ((lawful.yields .unary rfl).ofGiven fun _ => trivial).bind fun _ => settle_yields fun known => known.2.settled

/-- An expression that no operator takes apart is apt. -/
theorem atom_yields :
    Yields law given rules.atom (Node.Apt law) :=
  ((lawful.yields .atom rfl).ofGiven fun _ => trivial).bind fun _ => settle_yields fun known => known.2.settled

/-- An expression without commas lies where it has been read. -/
theorem assignment_bounded {first : Nat} {known : List Node} {noIn : Bool} :
    Bounded first given known (rules.assignment noIn) ([·]) :=
  ((lawful.bounded first (.assignment noIn false)).mono (fun _ => trivial) (List.nil_subset _)).bind
    fun _ => settle_bounded List.mem_cons_self

/-- A statement that has no label follows the law in its place. -/
theorem statement_yields {declaration topLevel : Bool} {enclosures : List Enclosure} :
    YieldsIn law enclosures given (rules.statement declaration topLevel)
      (Node.Follows law enclosures) where
  steps := (lawful.begins declaration topLevel).steps
  good setting state under node after ends within stands waiting _ := by
    obtain ⟨passed, backed⟩ := stands enclosures rfl
    obtain ⟨follows, kept, others, none, labels⟩ :=
      (lawful.begins declaration topLevel).good setting state [] state.labels under trivial
        ⟨rfl, nofun, passed⟩ node after ends within waiting enclosures
        ⟨backed.named, nofun, backed.known, backed.aims⟩
    refine ⟨follows, kept, ?_⟩
    rw [labels, List.length_eq_zero_iff.mp none, List.nil_append]

/-- What binds names is lawful. -/
theorem binding_yields :
    Yields law given rules.binding (LawfulPattern law) :=
  (lawful.yields .binding rfl).ofGiven fun _ => trivial

/-- A type is lawful. -/
theorem type_yields :
    Yields law given rules.type (Node.Lawful law) :=
  (lawful.yields .type rfl).ofGiven fun _ => trivial

end Grammar

end EcmaSyntax
