import EcmaSyntax.Grammar.Program
import EcmaSyntax.Proofs.Yield.Basic

namespace EcmaSyntax

/-- If the node is a name, it is the given one. -/
def Node.Echoes (text : String) (node : Node) : Prop := ∀ name, node.name? = some name → text = name

/-- The form is a pattern, or stands only in an object or in a pattern. -/
def Form.isPart : Form → Bool
  | .objectProperty .. | .spreadProperty .. | .restProperty .. | .restElement ..
  | .objectPattern .. | .arrayPattern .. | .assignmentPattern .. => true
  | _ => false

/-- The form is made of its parts in a way of its own: it is no name, no assignment and no part of
an object or a pattern. -/
def Form.isComposed : Form → Bool
  | .identifier .. | .assignmentExpression .. => false
  | form => !form.isPart

/-- The node is another one, or has been composed. -/
def Node.Grows (base node : Node) : Prop := node = base ∨ node.form.isComposed = true

section Echoes

variable {text : String} {base node : Node}

/-- What is composed is no name. -/
theorem Node.name?_of_isComposed (composed : node.form.isComposed = true) : node.name? = none := by
  unfold name?
  split
  · next same => simp [same, Form.isComposed] at composed
  · rfl

theorem Node.Echoes.ofNone (none : node.name? = none) : node.Echoes text := by
  intro name known
  rw [none] at known
  cases known

/-- What is composed is no given name either. -/
theorem Node.isNamed_of_isComposed (composed : node.form.isComposed = true) :
    node.isNamed text = false := by
  simp [isNamed, name?_of_isComposed composed]

/-- What grows out of an expression echoes what the expression echoes. -/
theorem Node.Grows.echoes (grows : base.Grows node) (echoes : base.Echoes text) :
    node.Echoes text := by
  rcases grows with rfl | composed
  · exact echoes
  · exact .ofNone (name?_of_isComposed composed)

end Echoes

namespace Grammar

/-- The text of the current token. -/
def State.text (state : State) : String := state.lexer.value.text?.getD ""

/-- What the rules of the circle read at a name repeats the name, if it is no more than a name. -/
structure Rules.Echoing (rules : Rules) : Prop where
  cover : ∀ noIn setting (state : State), state.lexer.kind = .name →
    Gives (rules (.assignment noIn false)) setting state fun (cover : Cover Node) _ =>
      cover.value.Echoes state.text
  unary : ∀ setting (state : State), state.lexer.kind = .name →
    Gives (rules .unary) setting state fun (cover : Cover Node) _ =>
      cover.value.Echoes state.text
  atom : ∀ setting (state : State), state.lexer.kind = .name →
    Gives (rules .atom) setting state fun (cover : Cover Node) _ =>
      cover.value.Echoes state.text
  operators : ∀ left mark level noIn setting state,
    Gives (rules (.operators left mark level noIn)) setting state fun (node : Node) _ =>
      left.Grows node

variable {setting : Setting} {state : State} {rules : Rules} {mark : Mark} {form : Form}
  {node base : Node} {text : String} {α β : Type}

namespace Ends

/-- A node is finished with its form. -/
theorem finish : Ends (Grammar.finish mark form) fun node => node.form = form :=
  last fun _ => last fun _ => guard (give rfl)

/-- A node is finished that has been composed. -/
theorem composed (composed : form.isComposed = true) :
    Ends (Grammar.finish mark form) fun node => node.form.isComposed = true :=
  finish.mono fun _ same => same ▸ composed

end Ends

/-- What comes out of a step has been composed. -/
abbrev Composes (action : Parse Node) : Prop := Ends action fun node => node.form.isComposed = true

section Name

/-- A function is composed. -/
theorem functionTail_composes {isAsync isStatement optionalId : Bool} :
    Composes (functionTail rules mark isAsync isStatement optionalId) := by
  refine .last fun _ => .last fun _ => .last fun _ => .last fun _ => .last fun _ => .guard ?_
  refine .choose fun _ => .last fun _ => .last fun _ => .last fun _ => .last fun _ => .composed ?_
  split <;> rfl

/-- An arrow function is composed. -/
theorem arrowTail_composes {expressions : List Node} {isAsync : Bool}
    {returnType : Option Node} :
    Composes (arrowTail rules mark expressions isAsync returnType) :=
  .last fun _ => .last fun _ => .composed rfl

/-- A name echoes its token. -/
theorem identifier_echoes {liberal : Bool} (named : state.lexer.kind = .name) :
    Gives (identifier liberal) setting state fun node _ => node.Echoes state.text := by
  have ends : ∀ mark : Mark, Ends (do
      if !liberal && state.text == "await" && (← get).inAsync then raise mark.pos .awaitInAsync
      next
      finish mark (.identifier state.text none false)) fun node => node.Echoes state.text := by
    refine fun mark => .last fun _ => .guard (.last fun _ => Ends.finish.mono fun node same => ?_)
    intro name known
    rw [Node.name?, same] at known
    exact Option.some.inj known
  rw [identifier, Gives.bind_iff, gives_mark, Gives.bind_iff, gives_kind, Gives.bind_iff,
    gives_valueText]
  refine gives_ite (fun _ => ?_) fun other => absurd (beq_iff_eq.mpr named) other
  refine .last fun _ _ => gives_ite (fun _ => .last fun _ _ => ?_) fun _ => ?_
  all_goals exact Gives.bind_iff.mpr (gives_pure.mpr (ends _ _ _))

/-- An arrow function grows out of its parameter. -/
theorem nameOrArrow_grows {maybeArrow : Bool} :
    Ends (nameOrArrow rules mark base maybeArrow) (Node.Grows base) :=
  .last fun _ => .choose fun _ => .ite (arrowTail_composes.mono fun _ => .inr) (.give (.inl rfl))

/-- What begins with the word for asynchronous code grows out of the word. -/
theorem asyncOrName_grows {maybeArrow : Bool} :
    Ends (asyncOrName rules mark base maybeArrow) (Node.Grows base) := by
  refine .last fun _ => .last fun _ => .ite ?_ (.last fun _ => .ite ?_ nameOrArrow_grows)
  · exact .last fun _ => functionTail_composes.mono fun _ => .inr
  · exact .last fun _ => .last fun _ => arrowTail_composes.mono fun _ => .inr

theorem awaitTail_composes : Composes (awaitTail rules mark) :=
  .last fun _ => .guard (.last fun _ => .guard (.last fun _ => .last fun _ => .composed rfl))

/-- An expression that begins with a name echoes it. -/
theorem nameExpression_echoes {maybeArrow : Bool} (named : state.lexer.kind = .name) :
    Gives (nameExpression rules mark maybeArrow) setting state fun node _ =>
      node.Echoes state.text := by
  refine gives_look fun _ => gives_look fun _ => gives_look fun _ =>
    gives_ite (fun _ => fun _ _ absent => by cases absent) fun _ => ?_
  refine gives_look fun _ => gives_look fun _ => Gives.bind_iff.mpr ?_
  refine (identifier_echoes named).mono fun id after echoes => ?_
  have grown : ∀ {action : Parse Node}, Ends action (Node.Grows id) →
      Gives action setting after fun node _ => node.Echoes state.text := fun grows =>
    (grows setting after).mono fun _ _ grown => grown.echoes echoes
  split
  · exact grown (.last fun _ => .ite (awaitTail_composes.mono fun _ => .inr) nameOrArrow_grows)
  · exact grown asyncOrName_grows
  · exact grown nameOrArrow_grows

/-- So does every expression that no operator takes apart. -/
theorem primary_echoes (named : state.lexer.kind = .name) :
    Gives (primary rules) setting state fun cover _ => cover.value.Echoes state.text := by
  rw [primary, Gives.bind_iff, gives_kind, named]
  refine Gives.bind_iff.mpr ?_
  rw [plainPrimary, Gives.bind_iff, gives_mark, Gives.bind_iff, gives_get, Gives.bind_iff,
    gives_kind, named]
  exact (nameExpression_echoes named).mono fun _ _ echoes => gives_pure.mpr echoes

end Name

section Operator

theorem memberTail?_composes : Ends (memberTail? rules mark base)
    fun tried => ∀ node ∈ tried, node.form.isComposed = true := by
  have some : ∀ {form : Form}, form.isComposed = true → Ends (do
      return some (← finish mark form)) fun tried => ∀ node ∈ tried, node.form.isComposed = true :=
    fun composed => (Ends.composed composed).bind fun _ kept => .give fun _ same =>
      Option.some.inj same ▸ kept
  refine .last fun current => ?_
  split
  · exact .last fun _ => .last fun _ => some rfl
  · exact .last fun _ => .last fun _ => .last fun _ => some rfl
  · exact .last fun _ => some rfl
  · exact .give nofun

theorem callTail_composes :
    Ends (callTail rules mark base) fun call => call.1.form.isComposed = true := by
  refine .last fun _ => .last fun _ => .last fun _ => .last fun _ => ?_
  refine (Ends.composed rfl).bind fun _ kept => .last fun _ => .ite ?_ (.last fun _ => .give kept)
  exact .last fun _ => .last fun _ => arrowTail_composes.bind fun _ kept => .give kept

/-- An expression to which more has been added is composed. -/
theorem accessTurn_composes : Ends (accessTurn rules mark base)
    (Turned (fun node => node.form.isComposed = true) (Node.Grows base)) := by
  refine .last fun current => ?_
  split
  · exact .last fun _ => .last fun _ => (Ends.composed rfl).bind fun _ kept => .give kept
  · exact callTail_composes.bind fun result kept => .ite (.give (.inr kept)) (.give kept)
  · refine memberTail?_composes.bind fun tried kept => ?_
    split
    · exact .give (kept _ rfl)
    · exact .give (.inl rfl)

/-- An expression is left as it is, or a member of it is taken, or it is called. -/
theorem access_grows : Ends (access rules mark base) (Node.Grows base) := by
  refine .loop (Node.Grows base) (.inl rfl) fun left grown => accessTurn_composes.mono ?_
  intro turned known
  cases turned with
  | more node => exact .inr known
  | done node =>
      rcases known with rfl | composed
      · exact grown
      · exact .inr composed

/-- Steps grow out of their operand. -/
theorem stepsAfter_grows : Ends (stepsAfter mark base) (Node.Grows base) := by
  refine .loop (Node.Grows base) (.inl rfl) fun left grown => .last fun _ => .last fun _ => ?_
  refine .ite (.last fun _ => .last fun _ => .last fun _ => ?_) (.give grown)
  exact (Ends.composed rfl).bind fun _ kept => .give (.inr kept)

theorem operation_composes {kind : Kind} {operator : String} {level : Nat} {noIn : Bool} :
    Composes (operation rules base mark kind operator level noIn) := by
  have composed : ∀ right, (binaryForm kind operator base right).isComposed = true := by
    intro right
    unfold binaryForm
    split <;> rfl
  unfold operation
  exact .guard (.last fun _ => .last fun _ => .last fun _ => .composed (composed _))

/-- Operations grow out of their first operand. -/
theorem operators_grows {level : Nat} {noIn : Bool} :
    Ends (operators rules base mark level noIn) (Node.Grows base) := by
  refine .loop (Node.Grows base) (.inl rfl) fun left grown => .last fun current => ?_
  split
  · exact .give grown
  · exact .ite (.give grown) (.last fun _ => operation_composes.bind fun _ kept =>
      .give (.inr kept))

variable (echoing : rules.Echoing)

include echoing

/-- A chain of members and calls echoes the name that it begins with. -/
theorem accessChain_echoes (named : state.lexer.kind = .name) :
    Gives (accessChain rules) setting state fun cover _ => cover.value.Echoes state.text := by
  refine gives_look fun _ => gives_look fun _ => Gives.bind_iff.mpr ?_
  refine (echoing.atom setting state named).mono fun base after echoes => ?_
  refine gives_ite (fun _ => gives_pure.mpr echoes) fun _ => Gives.bind_iff.mpr ?_
  exact (access_grows setting after).mono fun _ _ grown => gives_pure.mpr (grown.echoes echoes)

/-- An operand echoes the name that it begins with. -/
theorem unary_echoes (named : state.lexer.kind = .name) :
    Gives (unary rules) setting state fun cover _ => cover.value.Echoes state.text := by
  rw [unary, Gives.bind_iff, gives_kind, named]
  refine gives_look fun _ => Gives.bind_iff.mpr ?_
  refine (accessChain_echoes echoing named).mono fun operand after echoes => ?_
  refine gives_ite (fun _ => gives_pure.mpr echoes) fun _ => Gives.bind_iff.mpr ?_
  exact (stepsAfter_grows setting after).mono fun _ _ grown => gives_pure.mpr (grown.echoes echoes)

/-- A conditional expression echoes the name that it begins with. -/
theorem conditional_echoes {noIn : Bool} (named : state.lexer.kind = .name) :
    Gives (conditional rules noIn) setting state fun cover _ =>
      cover.value.Echoes state.text := by
  have test : Gives (binary rules noIn) setting state fun cover _ =>
      cover.value.Echoes state.text := by
    refine gives_look fun _ => Gives.bind_iff.mpr ?_
    refine (echoing.unary setting state named).mono fun operand after echoes => ?_
    refine gives_ite (fun _ => gives_pure.mpr echoes) fun _ => Gives.bind_iff.mpr ?_
    exact (echoing.operators _ _ _ _ setting after).mono fun _ _ grown =>
      gives_pure.mpr (grown.echoes echoes)
  refine gives_look fun _ => Gives.bind_iff.mpr (test.mono fun test after echoes => ?_)
  refine gives_ite (fun _ => gives_pure.mpr echoes) fun _ => Gives.last fun _ middle => ?_
  refine gives_ite (fun _ => ?_) fun _ => gives_pure.mpr echoes
  have chosen : ∀ mark : Mark, Ends (do
      let consequent ← rules.assignment false
      expect .colon
      let alternate ← rules.assignment noIn
      return { value := ← finish mark (.conditionalExpression test.value consequent alternate) })
      fun cover : Cover Node => cover.value.form.isComposed = true := fun _ =>
    .last fun _ => .last fun _ => .last fun _ => (Ends.composed rfl).bind fun _ kept => .give kept
  exact (chosen _ setting middle).mono fun _ _ composed =>
    .ofNone (Node.name?_of_isComposed composed)

omit echoing in
/-- What is assigned makes an assignment. -/
theorem assignmentTail_forms {noIn : Bool} : Ends (assignmentTail rules mark base noIn)
    fun node => ∃ operator left right annot,
      node.form = .assignmentExpression operator left right annot :=
  .last fun _ => .last fun _ => .choose fun _ => .last fun _ => .last fun _ => .last fun _ =>
    .last fun _ => Ends.finish.mono fun _ same => ⟨_, _, _, _, same⟩

/-- An expression without commas echoes the name that it begins with. -/
theorem assignment_echoes {noIn : Bool} (named : state.lexer.kind = .name) :
    Gives (assignment rules noIn false) setting state fun cover _ =>
      cover.value.Echoes state.text := by
  have rest : ∀ (mark : Mark) (state : State), state.lexer.kind = .name → Gives (do
      let left ← conditional rules noIn
      if (← kind).isAssign then return { value := ← assignmentTail rules mark left.value noIn }
      else return left) setting state fun cover _ => cover.value.Echoes state.text := by
    refine fun mark state named => Gives.bind_iff.mpr ?_
    refine (conditional_echoes echoing named).mono fun left after echoes => ?_
    refine gives_look fun _ => gives_ite (fun _ => ?_) fun _ => gives_pure.mpr echoes
    have assigned : Ends (assignmentTail rules mark left.value noIn)
        fun node => node.name? = none :=
      assignmentTail_forms.mono fun node ⟨_, _, _, _, same⟩ => by rw [Node.name?, same]
    exact Gives.bind_iff.mpr ((assigned setting after).mono fun _ _ none =>
      gives_pure.mpr (.ofNone none))
  refine gives_nested (fun (cover : Cover Node) _ => cover.value.Echoes state.text)
    fun deeper same => ?_
  have here : deeper.lexer.kind = .name := same ▸ named
  have text : state.text = deeper.text := by rw [State.text, State.text, same]
  rw [Gives.bind_iff, gives_atKind, here]
  refine gives_look fun _ => gives_look fun mark => gives_look fun _ => gives_look fun _ => ?_
  rw [text]
  refine gives_ite (fun _ => Gives.bind_iff.mpr (gives_modify.mpr ?_)) fun _ => ?_
  · exact rest mark { deeper with arrowAt := some mark.pos } here
  · exact rest mark deeper here

/-- An expression echoes the name that it begins with. -/
theorem expression_echoes {noIn : Bool} (named : state.lexer.kind = .name) :
    Gives (expression rules noIn) setting state fun node _ => node.Echoes state.text := by
  have first : Gives (rules.assignment noIn) setting state fun node _ =>
      node.Echoes state.text := by
    refine Gives.bind_iff.mpr ((echoing.cover noIn setting state named).mono ?_)
    intro cover after echoes
    unfold Cover.settle
    split
    · exact fun _ _ absent => by cases absent
    · exact gives_pure.mpr echoes
  refine gives_look fun _ => Gives.bind_iff.mpr (first.mono fun first after echoes => ?_)
  refine gives_look fun _ => gives_ite (fun _ => ?_) fun _ => gives_pure.mpr echoes
  exact .last fun _ _ => .last fun _ _ => ((Ends.composed rfl) _ _).mono fun _ _ composed =>
    .ofNone (Node.name?_of_isComposed composed)

end Operator

/-- A rule repeats names if the rules that it refers to do. -/
theorem rule_echoing (echoing : rules.Echoing) : (rule rules).Echoing where
  cover _ _ _ named := assignment_echoes echoing named
  unary _ _ named := unary_echoes echoing named
  atom _ _ named := primary_echoes named
  operators _ _ _ _ := operators_grows

/-- The rules echo, however often they refer to each other. -/
theorem rulesWithin_echoing (count : Nat) : (rulesWithin count).Echoing := by
  induction count with
  | zero =>
      have never : ∀ {goal : Goal} {setting state post}, Gives (rulesWithin 0 goal) setting state
          post := fun _ _ absent => by cases absent
      exact ⟨fun _ _ _ _ => never, fun _ _ _ => never, fun _ _ _ => never, fun _ _ _ _ _ _ => never⟩
  | succ count inductionHypothesis => exact rule_echoing inductionHypothesis

end Grammar

end EcmaSyntax
