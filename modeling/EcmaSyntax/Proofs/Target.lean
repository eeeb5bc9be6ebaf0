import EcmaSyntax.Proofs.Outcome
import EcmaSyntax.Proofs.Tree.Binding
import Mathlib.Data.List.Forall2

namespace EcmaSyntax

/-- The form is that of a target as it stands. Members may only be assigned to. -/
def Form.isSettled (isBinding : Bool) : Form → Bool
  | .identifier .. => true
  | .objectPattern .. => true
  | .arrayPattern .. => true
  | .assignmentPattern .. => true
  | .memberExpression .. => !isBinding
  | _ => false

/-- What the rest of a list is given to has this form: it is a name, a member or a list of
targets. -/
def Form.takesRest : Form → Bool
  | .identifier .. => true
  | .memberExpression .. => true
  | .arrayPattern .. => true
  | _ => false

/-- The form is that of an element of a list that begins with three dots. -/
def Form.isDotted : Form → Bool
  | .spreadElement .. => true
  | .restElement .. => true
  | _ => false

/-- The form is that of a member of an object, which is no expression. -/
def Form.isObjectMember : Form → Bool
  | .objectProperty .. => true
  | .objectMethod .. => true
  | .spreadProperty .. => true
  | _ => false

/-- A target as it stands does not begin with three dots. -/
theorem Form.isDotted_of_isSettled {isBinding : Bool} {form : Form}
    (settled : form.isSettled isBinding = true) : form.isDotted = false := by
  unfold Form.isSettled at settled
  split at settled
  case h_6 => cases settled
  all_goals rfl

mutual

/-- An expression, or a member of an object, turns into a target: its form changes to that of a
pattern with the same parts in the same order, where those of an object or a list have turned into
targets themselves. Everything else stays. -/
inductive Node.TurnsInto (isBinding : Bool) : Node → Node → Prop
  | settled {node : Node} (same : node.form.isSettled isBinding = true) :
      TurnsInto isBinding node node
  | object {node : Node} {properties targets : List Node} {annot : Option Node}
      (same : node.form = .objectExpression properties annot)
      (each : List.Forall₂ (TurnsInto isBinding) properties targets) :
      TurnsInto isBinding node { node with form := .objectPattern targets annot false }
  | property {node key value target : Node} {method shorthand computed : Bool}
      {decorators : List Node}
      (same : node.form = .objectProperty method shorthand computed decorators key value)
      (inner : TurnsInto isBinding value target) :
      TurnsInto isBinding node
        { node with form := .objectProperty method shorthand computed decorators key target }
  | spread {node argument : Node} (same : node.form = .spreadProperty argument) :
      TurnsInto isBinding node { node with form := .restProperty argument }
  | list {node : Node} {elements targets : List (Option Node)} {annot : Option Node}
      (same : node.form = .arrayExpression elements annot)
      (each : List.Forall₂ (Option.Rel (TurnsInto isBinding)) elements targets) :
      TurnsInto isBinding node { node with form := .arrayPattern targets annot false }
  | listWithRest {node last rest : Node} {elements targets : List (Option Node)}
      {annot : Option Node} (same : node.form = .arrayExpression (elements ++ [some last]) annot)
      (each : List.Forall₂ (Option.Rel (TurnsInto isBinding)) elements targets)
      (closes : Node.BecomesRest isBinding last rest) :
      TurnsInto isBinding node
        { node with form := .arrayPattern (targets ++ [some rest]) annot false }
  | assignment {node left right : Node} {annot : Option Node}
      (same : node.form = .assignmentExpression "=" left right annot) :
      TurnsInto isBinding node { node with form := .assignmentPattern left right annot }

/-- The last element of a list becomes its rest: a spread does so if it has a target that a rest may
have, and a rest stays as it is. -/
inductive Node.BecomesRest (isBinding : Bool) : Node → Node → Prop
  | spread {last argument target : Node} (same : last.form = .spreadElement argument)
      (inner : Node.TurnsInto isBinding argument target) (takes : target.form.takesRest = true) :
      BecomesRest isBinding last { last with form := .restElement target none false }
  | kept {last argument : Node} {annot : Option Node} {isOptional : Bool}
      (same : last.form = .restElement argument annot isOptional) : BecomesRest isBinding last last

end

/-- What becomes the rest of a list has dots before it. -/
theorem Node.BecomesRest.dotted {isBinding : Bool} {last rest : Node}
    (closes : last.BecomesRest isBinding rest) : last.form.isDotted = true := by
  cases closes <;> rw [‹last.form = _›] <;> rfl

namespace Node.TurnsInto

variable {isBinding : Bool} {node target : Node}

/-- A form that is a target by itself stays as it is. -/
theorem settled_iff (same : node.form.isSettled isBinding = true) :
    node.TurnsInto isBinding target ↔ target = node := by
  constructor
  · intro turns
    cases turns <;> simp_all [Form.isSettled]
  · rintro rfl
    exact .settled same

/-- An object turns into a pattern if each of its properties turns into one. -/
theorem object_iff {properties : List Node} {annot : Option Node}
    (same : node.form = .objectExpression properties annot) :
    node.TurnsInto isBinding target ↔
      ∃ targets, List.Forall₂ (TurnsInto isBinding) properties targets ∧
        target = { node with form := .objectPattern targets annot false } := by
  constructor
  · intro turns
    cases turns <;> simp_all [Form.isSettled]
  · rintro ⟨targets, each, rfl⟩
    exact .object same each

/-- A property turns into one of a pattern if its value turns into a target. -/
theorem property_iff {key value : Node} {method shorthand computed : Bool} {decorators : List Node}
    (same : node.form = .objectProperty method shorthand computed decorators key value) :
    node.TurnsInto isBinding target ↔
      ∃ inner, value.TurnsInto isBinding inner ∧ target =
        { node with form := .objectProperty method shorthand computed decorators key inner } := by
  constructor
  · intro turns
    cases turns <;> simp_all [Form.isSettled]
  · rintro ⟨inner, turns, rfl⟩
    exact .property same turns

/-- A spread in an object stays what it is. -/
theorem spread_iff {argument : Node} (same : node.form = .spreadProperty argument) :
    node.TurnsInto isBinding target ↔ target = { node with form := .restProperty argument } := by
  constructor
  · intro turns
    cases turns <;> simp_all [Form.isSettled]
  · rintro rfl
    exact .spread same

/-- An assignment turns into a default if nothing is computed by it. -/
theorem assignment_iff {operator : String} {left right : Node} {annot : Option Node}
    (same : node.form = .assignmentExpression operator left right annot) :
    node.TurnsInto isBinding target ↔
      operator = "=" ∧ target = { node with form := .assignmentPattern left right annot } := by
  constructor
  · intro turns
    cases turns <;> simp_all [Form.isSettled]
  · rintro ⟨rfl, rfl⟩
    exact .assignment same

/-- What begins with three dots is no target by itself. -/
theorem not_dotted (turns : node.TurnsInto isBinding target) : node.form.isDotted = false := by
  cases turns with
  | settled same => exact Form.isDotted_of_isSettled same
  | _ same => rw [same]; rfl

/-- Elements that turn into targets by themselves have no dots before them. -/
theorem undotted {elements targets : List (Option Node)}
    (each : List.Forall₂ (Option.Rel (TurnsInto isBinding)) elements targets) (element : Node)
    (inside : some element ∈ elements) : element.form.isDotted = false := by
  induction each with
  | nil => cases inside
  | cons head _ inductionHypothesis =>
      rcases List.mem_cons.mp inside with rfl | later
      · cases head with
        | some turns => exact turns.not_dotted
      · exact inductionHypothesis later

/-- An array without a rest turns into a pattern if each of its elements does. -/
theorem list_iff {elements : List (Option Node)} {annot : Option Node}
    (same : node.form = .arrayExpression elements annot)
    (ends : ∀ last, elements.getLast? = some (some last) → last.form.isDotted = false) :
    node.TurnsInto isBinding target ↔
      ∃ targets, List.Forall₂ (Option.Rel (TurnsInto isBinding)) elements targets ∧
        target = { node with form := .arrayPattern targets annot false } := by
  constructor
  · intro turns
    cases turns with
    | list other each =>
        cases same.symm.trans other
        exact ⟨_, each, rfl⟩
    | listWithRest other each closes =>
        cases same.symm.trans other
        exact absurd closes.dotted (by simp [ends _ List.getLast?_concat])
    | _ other => simp_all [Form.isSettled]
  · rintro ⟨targets, each, rfl⟩
    exact .list same each

/-- An array with a spread at its end turns into a pattern if all before it does, and the spread
becomes the rest. -/
theorem listWithRest_iff {last : Node} {elements : List (Option Node)} {annot : Option Node}
    (same : node.form = .arrayExpression (elements ++ [some last]) annot)
    (dotted : last.form.isDotted = true) :
    node.TurnsInto isBinding target ↔
      ∃ targets rest, List.Forall₂ (Option.Rel (TurnsInto isBinding)) elements targets ∧
        last.BecomesRest isBinding rest ∧
          target = { node with form := .arrayPattern (targets ++ [some rest]) annot false } := by
  constructor
  · intro turns
    cases turns with
    | list other each =>
        cases same.symm.trans other
        exact absurd dotted (by simp [undotted each last (by simp)])
    | listWithRest other each closes =>
        obtain ⟨lists, rfl⟩ := Form.arrayExpression.inj (same.symm.trans other)
        obtain ⟨rfl, final⟩ := List.append_inj' lists rfl
        cases final
        exact ⟨_, _, each, closes, rfl⟩
    | _ other => simp_all [Form.isSettled]
  · rintro ⟨targets, rest, each, closes, rfl⟩
    exact .listWithRest same each closes

/-- What an expression has turned into stays as it is. -/
theorem settled_of_not_member (turns : node.TurnsInto isBinding target)
    (alone : node.form.isObjectMember = false) : target.form.isSettled isBinding = true := by
  cases turns with
  | settled same => exact same
  | property same => simp [same, Form.isObjectMember] at alone
  | spread same => simp [same, Form.isObjectMember] at alone
  | _ => rfl

end Node.TurnsInto

namespace Grammar

variable {isBinding : Bool} {setting : Setting} {state : State}

theorem succeeds_raise {α : Type} {pos : Nat} {problem : Problem} {post : α → State → Prop} :
    Succeeds (raise pos problem) setting state post ↔ False := Iff.rfl

theorem succeeds_hasTypes {post : Bool → State → Prop} :
    Succeeds hasTypes setting state post ↔ post setting.flow state := Iff.rfl

theorem succeeds_checkRest {argument : Node} {post : Unit → State → Prop} :
    Succeeds (checkRest argument) setting state post ↔
      argument.form.takesRest = true ∧ post () state := by
  unfold checkRest
  split
  case h_4 name member list =>
    have other : argument.form.takesRest = false := by
      unfold Form.takesRest
      split <;> simp_all
    simp only [other, Bool.false_eq_true, false_and]
    exact Iff.rfl
  all_goals
    rw [‹argument.form = _›]
    simp [Form.takesRest]

/-- What is refused as a method turns into no target. -/
theorem succeeds_refuseMethod {property target : Node} (turns : property.TurnsInto isBinding target)
    {post : Unit → State → Prop} :
    Succeeds (refuseMethod property) setting state post ↔ post () state := by
  unfold refuseMethod
  split
  · next same => cases turns <;> simp_all [Form.isSettled]
  · exact succeeds_pure

theorem post_of_refuseMethod {property : Node} {post : Unit → State → Prop}
    (succeeds : Succeeds (refuseMethod property) setting state post) : post () state := by
  unfold refuseMethod at succeeds
  split at succeeds
  · split at succeeds
    · exact (succeeds_raise.mp succeeds).elim
    · exact (succeeds_raise.mp succeeds).elim
  · exact succeeds

/-- A node becomes what it turns into, and nothing else happens. -/
def Turns (isBinding : Bool) (setting : Setting) (node : Node) : Prop :=
  ∀ (state : State) (post : Node → State → Prop),
    Succeeds (formToTarget isBinding node) setting state post ↔
      ∃ target, node.TurnsInto isBinding target ∧ post target state

/-- The elements of a list turn into targets, but for the last one, whose place is taken by what
closes the list. -/
theorem slotsToTargets_succeeds_iff {closing : Option Node} {elements last : List (Option Node)}
    (closes : last.length = closing.toList.length)
    (each : ∀ element, some element ∈ elements → Turns isBinding setting element)
    {post : List (Option Node) → State → Prop} :
    Succeeds (slotsToTargets isBinding false closing (elements ++ last)) setting state post ↔
      ∃ targets, List.Forall₂ (Option.Rel (Node.TurnsInto isBinding)) elements targets ∧
        post (targets ++ closing.toList.map some) state := by
  induction elements generalizing state post with
  | nil =>
      cases closing with
      | none => simp_all [slotsToTargets]
      | some rest =>
          obtain ⟨slot, rfl⟩ := List.length_eq_one_iff.mp closes
          simp [slotsToTargets.eq_def]
  | cons slot rest inductionHypothesis =>
      have goesOn : ((rest ++ last).isEmpty && closing.isSome) = false := by
        cases closing with
        | none => simp
        | some node =>
            obtain ⟨slot, rfl⟩ := List.length_eq_one_iff.mp closes
            simp
      have others {state : State} := @inductionHypothesis state fun element inside =>
        each element (List.mem_cons_of_mem _ inside)
      rw [List.cons_append, slotsToTargets.eq_def]
      simp only [goesOn, Bool.false_eq_true, if_false, List.forall₂_cons_left_iff]
      cases slot with
      | none =>
          simp only [Succeeds.bind_iff, others, succeeds_pure]
          constructor
          · rintro ⟨targets, turned, fulfilled⟩
            exact ⟨_, ⟨none, targets, .none, turned, rfl⟩, fulfilled⟩
          · rintro ⟨_, ⟨_, targets, ⟨⟩, turned, rfl⟩, fulfilled⟩
            exact ⟨targets, turned, fulfilled⟩
      | some node =>
          simp only [Succeeds.bind_iff, Node.prepared, Bool.false_eq_true, if_false,
            each node List.mem_cons_self _ _, others, succeeds_pure]
          constructor
          · rintro ⟨target, turns, targets, turned, fulfilled⟩
            exact ⟨_, ⟨some target, targets, .some turns, turned, rfl⟩, fulfilled⟩
          · rintro ⟨_, ⟨_, targets, ⟨turns⟩, turned, rfl⟩, fulfilled⟩
            exact ⟨_, turns, targets, turned, fulfilled⟩

section Turning

variable (untyped : setting.flow = false)

include untyped

theorem succeeds_toTarget {node : Node} {post : Node → State → Prop} :
    Succeeds (toTarget isBinding node) setting state post ↔
      Succeeds (formToTarget isBinding node) setting state post := by
  rw [toTarget, Succeeds.bind_iff, succeeds_hasTypes, untyped]
  rfl

/-- The properties of an object turn into targets one by one. -/
theorem propertiesToTargets_succeeds_iff {properties : List Node}
    (each : ∀ property ∈ properties, Turns isBinding setting property)
    {post : List Node → State → Prop} :
    Succeeds (propertiesToTargets isBinding properties) setting state post ↔
      ∃ targets, List.Forall₂ (Node.TurnsInto isBinding) properties targets ∧
        post targets state := by
  induction properties generalizing state post with
  | nil => simp [propertiesToTargets]
  | cons property rest inductionHypothesis =>
      have turns := each property List.mem_cons_self
      have others {state : State} := @inductionHypothesis state fun property inside =>
        each property (List.mem_cons_of_mem _ inside)
      rw [propertiesToTargets]
      simp only [Succeeds.bind_iff, succeeds_toTarget untyped, turns _ _, others, succeeds_pure,
        List.forall₂_cons_left_iff]
      constructor
      · intro succeeds
        obtain ⟨target, turns, targets, each, fulfilled⟩ := post_of_refuseMethod succeeds
        exact ⟨_, ⟨target, targets, turns, each, rfl⟩, fulfilled⟩
      · rintro ⟨_, ⟨target, targets, turns, each, rfl⟩, fulfilled⟩
        exact (succeeds_refuseMethod turns).mpr ⟨target, turns, targets, each, fulfilled⟩

/-- The elements of an array turn into targets one by one, the last one also if it is spread. -/
theorem elementsToTargets_succeeds_iff {elements : List (Option Node)} {node : Node}
    {annot : Option Node} (same : node.form = .arrayExpression elements annot)
    (each : ∀ element, some element ∈ elements → Turns isBinding setting element ∧
      ∀ argument, element.form = .spreadElement argument → Turns isBinding setting argument)
    {post : Node → State → Prop} :
    Succeeds (elementsToTargets isBinding elements) setting state (fun targets after =>
      post { node with form := .arrayPattern targets annot false } after) ↔
        ∃ target, node.TurnsInto isBinding target ∧ post target state := by
  rw [elementsToTargets, Succeeds.bind_iff, succeeds_hasTypes, untyped]
  simp only [Bool.false_eq_true, if_false, Node.prepared]
  have turns : ∀ element, some element ∈ elements → Turns isBinding setting element :=
    fun element inside => (each element inside).1
  -- a list whose last element does not begin with three dots
  have plain (ends : ∀ last, elements.getLast? = some (some last) → last.form.isDotted = false) :
      Succeeds (slotsToTargets isBinding false none elements) setting state (fun targets after =>
        post { node with form := .arrayPattern targets annot false } after) ↔
          ∃ target, node.TurnsInto isBinding target ∧ post target state := by
    have slots := @slotsToTargets_succeeds_iff isBinding setting state none elements [] rfl turns
    simp only [List.append_nil] at slots
    simp only [slots, Node.TurnsInto.list_iff same ends]
    constructor
    · rintro ⟨targets, turned, fulfilled⟩
      exact ⟨_, ⟨targets, turned, rfl⟩, by simpa using fulfilled⟩
    · rintro ⟨_, ⟨targets, turned, rfl⟩, fulfilled⟩
      exact ⟨targets, turned, by simpa using fulfilled⟩
  split
  · next last closes =>
      obtain ⟨items, rfl⟩ := List.getLast?_eq_some_iff.mp closes
      have ofItems : ∀ element, some element ∈ items → Turns isBinding setting element :=
        fun element inside => turns element (List.mem_append_left _ inside)
      have slots (rest : Node) := @slotsToTargets_succeeds_iff isBinding setting state (some rest)
        items [some last] rfl ofItems
      split
      · next argument spread =>
          change last.form = .spreadElement argument at spread
          have dotted : last.form.isDotted = true := by rw [spread]; rfl
          simp only [Succeeds.bind_iff, succeeds_toTarget untyped, succeeds_checkRest, slots,
            (each last (by simp)).2 argument spread _ _, Node.TurnsInto.listWithRest_iff same dotted]
          constructor
          · rintro ⟨inner, turns, takes, targets, turned, fulfilled⟩
            exact ⟨_, ⟨targets, _, turned, .spread spread turns takes, rfl⟩, fulfilled⟩
          · rintro ⟨_, ⟨targets, _, turned, closes, rfl⟩, fulfilled⟩
            cases closes with
            | spread other turns takes =>
                cases spread.symm.trans other
                exact ⟨_, turns, takes, targets, turned, fulfilled⟩
            | kept other => cases spread.symm.trans other
      · next argument former isOptional rest =>
          change last.form = .restElement argument former isOptional at rest
          have dotted : last.form.isDotted = true := by rw [rest]; rfl
          simp only [slots, Node.TurnsInto.listWithRest_iff same dotted]
          constructor
          · rintro ⟨targets, turned, fulfilled⟩
            exact ⟨_, ⟨targets, _, turned, .kept rest, rfl⟩, fulfilled⟩
          · rintro ⟨_, ⟨targets, _, turned, closes, rfl⟩, fulfilled⟩
            cases closes with
            | spread other => cases rest.symm.trans other
            | kept => exact ⟨targets, turned, fulfilled⟩
      · next spread rest =>
          refine plain fun final ends => ?_
          rw [List.getLast?_concat] at ends
          cases ends
          unfold Form.isDotted
          split <;> simp_all
  · next other =>
      exact plain fun last ends => absurd ends (other last)

/-- Where there are no types, a node becomes what it turns into, and nothing else happens. -/
theorem turns_of_untyped (node : Node) : Turns isBinding setting node := by
  intro state post
  have below := node.sizeOf_form_lt
  rw [formToTarget]
  split
  case h_1 same => simp [Node.TurnsInto.settled_iff, same, Form.isSettled]
  case h_2 same => simp [Node.TurnsInto.settled_iff, same, Form.isSettled]
  case h_3 same => simp [Node.TurnsInto.settled_iff, same, Form.isSettled]
  case h_4 same => simp [Node.TurnsInto.settled_iff, same, Form.isSettled]
  case h_5 properties annot same =>
    have each (property : Node) (inside : property ∈ properties) :
        Turns isBinding setting property :=
      have smaller : sizeOf property < sizeOf node := by
        have := List.sizeOf_lt_of_mem inside
        simp [same] at below
        omega
      turns_of_untyped property
    simp only [Succeeds.bind_iff, propertiesToTargets_succeeds_iff untyped each, succeeds_pure,
      Node.TurnsInto.object_iff same]
    grind
  case h_6 method shorthand computed decorators key value same =>
    have smaller : sizeOf value < sizeOf node := by
      simp [same] at below
      omega
    simp only [Succeeds.bind_iff, succeeds_toTarget untyped, turns_of_untyped value _ _,
      succeeds_pure, Node.TurnsInto.property_iff same]
    grind
  case h_7 argument same => simp [Node.TurnsInto.spread_iff same]
  case h_8 elements annot same =>
    simp only [Succeeds.bind_iff, succeeds_pure]
    refine elementsToTargets_succeeds_iff untyped same fun element inside => ?_
    have smaller : sizeOf element < sizeOf node := by
      have := List.sizeOf_lt_of_mem inside
      simp [same] at below this
      omega
    refine ⟨turns_of_untyped element, fun argument spread => ?_⟩
    have within : sizeOf argument < sizeOf node := by
      have inner := element.sizeOf_form_lt
      simp [spread] at inner
      omega
    exact turns_of_untyped argument
  case h_9 operator left right annot same =>
    simp only [beq_iff_eq, Node.TurnsInto.assignment_iff same]
    split
    · simp [*]
    · simp [succeeds_raise, *]
  case h_10 same =>
    cases isBinding
    · simp [Node.TurnsInto.settled_iff, same, Form.isSettled]
    · simp only [if_true, succeeds_raise, false_iff]
      rintro ⟨target, turns, -⟩
      cases turns <;> simp_all [Form.isSettled]
  case h_11 name objects lists defaults object property spread list assignment member =>
    simp only [succeeds_raise, false_iff]
    rintro ⟨target, turns, -⟩
    cases turns with
    | settled same =>
        unfold Form.isSettled at same
        split at same <;> simp_all
    | object same => exact object _ _ same
    | property same => exact property _ _ _ _ _ _ same
    | spread same => exact spread _ same
    | list same => exact list _ _ same
    | listWithRest same => exact list _ _ same
    | assignment same => exact assignment _ _ _ _ same
termination_by sizeOf node

/-- What a node becomes is what it turns into, and nothing else happens. -/
theorem toTarget_eq_ok_iff {node target : Node} {after : State} :
    toTarget isBinding node setting state = .ok target after ↔
      node.TurnsInto isBinding target ∧ after = state := by
  rw [eq_ok_iff_succeeds, succeeds_toTarget untyped, turns_of_untyped untyped node]
  constructor
  · rintro ⟨target, turned, rfl, rfl⟩
    exact ⟨turned, rfl⟩
  · rintro ⟨turned, rfl⟩
    exact ⟨target, turned, rfl, rfl⟩

/-- Where there are no types, an expression that becomes a target differs from it in the forms along
the pattern alone, and the target is what it becomes itself. -/
theorem toTarget_retypes {node target : Node} {after : State}
    (alone : node.form.isObjectMember = false)
    (turned : toTarget isBinding node setting state = .ok target after) :
    node.TurnsInto isBinding target ∧ after = state ∧
      ∀ later, toTarget isBinding target setting later = .ok target later := by
  obtain ⟨turns, same⟩ := (toTarget_eq_ok_iff untyped).mp turned
  have settled := turns.settled_of_not_member alone
  exact ⟨turns, same, fun later => (toTarget_eq_ok_iff untyped).mpr ⟨.settled settled, rfl⟩⟩

end Turning

/-- An array with a hole and a spread turns into a pattern with a rest, which stays as it is
then. -/
theorem toTarget_retypes_list :
    let setting : Setting := .ofText ['[', 'a', ',', ',', '.', '.', '.', 'b', ']'] {}
    let state : State := .initial false
    let name (id : NodeId) (start : Nat) (text : String) : Node :=
      { id, form := .identifier text none false, start, stop := start + 1, loc := default }
    let rest (form : Form) : Node := { id := 3, form, start := 4, stop := 8, loc := default }
    let list (form : Form) : Node := { id := 4, form, start := 0, stop := 9, loc := default }
    let expression := list
      (.arrayExpression [some (name 1 1 "a"), none, some (rest (.spreadElement (name 2 7 "b")))] none)
    let pattern := list
      (.arrayPattern [some (name 1 1 "a"), none, some (rest (.restElement (name 2 7 "b") none false))]
        none false)
    setting.flow = false ∧ expression.form.isObjectMember = false ∧
      toTarget true expression setting state = .ok pattern state ∧
        toTarget true pattern setting state = .ok pattern state := by
  intro setting state name rest list expression pattern
  have untyped : setting.flow = false := by decide
  have each : List.Forall₂ (Option.Rel (Node.TurnsInto true)) [some (name 1 1 "a"), none]
      [some (name 1 1 "a"), none] := .cons (.some (.settled rfl)) (.cons .none .nil)
  have turns : expression.TurnsInto true pattern :=
    .listWithRest rfl each (.spread rfl (.settled rfl) rfl)
  have turned : toTarget true expression setting state = .ok pattern state :=
    (toTarget_eq_ok_iff untyped).mpr ⟨turns, rfl⟩
  exact ⟨untyped, rfl, turned, (toTarget_retypes untyped rfl turned).2.2 state⟩

namespace TargetRule

variable {rule : TargetRule} {node : Node} {found : List String}

/-- A check succeeds if and only if the node is a target and its names may be taken. -/
theorem exists_check_eq_ok_iff {names : Option (List String)} :
    (∃ result, rule.check node names = .ok result) ↔
      node.IsTarget rule.isBinding rule.types ∧ rule.Admits node.boundNames names := by
  simp only [check_eq_ok_iff]
  constructor
  · rintro ⟨result, stands, admits, -⟩
    exact ⟨stands, admits⟩
  · rintro ⟨stands, admits⟩
    exact ⟨_, stands, admits, rfl⟩

/-- Where names may be bound twice, only reserved ones are refused. -/
theorem admits_none_iff : rule.Admits found none ↔
    (rule.strict = true → ∀ name ∈ found, Word.isUnbindable name = false) :=
  ⟨Admits.bindable, fun bindable => ⟨bindable, by simp⟩⟩

/-- Where names may be bound only once, those that are bound already are refused as well. -/
theorem admits_some_iff {names : List String} : rule.Admits found (some names) ↔
    (rule.strict = true → ∀ name ∈ found, Word.isUnbindable name = false) ∧
      found.Nodup ∧ ∀ name ∈ found, name ∉ names :=
  ⟨fun admits => ⟨admits.bindable, admits.distinct names rfl⟩,
    fun admits => ⟨admits.1, by rintro _ ⟨rfl⟩; exact admits.2⟩⟩

/-- Where there are no types, a node passes a check if and only if it is a target, its names may be
bound or assigned, and they are new, if names count at all. The names that are known then are those
before and those of the node. -/
theorem check_succeeds_iff (strict isBinding : Bool) (node : Node) :
    let rule : TargetRule := { strict, types := false, isBinding }
    let admitted := node.IsTarget isBinding false ∧
      (strict = true → ∀ name ∈ node.boundNames, Word.isUnbindable name = false)
    (∀ names : List String,
      ((∃ result, rule.check node (some names) = .ok result) ↔
        admitted ∧ node.boundNames.Nodup ∧ ∀ name ∈ node.boundNames, name ∉ names) ∧
      ∀ result, rule.check node (some names) = .ok result →
        ∃ bound, result = some bound ∧
          ∀ name, name ∈ bound ↔ name ∈ names ∨ name ∈ node.boundNames) ∧
    ((∃ result, rule.check node none = .ok result) ↔ admitted) := by
  refine ⟨fun names => ⟨?_, fun result passes => ?_⟩, ?_⟩
  · rw [exists_check_eq_ok_iff, admits_some_iff, and_assoc]
  · obtain ⟨-, -, rfl⟩ := (check_eq_ok_iff node).mp passes
    exact ⟨_, rfl, fun name => by simp [or_comm]⟩
  · rw [exists_check_eq_ok_iff, admits_none_iff]

end TargetRule

end Grammar

end EcmaSyntax
