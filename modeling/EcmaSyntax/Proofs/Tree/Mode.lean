import EcmaSyntax.Grammar.Function
import EcmaSyntax.Proofs.Tree.Jump

namespace EcmaSyntax

/-- The rules that code is read by: those of strict code or not, those of the body of a generator
or not, and those of a language with types or without. -/
structure Mode where
  strict : Bool := false
  inGenerator : Bool := false
  types : Bool := false
deriving DecidableEq, Inhabited, Repr

namespace Mode

/-- Code that is strict. -/
def strictly (mode : Mode) : Mode := { mode with strict := true }

/-- The code after directives, one of which may make it strict. -/
def after (mode : Mode) (directives : List Node) : Mode :=
  { mode with strict := mode.strict || directives.any Grammar.isUseStrict }

/-- The body of a function. An expression that is the body of an arrow is read by the rules of the
code around it. -/
def inside (mode : Mode) (function : FunctionForm) : Mode :=
  if function.isExpression then mode else { mode with inGenerator := function.generator }

end Mode

/-- The mode that a program begins in. -/
def Options.mode (options : Options) : Mode where
  strict := options.startsStrict
  types := options.hasDialect .flow

namespace Form

/-- The function that a form is, beside its key. -/
def function? : Form → Option FunctionForm
  | .functionDeclaration function => some function
  | .functionExpression function => some function
  | .arrowFunctionExpression function => some function
  | .objectMethod _ _ _ _ _ _ function => some function
  | .classMethod _ _ _ _ _ function => some function
  | _ => none

/-- The class that a form is. -/
def class? : Form → Option ClassForm
  | .classDeclaration heading => some heading
  | .classExpression heading => some heading
  | _ => none

/-- The mode of the body of a form. -/
def bodyMode (mode : Mode) : Form → Mode
  | .program _ directives _ => mode.after directives
  | .blockStatement directives _ => mode.after directives
  | form =>
    match form.function? with
    | some function => mode.inside function
    | none => if form.class?.isSome then mode.strictly else mode

/-- The code in a field of a form has a mode, given the mode of the form. The decorators of a class
may have been read long before it, in code of any mode. -/
def Enters (form : Form) (field : String) (mode inner : Mode) : Prop :=
  (form.class?.isSome = true ∧ field = "decorators") ∨
    inner = if field == "body" then form.bodyMode mode else mode

/-- The code in a form is of the mode of the form. -/
def isSteady (form : Form) : Bool :=
  match form with
  | .program .. | .blockStatement .. => false
  | _ => form.function?.isNone && form.class?.isNone

end Form

/-- A condition holds of the forms in a tree, each with the mode of its code. -/
inductive Node.Throughout (condition : Mode → Form → Prop) : Mode → Node → Prop
  | intro {mode : Mode} {node : Node} (inner : String → Node → Mode)
      (holds : condition mode node.form)
      (enters : ∀ field child, node.form.Enters field mode (inner field child))
      (inside : ∀ field ∈ node.form.fields, ∀ child ∈ field.2.nodes,
        Throughout condition (inner field.1 child) child) : Throughout condition mode node

namespace Form

/-- The nodes that a form consists of fulfil a condition, each in its mode and with what stands
around it. -/
def Placed (good : Mode → List Enclosure → Node → Prop) (mode : Mode)
    (enclosures : List Enclosure) (form : Form) : Prop :=
  Field.Each (fun field child => ∃ inner, form.Enters field mode inner ∧
    good inner (form.around field enclosures) child) form.fields

variable {good : Mode → List Enclosure → Node → Prop} {mode inner : Mode}
  {enclosures : List Enclosure} {form : Form} {field : String} {function : FunctionForm}
  {heading : ClassForm} {directives body : List Node}

/-- Only the body of a form is read in a mode of its own. -/
theorem enters_iff (other : form.class? = none) : form.Enters field mode inner ↔
    inner = if field == "body" then form.bodyMode mode else mode := by
  simp [Enters, other]

/-- A steady form leaves the mode as it is. -/
theorem bodyMode_of_isSteady (steady : form.isSteady = true) : form.bodyMode mode = mode := by
  cases form <;> first | rfl | cases steady

theorem class?_of_isSteady (steady : form.isSteady = true) : form.class? = none := by
  cases form <;> first | rfl | cases steady

/-- The parts of a steady form are read in its mode. -/
theorem placed_iff_around (steady : form.isSteady = true) :
    form.Placed good mode enclosures ↔ form.Around (good mode) enclosures := by
  rw [around_iff]
  refine forall₂_congr fun field _ => forall₂_congr fun child _ => ?_
  simp [enters_iff (class?_of_isSteady steady), bodyMode_of_isSteady steady]

/-- A condition for which neither the mode nor what stands around matters. -/
theorem placed_iff_each {good : Node → Prop} : form.Placed (fun _ _ => good) mode enclosures ↔
    Field.Each (fun _ => good) form.fields :=
  forall₂_congr fun _ _ => forall₂_congr fun _ _ =>
    ⟨fun ⟨_, _, held⟩ => held, fun held => ⟨_, .inr rfl, held⟩⟩

/-- A condition for which the mode does not matter. -/
theorem placed_iff_of_modeless {good : List Enclosure → Node → Prop} :
    form.Placed (fun _ => good) mode enclosures ↔ form.Around good enclosures := by
  rw [around_iff]
  exact forall₂_congr fun _ _ => forall₂_congr fun _ _ =>
    ⟨fun ⟨_, _, held⟩ => held, fun held => ⟨_, .inr rfl, held⟩⟩

/-- The body of a function is read in the mode within the function. -/
theorem bodyMode_of_function (same : form.function? = some function) :
    form.bodyMode mode = mode.inside function := by
  cases form <;> first | cases same; rfl | cases same

theorem class?_of_function (same : form.function? = some function) : form.class? = none := by
  cases form <;> first | rfl | cases same

theorem around_of_function (same : form.function? = some function) :
    form.around field enclosures = if field == "body" then [] else enclosures := by
  cases form <;> first | rfl | cases same

theorem opens_of_function (same : form.function? = some function) :
    form.opens field = (field == "body") := by
  cases form <;> first | rfl | cases same

/-- The body of a function is code of its own, and its other nodes are as the function is. -/
theorem placed_iff_function (same : form.function? = some function) :
    form.Placed good mode enclosures ↔
      form.Has (good mode enclosures) (good (mode.inside function) []) := by
  rw [has_iff]
  refine forall₂_congr fun field _ => forall₂_congr fun child _ => ?_
  simp only [around_of_function same, opens_of_function same,
    enters_iff (class?_of_function same), bodyMode_of_function same, exists_eq_left]
  split <;> rfl

theorem fields_of_class (same : form.class? = some heading) : form.fields = heading.fields := by
  cases form <;> first | cases same; rfl | cases same

theorem around_of_class (same : form.class? = some heading) :
    form.around field enclosures = enclosures := by
  cases form <;> first | rfl | cases same

/-- The body of a class is strict. -/
theorem bodyMode_of_class (same : form.class? = some heading) :
    form.bodyMode mode = mode.strictly := by
  cases form <;> first | rfl | cases same

/-- The body of a class is strict code, and its decorators may be any. -/
theorem placed_iff_class (same : form.class? = some heading) :
    form.Placed good mode enclosures ↔ heading.Has (fun node => ∃ inner, good inner enclosures node)
      (good mode enclosures) (good mode.strictly enclosures) := by
  rw [ClassForm.has_iff, Placed, fields_of_class same]
  refine forall₂_congr fun field _ => forall₂_congr fun child _ => ?_
  simp only [around_of_class same, Enters, same, bodyMode_of_class same, Option.isSome_some,
    true_and, beq_iff_eq]
  by_cases decorators : field.1 = "decorators"
  · simp [decorators]
  · by_cases body : field.1 = "body" <;> simp [decorators, body]

/-- The statements of a block are read in the mode after its directives. -/
theorem placed_iff_block : (blockStatement directives body).Placed good mode enclosures ↔
    (∀ node ∈ directives, good mode enclosures node) ∧
      ∀ node ∈ body, good (mode.after directives) enclosures node := by
  have enters : ∀ field inner, (blockStatement directives body).Enters field mode inner ↔
      inner = if field == "body" then mode.after directives else mode := fun _ _ => enters_iff rfl
  simp [Placed, fields, around, opens, enters]

/-- The statements of a program are read in the mode after its directives. -/
theorem placed_iff_program {sourceType : SourceType} :
    (program sourceType directives body).Placed good mode enclosures ↔
      (∀ node ∈ directives, good mode enclosures node) ∧
        ∀ node ∈ body, good (mode.after directives) enclosures node := by
  have enters : ∀ field inner, (program sourceType directives body).Enters field mode inner ↔
      inner = if field == "body" then mode.after directives else mode := fun _ _ => enters_iff rfl
  simp [Placed, fields, around, opens, enters]

end Form

theorem Node.Throughout.mono {condition weaker : Mode → Form → Prop} {mode : Mode} {node : Node}
    (throughout : node.Throughout condition mode)
    (implies : ∀ mode form, condition mode form → weaker mode form) :
    node.Throughout weaker mode := by
  induction throughout with
  | intro inner holds enters _ inductionHypothesis =>
      exact ⟨inner, implies _ _ holds, enters, inductionHypothesis⟩

/-- The jumps in a tree do not depend on the mode of its code. -/
theorem Node.jumpsWithin_iff_placed {mode : Mode} {enclosures : List Enclosure} {node : Node} :
    node.JumpsWithin enclosures ↔ node.form.Jumps enclosures ∧
      node.form.Placed (fun _ around child => child.JumpsWithin around) mode enclosures := by
  rw [Form.placed_iff_of_modeless, jumpsWithin_iff]

/-- A condition holds throughout a tree if it holds of the form of its root and throughout the
trees below it. -/
theorem Node.throughout_iff {condition : Mode → Form → Prop} {mode : Mode} {node : Node}
    (enclosures : List Enclosure) : node.Throughout condition mode ↔ condition mode node.form ∧
      node.form.Placed (fun inner _ child => child.Throughout condition inner) mode enclosures := by
  constructor
  · rintro ⟨inner, holds, enters, inside⟩
    exact ⟨holds, fun field member child held =>
      ⟨inner field.1 child, enters field.1 child, inside field member child held⟩⟩
  · rintro ⟨holds, placed⟩
    have each : ∀ field (child : Node), ∃ inner, node.form.Enters field mode inner ∧
        ((∃ other, node.form.Enters field mode other ∧ child.Throughout condition other) →
          child.Throughout condition inner) := by
      intro field child
      by_cases known : ∃ other, node.form.Enters field mode other ∧
        child.Throughout condition other
      · obtain ⟨inner, enters, throughout⟩ := known
        exact ⟨inner, enters, fun _ => throughout⟩
      · exact ⟨_, .inr rfl, fun found => absurd found known⟩
    exact ⟨fun field child => (each field child).choose, holds,
      fun field child => (each field child).choose_spec.1, fun field member child held =>
        (each field.1 child).choose_spec.2 (placed field member child held)⟩

end EcmaSyntax
