import EcmaSyntax.Proofs.Tree.All

namespace EcmaSyntax

/-- What stands around a statement and may be the aim of a jump in it. -/
inductive Enclosure where
  | loop
  | switch
  /-- A label, and whether the statement after it, past further labels, is a loop. -/
  | label (name : String) (loops : Bool)
deriving DecidableEq

/-- The form is a loop. -/
def Form.isLoop : Form → Bool
  | .whileStatement .. | .doWhileStatement .. | .forStatement .. | .forInStatement ..
  | .forOfStatement .. => true
  | _ => false

/-- The node is a loop, past the labels before it. -/
def Node.isLoop (node : Node) : Bool :=
  match _same : node.form with
  | .labeledStatement _ body => body.isLoop
  | form => form.isLoop
termination_by sizeOf node
decreasing_by
  have below := node.sizeOf_form_lt
  rw [_same, Form.labeledStatement.sizeOf_spec] at below
  omega

/-- A label stands before a loop if what follows it is one. -/
theorem Node.isLoop_labeled {node label body : Node}
    (same : node.form = .labeledStatement label body) : node.isLoop = body.isLoop := by
  rw [isLoop]
  split
  · next found =>
      rw [same] at found
      cases found
      rfl
  · next other => exact absurd same (other _ _)

theorem Node.isLoop_of_form {node : Node} (loops : node.form.isLoop = true) :
    node.isLoop = true := by
  rw [isLoop]
  split
  · next found => simp [found, Form.isLoop] at loops
  · exact loops

namespace Form

/-- What stands around the nodes in a field of a form, given what stands around the form. Nothing
around a function, or around an expression that is a block, can be aimed at from inside. -/
def around (form : Form) (field : String) (enclosures : List Enclosure) : List Enclosure :=
  match form with
  | .whileStatement .. | .doWhileStatement .. | .forStatement .. | .forInStatement ..
  | .forOfStatement .. => if field == "body" then .loop :: enclosures else enclosures
  | .switchStatement .. => if field == "cases" then .switch :: enclosures else enclosures
  | .labeledStatement label body =>
    if field == "body" then .label (label.name?.getD "") body.isLoop :: enclosures
    else enclosures
  | _ => if form.opens field then [] else enclosures

/-- If a form is a jump, what stands around it has its aim. If it is a label, no label around it
has its name. -/
def Jumps (enclosures : List Enclosure) : Form → Prop
  | .breakStatement none => .loop ∈ enclosures ∨ .switch ∈ enclosures
  | .continueStatement none => .loop ∈ enclosures
  | .breakStatement (some label) => ∃ name loops, label.name? = some name ∧
    .label name loops ∈ enclosures
  | .continueStatement (some label) => ∃ name, label.name? = some name ∧
    .label name true ∈ enclosures
  | .labeledStatement label _ => ∃ name, label.name? = some name ∧
    ∀ loops, .label name loops ∉ enclosures
  | _ => True

end Form

/-- All jumps in a tree have an aim, and no label is repeated, given what stands around it. -/
inductive Node.JumpsWithin : List Enclosure → Node → Prop
  | intro {enclosures : List Enclosure} {node : Node} (jumps : node.form.Jumps enclosures)
      (inside : ∀ field ∈ node.form.fields, ∀ child ∈ field.2.nodes,
        JumpsWithin (node.form.around field.1 enclosures) child) : JumpsWithin enclosures node

namespace Form

variable {good better : List Enclosure → Node → Prop} {enclosures : List Enclosure} {form : Form}

/-- The nodes that a form consists of fulfil a condition, each with what stands around it. -/
def Around (good : List Enclosure → Node → Prop) (enclosures : List Enclosure) : Form → Prop
  | .whileStatement test body => good enclosures test ∧ good (.loop :: enclosures) body
  | .doWhileStatement body test => good (.loop :: enclosures) body ∧ good enclosures test
  | .forStatement init test update body =>
    (∀ node ∈ init, good enclosures node) ∧ (∀ node ∈ test, good enclosures node) ∧
      (∀ node ∈ update, good enclosures node) ∧ good (.loop :: enclosures) body
  | .forInStatement left right body =>
    good enclosures left ∧ good enclosures right ∧ good (.loop :: enclosures) body
  | .forOfStatement left right body =>
    good enclosures left ∧ good enclosures right ∧ good (.loop :: enclosures) body
  | .switchStatement discriminant cases =>
    good enclosures discriminant ∧ ∀ node ∈ cases, good (.switch :: enclosures) node
  | .labeledStatement label body =>
    good enclosures label ∧
      good (.label (label.name?.getD "") body.isLoop :: enclosures) body
  | form => form.Has (good enclosures) (good [])

/-- A jump may be aimed at the form. -/
def isAim : Form → Bool
  | .labeledStatement .. | .switchStatement .. => true
  | form => form.isLoop

/-- Around the nodes of a form that is no aim stands what stands around the form, or nothing. -/
theorem around_eq (other : form.isAim = false) (field : String) :
    form.around field enclosures = if form.opens field then [] else enclosures := by
  cases form <;> first | rfl | cases other

/-- What encloses the children of a form that is no aim encloses the form. -/
theorem around_has (other : form.isAim = false) :
    form.Around good enclosures ↔ form.Has (good enclosures) (good []) := by
  cases form <;> first | rfl | cases other

/-- What stands around the nodes of a form depends on the fields that they are in. -/
theorem around_iff : form.Around good enclosures ↔
    Field.Each (fun name child => good (form.around name enclosures) child) form.fields := by
  cases aimed : form.isAim with
  | true => cases form <;> first | exact Bool.noConfusion aimed | simp [Around, fields, around]
  | false =>
    rw [around_has aimed, has_iff]
    refine forall₂_congr fun field _ => forall₂_congr fun child _ => ?_
    simp only [around_eq aimed]
    cases form.opens field.1 <;> rfl

end Form

/-- The jumps in a tree are those of its root and those of the trees below it. -/
theorem Node.jumpsWithin_iff {enclosures : List Enclosure} {node : Node} :
    node.JumpsWithin enclosures ↔ node.form.Jumps enclosures ∧
      node.form.Around (fun around child => child.JumpsWithin around) enclosures := by
  rw [Form.around_iff]
  exact ⟨fun ⟨jumps, inside⟩ => ⟨jumps, inside⟩, fun ⟨jumps, inside⟩ => ⟨jumps, inside⟩⟩

end EcmaSyntax
