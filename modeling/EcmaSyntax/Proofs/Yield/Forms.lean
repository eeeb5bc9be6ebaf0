import EcmaSyntax.Proofs.Tree.Nesting
import EcmaSyntax.Proofs.Yield.Circle

namespace EcmaSyntax

/-- A law that tells neither operands from other nodes nor operators from other forms. -/
structure Law.Loose (law : Law) : Prop where
  operand {mode : Mode} {node : Node} : (∀ enclosures, law.good mode enclosures node) →
    law.operand mode node
  above {mode : Mode} {level : Nat} {node : Node} :
    (∀ enclosures, law.good mode enclosures node) → law.above mode level node
  made {mode : Mode} {enclosures : List Enclosure} {node : Node} : node.form.Jumps enclosures →
    node.form.Permitted law.untyped mode → node.Lined law.layout mode →
    node.form.Headed law.head law.good mode enclosures → law.good mode enclosures node

/-- The law that a condition holds of all forms in a tree, given their mode and what stands around
them. It does not matter which tokens are read, but the law may speak only of languages without
types. -/
def Law.ofForms (untyped : Prop) (good : Mode → List Enclosure → Node → Prop)
    (condition : Mode → List Enclosure → Form → Prop)
    (holds_iff : ∀ {mode enclosures} {node : Node}, good mode enclosures node ↔
      condition mode enclosures node.form ∧ node.form.Placed good mode enclosures)
    (allowed : ∀ {mode enclosures} {form : Form}, form.Jumps enclosures →
      form.Permitted untyped mode → condition mode enclosures form)
    (redressed : ∀ {mode enclosures} {form other : Form}, condition mode enclosures form →
      form.Redressed other → condition mode enclosures other) : Law where
  untyped := untyped
  good := good
  head := good
  operand mode node := ∀ enclosures, good mode enclosures node
  above mode _ node := ∀ enclosures, good mode enclosures node
  speaks setting := untyped → setting.flow = false
  within lexer := Ascending lexer.settled
  silent known speaks := speaks known
  made _ jumps permitted _ headed :=
    holds_iff.mpr ⟨allowed jumps permitted, Form.headed_self.mp headed⟩
  declared same placed := holds_iff.mpr ⟨allowed (same ▸ trivial)
    (same ▸ Form.permitted_of_isFree rfl), placed⟩
  head_of_good good := good
  lined _ := .free
  whole _ good := good
  parenthesized good _ := good
  good_of_operand operand := operand
  good_of_above above := above
  parts good spine :=
    (Form.placed_iff_has (Form.isUniform_of_isSimple (Form.isSimple_of_isSpine spine))).mp
      (holds_iff.mp good).2
  redressed good other placed :=
    holds_iff.mpr ⟨redressed (holds_iff.mp good).1 other, placed (holds_iff.mp good).2⟩
  congr good same _ := by
    rw [holds_iff] at good ⊢
    rwa [same]
  knows _ _ _ := Layout.knows_free
  earlier traces tracked within := within.init (traces.settled tracked)
  ascending within := within

namespace Law.Loose

variable {law : Law} {node : Node}

/-- A law on forms does not depend on operators. -/
theorem ofForms {untyped : Prop} {good : Mode → List Enclosure → Node → Prop}
    {condition : Mode → List Enclosure → Form → Prop} {holds_iff allowed redressed} :
    (Law.ofForms untyped good condition holds_iff allowed redressed).Loose :=
  ⟨fun good => good, fun good => good, fun jumps permitted _ headed =>
    holds_iff.mpr ⟨allowed jumps permitted, Form.headed_self.mp headed⟩⟩

/-- A loose law is loose in each mode. -/
theorem under (loose : law.Loose) (mode : Mode) : (law.under mode).Loose :=
  ⟨loose.operand, loose.above, loose.made⟩

/-- A node is apt for a loose law if it is lawful. -/
theorem apt (loose : law.Loose) (lawful : node.Lawful law) : node.Apt law := loose.operand lawful

/-- An operator with its operands is lawful if they are. -/
theorem operated (loose : law.Loose) {form : Form} (same : node.form = form)
    (operator : form.isWhole = false) (has : form.Lawful law) : node.Lawful law := by
  subst same
  have other : node.form.isAim = false := by
    revert operator
    cases node.form <;> first | exact fun _ => rfl | exact nofun
  have steady : node.form.isSteady = true := by
    revert operator
    cases node.form <;> first | exact fun _ => rfl | exact nofun
  have free : node.form.isFree = true := by
    revert operator
    cases node.form <;> first | exact fun _ => rfl | exact nofun
  have unlaid : node.form.isUnlaid = true := by
    revert operator
    cases node.form <;> first | exact fun _ => rfl | exact nofun
  have jumps : ∀ enclosures, node.form.Jumps enclosures := by
    revert operator
    cases node.form <;> first | exact fun _ _ => trivial | exact nofun
  refine fun enclosures => loose.made (jumps enclosures) (Form.permitted_of_isFree free)
    (.ofUnlaid unlaid) (Form.Placed.headed ?_ law.head_of_good)
  rw [Form.placed_iff_around steady, Form.around_has other]
  exact has.mono (fun _ lawful => lawful enclosures) fun _ enclosed => enclosed

end Law.Loose

/-- The law that jumps have an aim among what stands around them, and that labels are not
repeated. -/
def Law.jumping : Law :=
  .ofForms False (fun _ => Node.JumpsWithin) (fun _ enclosures form => form.Jumps enclosures)
    Node.jumpsWithin_iff_placed (fun jumps _ => jumps) fun _ redressed => redressed.jumps

/-- Jumps do not depend on operators. -/
theorem Law.jumping_loose : Law.jumping.Loose := .ofForms

/-- The law that the forms in a tree are permitted, whatever stands around them. -/
def Law.permitting : Law :=
  .ofForms False (fun mode _ => Node.Throughout (Form.Permitted False) mode)
    (fun mode _ form => form.Permitted False mode) (Node.throughout_iff _)
    (fun _ permitted => permitted)
    fun permitted redressed => permitted.redressed redressed

/-- What is permitted does not depend on operators. -/
theorem Law.permitting_loose : Law.permitting.Loose := .ofForms

/-- A condition holds everywhere in a tree if it holds of the root and everywhere below it. -/
theorem Node.everywhere_iff_placed {good : Node → Prop} {node : Node} (mode : Mode)
    (enclosures : List Enclosure) : node.Everywhere good ↔
      good node ∧ node.form.Placed (fun _ _ => Node.Everywhere good) mode enclosures := by
  rw [Form.placed_iff_each]
  exact ⟨fun ⟨here, below⟩ => ⟨here, below⟩, fun ⟨here, below⟩ => .intro here below⟩

/-- The law that a condition holds of the forms in a tree, in a language without types. -/
def Law.ofUntyped (condition : Form → Prop)
    (allowed : ∀ {mode} {form : Form}, form.Permitted True mode → condition form)
    (redressed : ∀ {form other : Form}, condition form → form.Redressed other → condition other) :
    Law :=
  .ofForms True (fun _ _ node => node.Everywhere fun inner => condition inner.form)
    (fun _ _ form => condition form) (Node.everywhere_iff_placed _ _)
    (fun _ permitted => allowed permitted) redressed

theorem Law.Loose.ofUntyped {condition : Form → Prop} {allowed redressed} :
    (Law.ofUntyped condition allowed redressed).Loose := .ofForms

/-- The law that the forms in a tree assign to what may be assigned to. -/
def Law.targeting : Law :=
  .ofUntyped Form.Targeted (fun permitted => permitted.targeted trivial)
    fun targeted redressed => redressed.targeted targeted

/-- Targets do not depend on operators. -/
theorem Law.targeting_loose : Law.targeting.Loose := .ofUntyped

/-- The law that the objects in a tree have defaults only where they are patterns. -/
def Law.undefaulting : Law :=
  .ofUntyped Form.Undefaulted (fun permitted => permitted.undefaulted trivial)
    fun undefaulted redressed => redressed.undefaulted undefaulted

/-- Defaults do not depend on operators. -/
theorem Law.undefaulting_loose : Law.undefaulting.Loose := .ofUntyped

namespace Grammar

variable {law : Law} {given : Prop} {rules : Rules} {mark : Mark} {left : Node} {level : Nat}
  {noIn : Bool} (loose : law.Loose) (lawful : rules.Lawful law)

include loose lawful

/-- An operation is lawful if its operands are. -/
theorem operation_lawful {kind : Kind} {operator : String} (holds : given → left.Lawful law) :
    Yields law given (operation rules left mark kind operator level noIn) (Node.Lawful law) := by
  unfold operation
  refine .guard (.step fun _ => .step fun _ => (rightOperand_yields lawful).bind fun right => ?_)
  refine finish_made.refine fun node known made => ?_
  have operands := And.intro (holds known.1) known.2.lawful
  unfold binaryForm at made
  split at made
  · exact loose.operated made.1 rfl operands
  · exact loose.operated made.1 rfl operands

/-- The operations after an operand are lawful if it is. -/
theorem operators_lawful (operand : given → left.Lawful law) :
    Yields law given (operators rules left mark level noIn) (Node.Lawful law) := by
  refine .loop (Node.Lawful law) operand fun left => .step fun kind => ?_
  split
  · exact .done And.right
  · exact .ite (fun _ => .done And.right) fun _ => .step fun _ =>
      (operation_lawful loose lawful And.right).bind fun _ => .more And.right

/-- An operand with its operator is lawful. -/
theorem prefixed_lawful (expressing : rules.Expressing) :
    Yields law given (prefixed rules) (Node.Lawful law) := by
  have rest : ∀ {given : Prop} (isUpdate parenthesized : Bool) (mark : Mark) (operator : String)
      (argument : Node), (given → argument.Lawful law) →
      (given → isUpdate = true → law.untyped → argument.isReference = true) → Yields law given (do
        let node ← finish mark
          (if isUpdate then .updateExpression operator true argument
            else .unaryExpression operator true argument)
        return node.mapExtra fun extra =>
          { extra with parenthesizedArgument := some parenthesized }) (Node.Lawful law) := by
    intro given isUpdate parenthesized mark operator argument operand refers
    refine finish_made.bind fun node => .pure fun known => ?_
    have made : (node.mapExtra fun extra =>
      { extra with parenthesizedArgument := some parenthesized }).form = _ := known.2.1
    cases isUpdate with
    | true =>
        exact .ofSimple (made ▸ rfl) (made ▸ Form.permitted_of_assigns rfl (refers known.1 rfl))
          (made ▸ operand known.1)
    | false => exact loose.operated made rfl (operand known.1)
  have argument : Yields law given (nested rules.operand) fun node =>
      node.Apt law ∧ node.IsExpression :=
    .also (.nested expressing.operand) (.nested (operand_yields lawful))
  refine .step fun _ => .step fun isUpdate => .step fun _ => .step fun _ => .step fun _ =>
    argument.bind fun argument => .ite (fun updates => ?_) fun other => ?_
  · exact checkAssigned_yields.bind fun _ => rest _ _ _ _ _ (fun known => known.1.2.1.lawful)
      fun known _ untyped => known.2 untyped known.1.2.2
  · exact .step fun _ => .guard (rest _ _ _ _ _ (fun known => known.2.1.lawful)
      fun _ updates => absurd updates other)

/-- Rules that express operate lawfully. -/
theorem operating (expressing : rules.Expressing) : Operating law rules where
  operators _ _ _ _ :=
    (operators_lawful loose lawful fun operand => operand.lawful).weaken fun _ lawful =>
      loose.above lawful
  prefixed := (prefixed_lawful loose lawful expressing).weaken fun _ => loose.apt

/-- A rule keeps such a law if the rules do that it refers to. -/
theorem rule_loose (echoing : rules.Echoing) (expressing : rules.Expressing) :
    (rule rules).Lawful law :=
  rule_lawful lawful echoing expressing fun mode =>
    operating (loose.under mode) (lawful.under mode) expressing

omit lawful in
/-- The rules keep such a law, however many times they may refer to each other. -/
theorem rulesWithin_loose (count : Nat) : (rulesWithin count).Lawful law := by
  induction count with
  | zero => exact rulesWithin_zero_lawful
  | succ count inductionHypothesis =>
      exact rule_loose loose inductionHypothesis (rulesWithin_echoing count)
        (rulesWithin_expressing count)

omit loose lawful in
/-- Jumps have their aim, however often the rules refer to each other. -/
theorem rulesWithin_jumping (count : Nat) : (rulesWithin count).Lawful .jumping :=
  rulesWithin_loose Law.jumping_loose count

omit loose lawful in
/-- Forms are permitted, however often the rules refer to each other. -/
theorem rulesWithin_permitting (count : Nat) : (rulesWithin count).Lawful .permitting :=
  rulesWithin_loose Law.permitting_loose count

omit loose lawful in
/-- Targets are assigned to, however often the rules refer to each other. -/
theorem rulesWithin_targeting (count : Nat) : (rulesWithin count).Lawful .targeting :=
  rulesWithin_loose Law.targeting_loose count

omit loose lawful in
/-- Defaults are in patterns, however often the rules refer to each other. -/
theorem rulesWithin_undefaulting (count : Nat) : (rulesWithin count).Lawful .undefaulting :=
  rulesWithin_loose Law.undefaulting_loose count

end Grammar

end EcmaSyntax
