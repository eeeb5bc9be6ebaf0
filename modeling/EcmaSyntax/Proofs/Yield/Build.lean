import EcmaSyntax.Proofs.Yield.Contract

namespace EcmaSyntax

namespace Grammar

namespace State

/-- Two states differ in nothing but the comments that are to be given to nodes, and the nodes
that they may be given to. -/
def Handles (first last : State) : Prop :=
  ∃ leading trailing finished attachments, last = { first with
    lexer := { first.lexer with leading := leading, trailing := trailing }
    finished := finished, attachments := attachments }

/-- Besides, identities may have been used up. -/
def Aside (first last : State) : Prop :=
  ∃ leading trailing finished attachments identities, last = { first with
    lexer := { first.lexer with leading := leading, trailing := trailing }
    finished := finished, attachments := attachments, identities := identities }

variable {state after : State}

theorem Handles.trans {first middle last : State} (begins : first.Handles middle)
    (ends : middle.Handles last) : first.Handles last := by
  obtain ⟨_, _, _, _, rfl⟩ := begins
  obtain ⟨_, _, _, _, rfl⟩ := ends
  exact ⟨_, _, _, _, rfl⟩

/-- Comments are handled beside everything else. -/
theorem Handles.aside {first last : State} (handles : first.Handles last) : first.Aside last := by
  obtain ⟨_, _, _, _, rfl⟩ := handles
  exact ⟨_, _, _, _, _, rfl⟩

theorem Aside.trans {first middle last : State} (begins : first.Aside middle)
    (ends : middle.Aside last) : first.Aside last := by
  obtain ⟨_, _, _, _, _, rfl⟩ := begins
  obtain ⟨_, _, _, _, _, rfl⟩ := ends
  exact ⟨_, _, _, _, _, rfl⟩

theorem Aside.lexer {first last : State} (aside : first.Aside last) :
    first.lexer.Beside last.lexer := by
  obtain ⟨_, _, _, _, _, rfl⟩ := aside
  exact ⟨_, _, _, _, rfl⟩

theorem Aside.decorators {first last : State} (aside : first.Aside last) :
    last.decorators = first.decorators := by
  obtain ⟨_, _, _, _, _, rfl⟩ := aside
  rfl

theorem Aside.labels {first last : State} (aside : first.Aside last) :
    last.labels = first.labels := by
  obtain ⟨_, _, _, _, _, rfl⟩ := aside
  rfl

theorem Aside.flags {first last : State} (aside : first.Aside last) :
    last.flags = first.flags := by
  obtain ⟨_, _, _, _, _, rfl⟩ := aside
  rfl

/-- Taking the comments after a node is handling comments. -/
theorem takeTrailing_handles {stop : Nat} {found : Option (List Comment)}
    (took : state.takeTrailing stop = .ok (found, after)) : state.Handles after := by
  unfold takeTrailing at took
  split at took
  · cases took
    exact ⟨_, _, _, _, rfl⟩
  · repeat' split at took
    all_goals cases took
    all_goals exact ⟨_, _, _, _, rfl⟩

/-- Taking comments from a part is handling comments. -/
theorem takeFromPart_handles {id : NodeId} {start : Nat} {part : Finished} {found : Option (List Comment)}
    (took : state.takeFromPart id start part = .ok (found, after)) : state.Handles after := by
  simp only [takeFromPart, splitWithin, bind, Except.bind, pure, Except.pure] at took
  repeat' split at took
  all_goals cases took
  all_goals exact ⟨_, _, _, _, rfl⟩

/-- Taking the comments that have just been read is handling comments. -/
theorem takeRead_handles {start : Nat} {before within : Option (List Comment)}
    (took : state.takeRead start = .ok (before, within, after)) : state.Handles after := by
  simp only [takeRead, splitWithin, bind, Except.bind, pure, Except.pure] at took
  repeat' split at took
  all_goals cases took
  all_goals exact ⟨_, _, _, _, rfl⟩

/-- Giving comments to a node is handling comments. -/
theorem giveComments_handles {id : NodeId} {start stop : Nat} {leading trailing : Option (List Comment)}
    (gave : state.giveComments id start stop leading trailing = .ok after) :
    state.Handles after := by
  unfold giveComments at gave
  simp only at gave
  repeat' split at gave
  all_goals cases gave
  all_goals exact ⟨_, _, _, _, rfl⟩

/-- So a node is given the comments around it. -/
theorem attach_handles {id : NodeId} {start stop : Nat} (attached : state.attach id start stop = .ok after) :
    state.Handles after := by
  simp only [attach, bind, Except.bind, pure, Except.pure] at attached
  split at attached
  · cases attached
  · next trailing took =>
      have dropped : State.Handles trailing.2 (dropWithin start trailing.2).2 :=
        ⟨_, _, _, _, rfl⟩
      have begins := (takeTrailing_handles took).trans dropped
      have gives : ∀ {leading within : Option (List Comment)} {given : State},
          state.Handles given → giveComments id start stop leading within
            { given with finished := ⟨id, start, stop⟩ :: given.finished } = .ok after →
          state.Handles after := by
        intro leading within given begun gave
        have finished :
            given.Handles { given with finished := ⟨id, start, stop⟩ :: given.finished } :=
          ⟨_, _, _, _, rfl⟩
        exact (begun.trans finished).trans (giveComments_handles gave)
      split at attached
      · split at attached
        · cases attached
        · next part given => exact gives (begins.trans (takeFromPart_handles given)) attached
      · split at attached
        · cases attached
        · next read => exact gives (begins.trans (takeRead_handles read)) attached

end State

variable {law : Law} {given : Prop} {mark : Mark} {form : Form} {node : Node}

section Finish

/-- Giving a node its comments leaves everything else alone. -/
theorem attach_aside {setting : Setting} {state : State} {id : NodeId} {start stop : Nat} :
    Gives (attach id start stop) setting state fun _ after => state.Aside after := by
  intro _ after ends
  unfold attach at ends
  split at ends <;> cases ends
  next attached => exact (State.attach_handles attached).aside

instance (id : NodeId) (start stop : Nat) : Plain (attach id start stop) where
  extends_ _ state := by
    unfold attach
    cases attached : state.attach id start stop with
    | ok after => exact (State.attach_handles attached).aside.lexer.extends_
    | error reason => exact .refl _
  traces _ _ := attach_aside.mono fun _ _ aside => aside.lexer.traces
  called _ _ := ⟨_, .attach⟩
  flags _ _ := attach_aside.mono fun _ _ aside => aside.flags
  decorators _ _ := attach_aside.mono fun _ _ aside => aside.decorators
  labels _ _ := attach_aside.mono fun _ _ aside => aside.labels

/-- A node is finished without reading on. -/
theorem finish_aside {setting : Setting} {state : State} :
    Gives (finish mark form) setting state fun _ after => state.Aside after := by
  simp only [finish, finishAt, freshId, Gives.bind_iff, gives_get, gives_modify, gives_pure]
  have named : state.Aside { state with identities := state.identities.advance } := ⟨_, _, _, _, _, rfl⟩
  refine gives_ite (fun _ => ?_) fun _ => gives_pure.mpr named
  rw [Gives.bind_iff]
  exact attach_aside.mono fun _ _ aside => gives_pure.mpr (named.trans aside)

/-- A node is finished with its form, from its start to its stop. -/
theorem finishAt_gives {setting : Setting} {state : State} {stop : Nat} {stopLoc : Position} :
    Gives (finishAt mark form stop stopLoc) setting state fun node _ =>
      node.form = form ∧ node.start = mark.pos ∧ node.stop = stop := by
  simp only [finishAt, Gives.bind_iff]
  refine fun id middle named => gives_ite (fun _ => ?_) fun _ => gives_pure.mpr ⟨rfl, rfl, rfl⟩
  exact Gives.last fun _ _ => gives_pure.mpr ⟨rfl, rfl, rfl⟩

/-- A node is finished with its form, from its start to the last token that has been passed. -/
theorem finish_gives {setting : Setting} {state : State} :
    Gives (finish mark form) setting state fun node _ =>
    node.form = form ∧ node.start = mark.pos ∧ node.stop = state.lexer.lastStop := by
  rw [finish, Gives.bind_iff, gives_get]
  exact finishAt_gives

instance : Plain freshId :=
  have : Plain (modify fun state =>
      { state with identities := state.identities.advance } : Parse PUnit) :=
    .modify (fun _ => ⟨⟨_, _, rfl⟩, rfl, rfl⟩) (fun _ => rfl) (fun _ => rfl) fun _ => rfl
  inferInstanceAs (Plain (get >>= _))

instance (stop : Nat) (stopLoc : Position) : Plain (finishAt mark form stop stopLoc) :=
  inferInstanceAs (Plain (freshId >>= _))

instance : Plain (finish mark form) := inferInstanceAs (Plain (get >>= _))

/-- A copy of a node takes over its comments, and nothing else changes. -/
theorem copied_handles (state : State) (id other : NodeId) : state.Handles
    (match state.attached? id with
    | some attached => state.setAttached other attached
    | none => state) := by
  cases state.attached? id <;> exact ⟨_, _, _, _, rfl⟩

/-- The comments of one node are given to another one. -/
instance (id : NodeId) : Plain (modify fun state =>
    match state.attached? node.id with
    | some attached => state.setAttached id attached
    | none => state : Parse PUnit) where
  extends_ _ state := (copied_handles state node.id id).aside.lexer.extends_
  traces _ state := gives_modify.mpr (copied_handles state node.id id).aside.lexer.traces
  called setting state := by
    cases found : state.attached? node.id with
    | some attached =>
        exact ⟨_, .copy found (show _ = state.setAttached id attached by simp only [found])⟩
    | none =>
        refine ⟨_, .note ?_⟩
        simp only [found]
        exact .refl state
  flags _ state := gives_modify.mpr (copied_handles state node.id id).aside.flags
  decorators _ state := gives_modify.mpr (copied_handles state node.id id).aside.decorators
  labels _ state := gives_modify.mpr (copied_handles state node.id id).aside.labels

/-- A node is finished with its form and its start. -/
theorem finishAt_formed {stop : Nat} {stopLoc : Position} :
    Yields law given (finishAt mark form stop stopLoc) fun node =>
      node.form = form ∧ node.start = mark.pos ∧ node.extra = none :=
  .step fun _ => .guard (.pure fun _ => ⟨rfl, rfl, rfl⟩)

/-- A node stops where it is finished. -/
theorem finishAt_stops {stop : Nat} {stopLoc : Position} :
    Yields law given (finishAt mark form stop stopLoc) fun node => node.stop = stop :=
  .step fun _ => .guard (.pure fun _ => rfl)

/-- A node has the form that it is finished with, and starts at its mark. -/
theorem finish_made :
    Yields law given (finish mark form) fun node =>
      node.form = form ∧ node.start = mark.pos ∧ node.extra = none :=
  .step fun _ => finishAt_formed

/-- A node that is no operator is an operand. -/
theorem finishAt_yields {stop : Nat} {stopLoc : Position} (plain : form.isPlain = true)
    (all : given → form.Lawful law) :
    Yields law given (finishAt mark form stop stopLoc) (Node.Apt law) :=
  finishAt_formed.refine fun _ known made => .ofPlain (made.1 ▸ plain) (made.1 ▸ all known)

/-- A node of a plain form is lawful if the form is. -/
theorem finish_yields (plain : form.isPlain = true)
    (all : given → form.Lawful law) :
    Yields law given (finish mark form) (Node.Apt law) :=
  .step fun _ => finishAt_yields plain all

/-- A node that is apt is lawful. -/
theorem YieldsAt.lawful {place : Option (List Enclosure)} {action : Parse Node}
    (yields : YieldsAt law place given action (Node.Apt law)) :
    YieldsAt law place given action (Node.Lawful law) :=
  yields.weaken fun _ operand => operand.lawful

/-- A node that is no operator is lawful. -/
theorem finish_lawful (plain : form.isPlain = true)
    (all : given → form.Lawful law) :
    Yields law given (finish mark form) (Node.Lawful law) :=
  (finish_yields plain all).lawful

/-- A node follows the law in its place if the nodes do that it consists of. -/
theorem finish_follows {enclosures : List Enclosure} (plain : form.isPlain = true)
    (all : given → form.Has (Node.Follows law enclosures) (Node.Enclosed law)) :
    Yields law given (finish mark form) (Node.Follows law enclosures) :=
  finish_made.refine fun _ known made =>
    .ofPlain (made.1 ▸ plain) (made.1 ▸ all known)

/-- Besides, a label is not repeated. -/
theorem finish_stated {enclosures : List Enclosure} (whole : form.isWhole = true)
    (steady : form.isSteady = true) (free : form.isFree = true) (unlaid : form.isUnlaid = true)
    (jumps : given → form.Jumps enclosures)
    (around : given → form.Around (Node.Follows law) enclosures) :
    Yields law given (finish mark form) (Node.Follows law enclosures) :=
  finish_made.refine fun _ known made =>
    law.placed (made.1 ▸ whole) (made.1 ▸ jumps known)
      (made.1 ▸ Form.permitted_of_isFree free) (.ofUnlaid (made.1 ▸ unlaid))
      (made.1 ▸ (Form.placed_iff_around steady).mpr (around known))

/-- A loop follows the law if what it consists of does, and if its head may be one. -/
theorem finish_loop {enclosures : List Enclosure} (whole : form.isWhole = true)
    (permitted : given → form.Permitted law.untyped law.mode) (unlaid : form.isUnlaid = true)
    (jumps : form.Jumps enclosures)
    (headed : given → form.Headed law.head law.good law.mode enclosures) :
    Yields law given (finish mark form) (Node.Follows law enclosures) :=
  finish_made.refine fun _ known made =>
    law.made (made.1 ▸ whole) (made.1 ▸ jumps) (made.1 ▸ permitted known)
      (.ofUnlaid (made.1 ▸ unlaid)) (made.1 ▸ headed known)

/-- The form may be known only from what is given. -/
theorem finish_known
    (known : given → form.isPlain = true ∧ form.Lawful law) :
    Yields law given (finish mark form) (Node.Lawful law) :=
  .step fun _ => .step fun _ => .guard (.pure fun holds =>
    .ofPlain (known holds).1 (known holds).2)

/-- A node of most forms is an operand if it is permitted. -/
theorem finish_permitted (simple : form.isSimple = true)
    (permitted : given → form.Permitted law.untyped law.mode) (all : given → form.Lawful law) :
    Yields law given (finish mark form) (Node.Apt law) :=
  finish_made.refine fun _ known made =>
    .ofSimple (made.1 ▸ simple) (made.1 ▸ permitted known) (made.1 ▸ all known)

/-- A function is lawful if what it binds and consists of is. -/
theorem finish_function {function : FunctionForm} (same : form.function? = some function)
    (lawful : given → function.Lawful law form.isArrow) (regular : form.Regular)
    (linked : given → form.Linked law.layout mark.pos)
    (has : given →
      form.Has (Node.Lawful law) (Node.Enclosed (law.under (law.mode.inside function)))) :
    Yields law given (finish mark form) (Node.Apt law) :=
  finish_made.refine fun _ known made =>
    .ofFunction (made.1 ▸ same) (made.1 ▸ lawful known) (made.1 ▸ regular)
      (made.1 ▸ made.2.1 ▸ linked known)
      (made.1 ▸ has known)

/-- A class is lawful if its heading is. -/
theorem finish_class {heading : ClassForm} (same : form.class? = some heading)
    (lawful : given → heading.Lawful law) : Yields law given (finish mark form) (Node.Apt law) :=
  finish_made.refine fun _ known made => .ofClass (made.1 ▸ same) (lawful known)

/-- A node that is finished once more is as lawful as before. -/
theorem refinish_yields (lawful : given → node.Lawful law)
    (unlaid : given → node.form.isUnlaid = true) :
    Yields law given (refinish node) (Node.Lawful law) :=
  .step fun _ => .step fun _ => .pure fun known => (lawful known).moved rfl (unlaid known)

theorem refinish_formed : Yields law given (refinish node) fun other => other.form = node.form :=
  .step fun _ => .step fun _ => .pure fun _ => rfl

instance : Plain (duplicate node) := inferInstanceAs (Plain (freshId >>= _))

/-- A node is repeated without reading on. -/
theorem duplicate_aside {setting : Setting} {state : State} :
    Gives (duplicate node) setting state fun copy after =>
      copy.form = node.form ∧ state.Aside after := by
  simp only [duplicate, freshId, Gives.bind_iff, gives_get, gives_modify, gives_pure]
  have named : state.Aside { state with identities := state.identities.advance } := ⟨_, _, _, _, _, rfl⟩
  exact ⟨trivial, named.trans (copied_handles _ _ _).aside⟩

theorem duplicate_formed : Yields law given (duplicate node) fun other => other.form = node.form :=
  .step fun _ => .step fun _ => .pure fun _ => rfl

/-- A copy of a node is as lawful as the node. -/
theorem duplicate_yields (lawful : given → node.Lawful law) :
    Yields law given (duplicate node) (Node.Lawful law) :=
  .step fun _ => .step fun _ => .pure fun known => (lawful known).congr rfl rfl rfl

end Finish

section Mode

/-- What is known of the code around is known of the code that the law is applied to. -/
theorem get_yields : Yields law given get fun state =>
    state.lexer.strict = law.mode.strict ∧ state.inGenerator = law.mode.inGenerator where
  steps := .plain
  good _ _ under := gives_get.mpr fun _ _ waiting _ =>
    ⟨⟨congrArg Mode.strict under.mode, congrArg Mode.inGenerator under.mode⟩, waiting, rfl⟩

/-- The law speaks of code that is strict or not, as it is found. -/
theorem isStrict_yields : Yields law given isStrict fun strict => strict = law.mode.strict :=
  get_yields.bind fun _ => .pure fun known => known.2.1

/-- The law speaks of code with types or without, as it is found. -/
theorem hasTypes_yields : Yields law given hasTypes fun types => types = law.mode.types where
  steps := .plain
  good _ _ under := by
    rw [hasTypes, Gives.bind_iff, gives_read, gives_pure]
    exact fun _ _ waiting _ => ⟨congrArg Mode.types under.mode, waiting, rfl⟩

end Mode

section Words

instance {liberal : Bool} : Plain (identifier liberal) := by
  have tail : ∀ (mark : Mark) (name : String), Plain (do
      if !liberal && name == "await" && (← get).inAsync then raise mark.pos .awaitInAsync
      next
      finish mark (.identifier name none false)) := fun _ _ => inferInstance
  unfold identifier
  refine .after fun mark => .after fun current => .after fun name => ?_
  split
  · infer_instance
  · split
    · infer_instance
    · infer_instance

/-- An identifier is a name or a keyword. A name is not reserved. -/
theorem identifier_reads {liberal : Bool} : Yields law given (identifier liberal) fun node =>
    node.Apt law ∧ node.isIdentifier = true ∧
      (liberal = false → law.mode.strict = true → node.Unreserved) := by
  have tail : ∀ {given : Prop} (start : Mark) (name : String), (given → liberal = false →
      law.mode.strict = true → Word.isStrictReserved name = false) → Yields law given (do
        if !liberal && name == "await" && (← get).inAsync then raise start.pos .awaitInAsync
        next
        finish start (.identifier name none false)) fun node => node.Apt law ∧
          node.isIdentifier = true ∧
            (liberal = false → law.mode.strict = true → node.Unreserved) := by
    intro given start name unreserved
    refine .step fun _ => .guard (.step fun _ => finish_made.refine fun node known made => ?_)
    refine ⟨.ofPlain (made.1 ▸ rfl) (made.1 ▸ Maybe.none), ?_, fun plain strict other bound => ?_⟩
    · rw [Node.isIdentifier, Node.name?, made.1]
      rfl
    · rw [Node.boundNames_eq, made.1] at bound
      cases List.mem_singleton.mp bound
      exact unreserved known plain strict
  refine .step fun start => .step fun current => .step fun name => .ite (fun _ => ?_) fun _ => ?_
  · refine isStrict_yields.bind fun strict => .ite (fun _ => .raised) fun allowed => ?_
    refine .value (tail start name fun known plain mode => ?_)
    simpa [plain, known.2, mode] using allowed
  · split
    · exact .ite (fun liberal => .value (tail start _ fun _ plain => by simp [plain] at liberal))
        fun _ => .fail
    · exact .fail

/-- A name is lawful. -/
theorem identifier_yields {liberal : Bool} :
    Yields law given (identifier liberal) (Node.Apt law) :=
  identifier_reads.weaken fun _ => And.left

/-- A name may stand on any line. -/
theorem identifier_unlaid {liberal : Bool} : Yields law given (identifier liberal) fun node =>
    node.Lawful law ∧ node.form.isUnlaid = true :=
  identifier_reads.weaken fun _ known =>
    ⟨known.1.lawful, (Node.Pattern.ofIdentifier known.2.1).isUnlaid⟩

theorem literal_made {rawValue : Option RawValue} :
    Yields law given (literal form rawValue) fun node => node.form = form :=
  .step fun _ => .step fun _ => .step fun _ => finish_made.bind fun _ => .pure fun known =>
    known.2.1

/-- A literal is lawful if its form is. -/
theorem literal_yields {rawValue : Option RawValue} (plain : form.isPlain = true)
    (all : form.Lawful law) :
    Yields law given (literal form rawValue) (Node.Apt law) := by
  refine literal_made.weaken ?_
  rintro node rfl
  exact .ofPlain plain all

theorem numberLiteral_yields :
    Yields law given numberLiteral (Node.Apt law) :=
  .step fun _ => literal_yields rfl trivial

theorem stringLiteral_yields :
    Yields law given stringLiteral (Node.Apt law) :=
  .step fun _ => literal_yields rfl trivial

/-- The name of a property is lawful. -/
theorem propertyLabel_yields :
    Yields law given propertyLabel (Node.Apt law) := by
  refine .step fun kind => ?_
  split
  · exact numberLiteral_yields
  · exact stringLiteral_yields
  · exact identifier_yields

end Words

end Grammar

end EcmaSyntax
