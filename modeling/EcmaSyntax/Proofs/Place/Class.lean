import EcmaSyntax.Grammar.Class
import EcmaSyntax.Proofs.Place.Object
import EcmaSyntax.Proofs.Place.Operator
import EcmaSyntax.Proofs.Yield.Class

namespace EcmaSyntax

namespace Grammar

variable {setting : Setting} {rules : Rules} {first : Nat} {mark : Mark} {node : Node}

section Decorators

/-- A state with decorators that wait is ahead of the one without. -/
theorem State.Ahead.waiting (state : State) (nodes : List Node) :
    state.Ahead { state with decorators := nodes } :=
  ⟨⟨.refl _, .refl _⟩, Nat.le_refl _, Nat.le_refl _⟩

/-- The decorators that have waited are held with what else is held. -/
theorem takeDecorators_places :
    PlacesAs setting { first := first } takeDecorators
      fun nodes => { loose := nodes, fact := RowBefore first nodes } where
  gives frame state holds := by
    simp only [takeDecorators, Gives.bind_iff, gives_get, gives_modify, gives_pure]
    have owns := holds.keeps.owns.waiting []
    refine ⟨⟨holds.keeps.row, fun node inside => (holds.waiting node inside).stop⟩,
      ⟨⟨holds.keeps.sited, by simp, .nil, .nil, ?_⟩, ?_, by simp, ?_, holds.first, holds.first,
        holds.reached, by simp, by simp, ?_⟩, ⟨.waiting state [], List.nil_sublist _⟩, ?_⟩
    · simpa only [Load.hand_given, Load.hand_loose, List.append_nil, List.nil_append, spans_nil]
        using owns
    · exact fun node inside => (holds.keeps.decorators node inside).2
    · exact fun node inside => (holds.keeps.decorators node inside).1
    · simpa [Hand.all] using holds.nested
    · exact fun pair inside => .inl (by simpa [Hand.all] using inside)
  fails _ _ _ := .never ⟨_, _, rfl⟩

/-- A step builds nothing but decorators, which may wait for their class when it ends. The elements
below them are read from where the step begins. -/
structure Awaits {α : Type} (setting : Setting) (action : Parse α) : Prop where
  gives : ∀ frame state, State.Keeps setting frame state →
    Gives action setting state fun _ after => after.Keeps setting frame ∧ state.Ahead after ∧
      ∀ pair ∈ tags after.decorators, pair ∈ tags state.decorators ∨ state.lexer.start ≤ pair.start
  fails : ∀ frame state, State.Keeps setting frame state → Strays action setting state

section Waiting

variable {α β : Type} {frame : List Finished} {state : State}

/-- Nothing has been read yet of what begins here. -/
theorem State.Keeps.hand (keeps : state.Keeps setting frame) :
    ({ first := state.lexer.start } : Hand).In setting frame state where
  keeps := by simpa only [List.append_nil, spans_nil] using keeps
  sits := nofun
  begins := nofun
  loose := nofun
  first := keeps.sited.posted.start
  latest := keeps.sited.posted.start
  reached := Nat.le_refl _
  waiting node inside := (keeps.decorators node inside).2.2.mono keeps.sited.sound.ordered
  past := nofun
  nested := keeps.nested

namespace Awaits

variable {action first second : Parse α} {next : α → Parse β}

/-- A step that only reads leaves waiting what waits. -/
theorem reads [reads : Reads action] : Awaits setting action :=
  ⟨fun _ state keeps value after ends =>
    have same : after.decorators = state.decorators := reads.decorators _ _ value after ends
    ⟨reads.keeps keeps value after ends, (reads.onward keeps.sited value after ends).toAhead,
      fun _ inside => .inl (same ▸ inside)⟩, fun _ _ keeps => .reads keeps.sited⟩

theorem bind (begins : Awaits setting action) (goesOn : ∀ value, Awaits setting (next value)) :
    Awaits setting (action >>= next) where
  gives frame state keeps := Gives.bind_iff.mpr <|
    (begins.gives frame state keeps).mono fun value middle met =>
      ((goesOn value).gives frame middle met.1).mono fun _ _ further =>
        ⟨further.1, met.2.1.trans further.2.1, fun pair inside =>
          (further.2.2 pair inside).elim (met.2.2 pair)
            fun later => .inr (Nat.le_trans met.2.1.start later)⟩
  fails frame state keeps := (begins.fails frame state keeps).bind <|
    (begins.gives frame state keeps).mono fun value middle met =>
      ⟨met.2.1.toGrown, (goesOn value).fails frame middle met.1⟩

theorem ite {condition : Prop} [Decidable condition] (holds : Awaits setting first)
    (fails : Awaits setting second) : Awaits setting (if condition then first else second) := by
  split
  · exact holds
  · exact fails

/-- A loop leaves waiting what waits if each turn does. -/
theorem loop {start : α} {turn : α → Parse (Turn α β)}
    (turns : ∀ gathered, Awaits setting (turn gathered)) :
    Awaits setting (Grammar.loop start turn) := by
  refine .bind .reads fun _ => loopWithin_induction (fun _ => Awaits setting) (fun _ => ?_)
    (fun gathered rest goesOn => (turns gathered).bind fun turned => ?_) _ start
  · exact .reads
  · cases turned with
    | more next => exact goesOn next
    | done result => exact (.reads : Awaits setting (pure result))

end Awaits

/-- A decorator waits for its class, after those that have waited before. -/
theorem waitingDecorator_awaits (placed : rules.Placed setting) :
    Awaits setting (do
      let taken ← decorator rules
      modify fun state => { state with decorators := state.decorators ++ [taken] }) := by
  refine ⟨fun frame state keeps => ?_, fun frame state keeps => ?_⟩
  · rw [Gives.bind_iff]
    refine ((decorator_places placed).gives frame state keeps.hand).mono fun node middle met => ?_
    obtain ⟨isDecorator, holds, onward, sprouts⟩ := met
    have sits := holds.sits node List.mem_cons_self
    have same : (Hand.all { first := state.lexer.start, given := [node] } middle).Perm
        (middle.decorators ++ [node]) := List.perm_append_comm
    refine gives_modify.mpr ⟨⟨holds.keeps.sited, fun other inside => ?_, ?_, ?_, ?_⟩,
      onward.toAhead.trans (.waiting middle _),
      fun pair inside => sprouts pair ((tags_perm same).mem_iff.mpr inside)⟩
    · rcases List.mem_append.mp inside with inside | inside
      · exact holds.keeps.decorators other inside
      · obtain rfl := List.mem_singleton.mp inside
        exact ⟨isDecorator, sits⟩
    · exact holds.keeps.row.concat fun other inside =>
        Nat.le_trans (holds.waiting other inside).stop (holds.begins node List.mem_cons_self)
    · exact holds.nested.part (tags_perm same.symm).subperm
    · refine (holds.keeps.owns.waiting (middle.decorators ++ [node])).part (List.Perm.subperm ?_)
      simp only [Load.hand_given, Load.hand_loose, spans_append, List.append_nil, List.append_assoc]
      exact List.perm_append_comm.append_left frame
  · exact .bind ((decorator_places placed).fails frame state keeps.hand)
      (((decorator_places placed).gives frame state keeps.hand).mono fun _ _ met =>
        ⟨met.2.onward.toGrown, .never ⟨_, _, rfl⟩⟩)

/-- The decorators that wait for their class, which has to follow them. -/
def waitingDecorators (rules : Rules) : Parse PUnit := do
  Grammar.loop () fun _ => do
    if ← atKind .at then
      let taken ← decorator rules
      modify fun state => { state with decorators := state.decorators ++ [taken] }
      return .more ()
    else return .done ()

/-- Decorators are read and wait for their class. -/
theorem waitingDecorators_awaits (placed : rules.Placed setting) :
    Awaits setting (waitingDecorators rules) := by
  refine .loop fun _ => .bind .reads fun _ => .ite ?_ .reads
  have waiting := (waitingDecorator_awaits placed).bind
    fun _ => (Awaits.reads : Awaits setting (pure (Turn.more ()) : Parse (Turn PUnit PUnit)))
  simpa only [bind_assoc] using waiting

/-- A class has to follow, or an export if that is allowed. -/
def checkDecorated (allowExport : Bool) : Parse PUnit := do
  if allowExport && (← atKind .kwExport) then return
  if !(← atKind .kwClass) then raise (← get).lexer.start .leadingDecorators

/-- Decorators are read, and then it is checked what they stand before. -/
theorem leadingDecorators_eq {allowExport : Bool} : leadingDecorators rules allowExport = (do
    waitingDecorators rules
    checkDecorated allowExport) := rfl

/-- Decorators stand before a class or an export. -/
theorem checkDecorated_stays {allowExport : Bool} :
    Gives (checkDecorated allowExport) setting state fun _ after => after = state ∧
      (state.lexer.kind = .kwClass ∨ state.lexer.kind = .kwExport) := by
  rw [checkDecorated, Gives.bind_iff, gives_atKind]
  refine gives_ite (fun exported => gives_pure.mpr ⟨rfl, .inr ?_⟩) fun _ => ?_
  · simpa using (Bool.and_eq_true_iff.mp exported).2
  · rw [Gives.bind_iff, gives_atKind]
    refine gives_ite (fun _ => Gives.last fun _ _ _ _ absent => by cases absent) fun follows =>
      gives_pure.mpr ⟨rfl, .inl ?_⟩
    simpa using follows

theorem checkDecorated_places {allowExport : Bool} :
    Places setting { first := first } (checkDecorated allowExport) := by
  have rest : Places setting { first := first } (do
      if !(← atKind .kwClass) then raise (← get).lexer.start .leadingDecorators) :=
    .step fun _ => .ite (fun _ => .onGet fun _ sited => .raise sited.posted.start) fun _ => .pure
  exact .step fun _ => .ite (fun _ => .pure) fun _ => rest

/-- Only a class or an export follows the decorators that wait, which takes them. -/
theorem decorated_places (placed : rules.Placed setting) {allowExport : Bool}
    {next : PUnit → Parse β} {final : β → Load}
    (goesOn : ∀ {first}, PlacesAs setting { first := first } (next ⟨⟩) final)
    (takes : ∀ {frame state}, ({ first := state.lexer.start } : Hand).In setting frame state →
      (state.lexer.kind = .kwClass ∨ state.lexer.kind = .kwExport) →
      Gives (next ⟨⟩) setting state fun _ after => after.decorators = []) :
    PlacesAs setting { first := first } (leadingDecorators rules allowExport >>= next) final := by
  rw [leadingDecorators_eq, bind_assoc]
  have waits := waitingDecorators_awaits placed
  have kept {frame state} (holds : ({ first := first } : Hand).In setting frame state) :
      state.Keeps setting frame := by simpa only [List.append_nil, spans_nil] using holds.keeps
  refine ⟨fun frame state holds => ?_, fun frame state holds => ?_⟩
  · rw [Gives.bind_iff]
    refine (waits.gives frame state (kept holds)).mono fun _ middle met => ?_
    obtain ⟨keeps, ahead, waited⟩ := met
    rw [Gives.bind_iff]
    refine checkDecorated_stays.mono fun _ after same => ?_
    obtain ⟨rfl, follows⟩ := same
    intro value last ends
    obtain ⟨known, made, onward, sprouts⟩ := goesOn.gives frame after keeps.hand value last ends
    have taken : last.decorators = [] := takes keeps.hand follows value last ends
    have below : first ≤ after.lexer.start := Nat.le_trans holds.reached ahead.start
    refine ⟨known, { made with
      begins := fun node inside => Nat.le_trans below (made.begins node inside)
      first := holds.first
      latest := holds.first
      reached := Nat.le_trans below made.reached
      waiting := by simp [taken] }, ⟨ahead.trans onward.toAhead, by simp [taken]⟩, fun pair inside => ?_⟩
    rcases sprouts pair inside with old | new
    · exact waited pair old
    · exact .inr (Nat.le_trans ahead.start new)
  · refine (waits.fails frame state (kept holds)).bind <|
      (waits.gives frame state (kept holds)).mono fun _ middle met => ⟨met.2.1.toGrown, ?_⟩
    refine .bind (checkDecorated_places.fails frame middle met.1.hand) <|
      checkDecorated_stays.mono fun _ after same => ?_
    obtain ⟨rfl, -⟩ := same
    exact ⟨.refl _, goesOn.fails frame after met.1.hand⟩

end Waiting

end Decorators

section Heads

instance : Reads isProperty := inferInstanceAs (Reads (hasTypes >>= _))

/-- A member of a class before its value, which starts at a mark. -/
@[simps] def member (mark : Mark) (decorators : List Node) (head : MemberHead) : Load where
  given := [head.key]
  fact := head.mark = mark ∧ head.decorators = decorators

/-- A second constructor is refused in its place. -/
theorem checkConstructor_places {head : MemberHead} {parts : ClassParts}
    (sits : head.key.Sits setting.source) :
    Places setting { first := first } (checkConstructor head parts) := by
  have raises {first : Nat} {problem : Problem} : Places setting { first := first }
      (raise head.key.start problem : Parse PUnit) := .raise sits.here.start
  unfold checkConstructor
  exact .guard (fun _ => raises) (.guard (fun _ => raises) (.guard (fun _ => raises)
    (.ite (fun _ => raises) fun _ => .pure)))

/-- The key of a member is judged in its place. -/
theorem judgeKey_places {isCall : Bool} {parts : ClassParts} (head : MemberHead) :
    PlacesAs setting { first := first, given := [head.key] } (judgeKey head isCall parts)
      (member head.mark head.decorators) :=
  .held fun known =>
    have sits := known.sits head.key List.mem_cons_self
    .ite (fun _ => .check (checkConstructor_places sits) fun _ => .conclude ⟨rfl, rfl⟩)
      fun _ => .guard (fun _ => .raise sits.here.start) (.conclude ⟨rfl, rfl⟩)

variable (placed : rules.Placed setting)

include placed

/-- The key that has been read before is none. -/
theorem withNextKey_places (key : Node) {head : MemberHead} :
    PlacesAs setting { first := first, given := [key] } (head.withNextKey rules)
      (member head.mark head.decorators) :=
  .drop [] [key] (.read (propertyKey_places placed) fun _ _ => .conclude ⟨rfl, rfl⟩)

/-- The start of a member is made in its place. -/
theorem memberStart_places {decorators : List Node} :
    PlacesAs setting { first := first } (memberStart rules mark decorators)
      (member mark decorators) :=
  .step fun _ => .step fun _ => .read (propertyKey_places placed) fun (key, _) _ => .step fun _ =>
    .ite (fun _ => .guard (fun _ => .reads) (.step fun _ => .last (withNextKey_places placed key)))
      fun _ => .conclude ⟨rfl, rfl⟩

/-- The word before an asynchronous method becomes the key where it is no such word. -/
theorem passAsync_places (head : MemberHead) :
    PlacesAs setting { first := first, given := [head.key] } (passAsync rules head)
      (member head.mark head.decorators) :=
  .step fun _ => .ite (fun _ => .step fun _ => withNextKey_places placed head.key)
    fun _ => .conclude ⟨rfl, rfl⟩

/-- The word before an accessor becomes the key where it is no such word. -/
theorem passAccessor_places (head : MemberHead) :
    PlacesAs setting { first := first, given := [head.key] } (passAccessor rules head)
      (member head.mark head.decorators) := by
  unfold passAccessor
  split
  · exact .step fun _ => .ite (fun _ => withNextKey_places placed head.key)
      fun _ => .conclude ⟨rfl, rfl⟩
  · exact .conclude ⟨rfl, rfl⟩

/-- A property of a class is made in its place. -/
theorem classProperty_places (head : MemberHead) (before : RowBefore head.mark.pos head.decorators) :
    Places setting { first := head.mark.pos, given := [head.key], loose := head.decorators }
      (classProperty rules head) := by
  have value {first : Nat} : Places setting { first := first } (some <$> rules.assignment false) :=
    .map (assignment_places placed)
  have rest (annot value : Option Node) (row : InRow ([head.key] ++ annot.toList ++ value.toList)) :
      Places setting {
          first := head.mark.pos, loose := head.decorators
          given := [head.key] ++ annot.toList ++ value.toList } (do
        endStatement
        finish head.mark
          (.classProperty head.computed head.isStatic head.decorators head.key annot value)) :=
    .step fun _ => .held fun held => .finish
      (by simpa [Form.Ordered, Form.children] using before.append row held.begins)
  refine .read (typeAnnotation?_places placed) fun annot typed => ?_
  have row : InRow ([head.key] ++ annot.toList) := typed.extend (.single _) (.option annot)
  exact .step fun _ => .ite
    (fun _ => .read value fun value known =>
      .last (rest annot value (known.extend row (.option value))))
    fun _ => .value (.last (rest annot none (by simpa using row)))

/-- A method of a class is made in its place. -/
theorem classMethod_places (head : MemberHead) (before : RowBefore head.mark.pos head.decorators) :
    Places setting { first := head.mark.pos, given := [head.key], loose := head.decorators }
      (classMethod rules head) := by
  have function {first : Nat} (typeParameters : Option Node) :
      PlacesAs setting { first := first, given := typeParameters.toList }
        (method rules
          { generator := head.generator, isAsync := head.isAsync, typeParameters } head.kind)
        (FunctionHead.named
          { generator := head.generator, isAsync := head.isAsync, typeParameters }) :=
    .last (method_places placed (by simpa [FunctionHead.parts] using InRow.option typeParameters) rfl)
  refine .held fun known => .read (genericHead?_places placed) fun typeParameters typed => ?_
  have key := (known.sits head.key List.mem_cons_self).here
  have later := Nat.le_trans (known.begins head.key List.mem_cons_self) key.ordered
  refine .remember List.mem_cons_self (Nat.le_refl head.key.stop) ?_
  refine .callAt [head.key] (.passed List.mem_cons_self later key.stop) (function typeParameters)
    (fun function made => ?_) fun node inside => typed.after node inside _ List.mem_cons_self
  exact .guard (fun _ => .raise known.first) (.held fun held => .finish
    (before.method (List.pairwise_cons.mpr ⟨made.begins, made.fact.1⟩) held.begins))

end Heads

section Members

/-- What has been read of a class: its members in a row, and the decorators of the next one. -/
instance : Bears ClassParts where
  load _ parts := {
    given := parts.members, loose := parts.decorators
    fact := InRow parts.members.reverse ∧ InRow parts.decorators }

@[simp] theorem load_class {source : Source} {parts : ClassParts} :
    Bears.load source parts = {
      given := parts.members, loose := parts.decorators
      fact := InRow parts.members.reverse ∧ InRow parts.decorators } := rfl

variable (placed : rules.Placed setting)

include placed

/-- The key of a member of a class has been read, which starts at a mark. -/
structure MemberHead.Begins (mark : Mark) (decorators : List Node) (head : MemberHead) : Prop where
  here : head.mark = mark
  decorated : head.decorators = decorators
  key : mark.pos ≤ head.key.start

/-- Beside the key of a member the members before it are held, and the decorators of this one. -/
@[simps] def memberHand {first : Nat} {mark : Mark} (later : first ≤ mark.pos)
    (members decorators : List Node) (key : Node) : Hand where
  first := first
  latest := mark.pos
  given := members ++ [key]
  loose := decorators
  ordered := later

/-- A member that is a method is finished. -/
def methodMember (rules : Rules) (mark : Mark) (parts : ClassParts) (isCall : Bool)
    (head : MemberHead) : Parse ClassParts := do
  if head.isConstructor && !head.decorators.isEmpty then raise mark.pos .decoratedConstructor
  let method ← classMethod rules head
  return {
    members := method :: parts.members
    hasConstructor := parts.hasConstructor || head.kind == .constructing
    hasCall := parts.hasCall || isCall }

variable {parts : ClassParts} {decorators : List Node} {head : MemberHead} {isCall : Bool}

/-- A method is added to the members before it. -/
theorem methodMember_places (later : first ≤ mark.pos)
    (earlier : RowBefore mark.pos parts.members.reverse) (before : RowBefore mark.pos decorators)
    (begins : head.Begins mark decorators) :
    Places setting (memberHand later parts.members decorators head.key)
      (methodMember rules mark parts isCall head) := by
  obtain ⟨rfl, rfl, starts⟩ := begins
  unfold methodMember
  refine .held fun known => .guard (fun _ => .raise known.latest) ?_
  exact .lendAt parts.members [] .latest (classMethod_places placed head before)
    (fun method made =>
      .conclude ⟨earlier.gather (made.begins method List.mem_cons_self), .nil⟩)
    (List.forall_mem_singleton.mpr starts)

/-- A member after its first key, and after the word that makes it one of those that are called. -/
def namedMember (rules : Rules) (mark : Mark) (parts : ClassParts) (isCall : Bool)
    (head : MemberHead) : Parse ClassParts := do
  let head ← passAsync rules head
  let head ←
    if head.computed then pure head
    else judgeKey (← passAccessor rules head) isCall parts
  if isCall && parts.hasCall then raise mark.pos .duplicateConstructorCall
  methodMember rules mark parts isCall (if isCall then { head with kind := .calling } else head)

omit placed in
/-- A member still begins where it did once its key has been read. -/
theorem MemberHead.Begins.next {next : MemberHead} (begins : head.Begins mark decorators)
    (made : Made setting.source mark.pos (member head.mark head.decorators next)) :
    next.Begins mark decorators :=
  ⟨made.fact.1.trans begins.here, made.fact.2.trans begins.decorated,
    made.begins next.key List.mem_cons_self⟩

/-- A member with a name is added to the members before it. -/
theorem namedMember_places (later : first ≤ mark.pos)
    (earlier : RowBefore mark.pos parts.members.reverse) (before : RowBefore mark.pos decorators)
    (begins : head.Begins mark decorators) :
    Places setting (memberHand later parts.members decorators head.key)
      (namedMember rules mark parts isCall head) := by
  have last (head : MemberHead) (begins : head.Begins mark decorators) :
      Places setting (memberHand later parts.members decorators head.key) (do
        if isCall && parts.hasCall then raise mark.pos .duplicateConstructorCall
        methodMember rules mark parts isCall
          (if isCall then { head with kind := .calling } else head)) := by
    refine .held fun known => .guard (fun _ => .raise known.latest) ?_
    split
    · have called : MemberHead.Begins mark decorators { head with kind := .calling } :=
        ⟨begins.here, begins.decorated, begins.key⟩
      exact methodMember_places placed later earlier before called
    · exact methodMember_places placed later earlier before begins
  have starts {head : MemberHead} (begins : head.Begins mark decorators) :
      ∀ key ∈ [head.key], mark.pos ≤ key.start := List.forall_mem_singleton.mpr begins.key
  refine .callAt parts.members .latest (passAsync_places placed head) (fun head made => ?_)
    (starts begins)
  replace begins := begins.next made
  refine .ite (fun _ => .value (.arrange (last head begins))) fun _ => ?_
  refine .callAt parts.members .latest (passAccessor_places placed head) (fun head made => ?_)
    (starts begins)
  replace begins := begins.next made
  exact .callAt parts.members .latest (judgeKey_places head)
    (fun head made => .arrange (last head (begins.next made))) (starts begins)

/-- A member is added to those before it, or a decorator waits. -/
theorem takeMember_places (row : InRow parts.members.reverse) (decorated : InRow parts.decorators) :
    Places setting { first := first, given := parts.members, loose := parts.decorators }
      (takeMember rules parts) := by
  refine .markHere fun mark later ended => .always ?_
  have earlier : RowBefore mark.pos parts.members.reverse :=
    ⟨row, fun other inside => ended other (by simp [List.mem_reverse.mp inside])⟩
  have before : RowBefore mark.pos parts.decorators :=
    ⟨decorated, fun other inside => ended other (by simp [inside])⟩
  refine .readAt .latest (memberStart_places placed) fun head made => ?_
  have begins : head.Begins mark parts.decorators :=
    ⟨made.fact.1, made.fact.2, made.begins head.key List.mem_cons_self⟩
  have starts : ∀ key ∈ [head.key], mark.pos ≤ key.start := List.forall_mem_singleton.mpr begins.key
  have property : Places setting
      { first := mark.pos, given := [head.key], loose := parts.decorators }
      (classProperty rules head) :=
    begins.here ▸ begins.decorated ▸ classProperty_places placed head
      (begins.here.symm ▸ begins.decorated.symm ▸ before)
  refine .step fun _ => .ite
    (fun _ => .lendAt parts.members [] .latest property (fun member made =>
      .conclude ⟨earlier.gather (made.begins member List.mem_cons_self), .nil⟩) starts)
    fun _ => .step fun _ => .ite (fun _ => ?_) fun _ => .value ?_
  · exact .callAt parts.members .latest (withNextKey_places placed head.key) (fun head made =>
      .arrange (namedMember_places placed later earlier before (begins.next made))) starts
  · exact .arrange (namedMember_places placed later earlier before begins)

/-- The members of a class are made in their places. -/
theorem classMembers_places : Places setting { first := first } (classMembers rules) := by
  refine .onMark fun mark => .pass fun _ => .bind
    (.loop (fun parts rowed => ?_) (show InRow [] ∧ InRow [] from ⟨.nil, .nil⟩)) fun parts made => ?_
  · have taken {first : Nat} : Places setting
        { first := first, given := parts.members, loose := parts.decorators } (do
          return .more (← takeMember rules parts) : Parse (Turn ClassParts ClassParts)) :=
      .bind (takeMember_places placed rowed.1 rowed.2) fun _ made => .conclude made.fact
    exact .step fun _ => .ite (fun _ => .conclude rowed) fun _ => .step fun _ => .ite
      (fun _ => .conclude rowed) fun _ => .step fun _ => .ite
        (fun _ => .read (decorator_places placed) fun node known => .setAside parts.members known.fact
          (.conclude ⟨rowed.1, rowed.2.concat (known.apart node List.mem_cons_self)⟩))
        fun _ => taken
  · exact .ite (fun _ => .onGet fun _ sited => .raised sited.posted.start) fun _ =>
      .dropLoose (.finish (by simpa [Form.Ordered, Form.children] using made.fact.1))

/-- The body of a class is made in its place. -/
theorem classBody_places : Places setting { first := first } (classBody rules) := by
  rw [classBody_eq]
  exact .within (classMembers_places placed)

/-- The interfaces of a class are made in their places. -/
theorem implementedInterfaces?_places :
    PlacesAs setting { first := first } (implementedInterfaces? rules)
      fun supers => row (supers.getD []) := by
  have interface {first : Nat} :
      Places setting { first := first } (typeReference rules .classImplements) :=
    typeReference_places placed (by simp [Form.parts, Form.fields]) fun _ _ row => row
  exact .step fun _ => .ite (fun _ => .step fun _ => .ite
    (fun _ => .bind (commaSeparated_places interface) fun _ made => .conclude made.fact)
    fun _ => .conclude .nil) fun _ => .conclude .nil

omit placed in
/-- The name of a class is made in its place. -/
theorem className?_places {isStatement optionalId : Bool} :
    Places setting { first := first } (className? isStatement optionalId) :=
  .step fun _ => .ite (fun _ => .bind identifier_places fun _ _ => .pure) fun _ => .ite
    (fun _ => .unexpected) fun _ => .pure

omit placed in
/-- A class is made of its parts and the decorators before it, whatever kind of node it is. -/
theorem finishClass_places {heading : ClassForm} {form : Form}
    (same : form.parts = heading.parts) (decorated : form.decorators = heading.decorators)
    (ordered : form.Ordered ↔ InRow heading.children)
    (waited : RowBefore mark.pos heading.decorators) (row : InRow heading.undecorated)
    (plain : form.tags? = none := by rfl) :
    Places setting { first := mark.pos, given := heading.undecorated, loose := heading.decorators }
      (finish mark form) := by
  refine .held fun known => .finish (ordered.mpr ?_) rfl ?_ (.inl ?_)
    (decorated ▸ .refl _) (plain ▸ nofun)
  · exact heading.children_eq ▸ waited.append row known.begins
  · rw [same, ← heading.children_eq_parts, heading.children_eq]
    exact List.perm_append_comm
  · simp [ClassForm.undecorated]

/-- A class is made in its place, after its decorators. -/
theorem classTail_places {isStatement optionalId : Bool} (waited : RowBefore mark.pos decorators) :
    Places setting { first := mark.pos, loose := decorators }
      (classTail rules mark decorators isStatement optionalId) := by
  have superClass {first : Nat} : Places setting { first := first }
      (some <$> (do (← accessChain rules).settle) : Parse (Option Node)) :=
    .map (.bind (accessChain_places placed) fun _ made => settle_places made.fact.2 .pure)
  have rest (id typeParameters superClass superTypeParameters : Option Node)
      (row : InRow (id.toList ++ typeParameters.toList ++ superClass.toList ++
        superTypeParameters.toList)) :
      Places setting {
          first := mark.pos, loose := decorators
          given := id.toList ++ typeParameters.toList ++ superClass.toList ++
            superTypeParameters.toList } (do
        let implemented ← implementedInterfaces? rules
        let body ← classBody rules
        let heading : ClassForm :=
          { decorators, id, typeParameters, superClass, superTypeParameters, implemented, body }
        finish mark
          (if isStatement then .classDeclaration heading else .classExpression heading)) := by
    refine .read (implementedInterfaces?_places placed) fun implemented interfaces =>
      .read (classBody_places placed) fun body last => ?_
    have whole := last.extend (interfaces.extend row interfaces.fact) (.single body)
    cases isStatement
    · exact .last (finishClass_places rfl rfl .rfl waited whole) (.refl _)
    · exact .last (finishClass_places rfl rfl .rfl waited whole) (.refl _)
  have inherited (id typeParameters superClass : Option Node)
      (row : InRow (id.toList ++ typeParameters.toList ++ superClass.toList)) :
      Places setting {
          first := mark.pos, loose := decorators
          given := id.toList ++ typeParameters.toList ++ superClass.toList } (do
        let superTypeParameters ←
          if (← hasTypes) && superClass.isSome then typeArguments? rules else pure none
        let implemented ← implementedInterfaces? rules
        let body ← classBody rules
        let heading : ClassForm :=
          { decorators, id, typeParameters, superClass, superTypeParameters, implemented, body }
        finish mark
          (if isStatement then .classDeclaration heading else .classExpression heading)) :=
    .step fun _ => .ite
      (fun _ => .read (typeArguments?_places placed) fun superTypeParameters known =>
        .last (rest id typeParameters superClass superTypeParameters
          (known.extend row (.option superTypeParameters))))
      fun _ => .value (.last (rest id typeParameters superClass none (by simpa using row)))
  refine .step fun _ => .read className?_places fun id _ => .read (genericHead?_places placed)
    fun typeParameters typed => ?_
  have row : InRow (id.toList ++ typeParameters.toList) :=
    typed.extend (.option id) (.option typeParameters)
  exact .step fun _ => .ite
    (fun _ => .read superClass fun superClass known =>
      .last (inherited id typeParameters superClass (known.extend row (.option superClass))))
    fun _ => .value (.last (inherited id typeParameters none (by simpa using row)))

/-- Once the decorators have been taken for their class, no other ones wait. -/
theorem takenClass_empties {isStatement optionalId : Bool} {frame : List Finished} {state : State}
    (holds : ({ first := mark.pos } : Hand).In setting frame state) :
    Gives (do classTail rules mark (← takeDecorators) isStatement optionalId) setting state
      fun _ after => after.decorators = [] := by
  have empties : Gives takeDecorators setting state fun _ after => after.decorators = [] := by
    simp only [takeDecorators, Gives.bind_iff, gives_get, gives_modify, gives_pure]
  rw [Gives.bind_iff]
  intro nodes middle ends
  obtain ⟨waited, made, -⟩ := takeDecorators_places.gives frame state holds nodes middle ends
  refine ((classTail_places placed waited).gives frame middle made).mono fun _ _ met => ?_
  exact List.sublist_nil.mp (empties nodes middle ends ▸ met.2.onward.waiting)

end Members

end Grammar

end EcmaSyntax
