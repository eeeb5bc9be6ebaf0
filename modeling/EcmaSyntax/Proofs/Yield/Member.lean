import EcmaSyntax.Grammar.Class
import EcmaSyntax.Proofs.Yield.Function

namespace EcmaSyntax

namespace Grammar

variable {rules : Rules} {mark : Mark} {head : MemberHead} {isCall : Bool} {parts : ClassParts}

/-- A member has a name for its key if it is written as this name. -/
theorem MemberHead.isKeyed_iff {name : String} :
    head.isKeyed name = true ↔ head.key.keyName? = some name := by
  unfold MemberHead.isKeyed Node.keyName?
  cases head.key.form <;> simp

section Head

/-- A member stays of its kind when its key is read. -/
theorem withNextKey_keeps : Ends (head.withNextKey rules) fun next => next.kind = head.kind :=
  .last fun _ => .give rfl

/-- A member is plain until a word makes it something else. -/
theorem memberStart_plain {decorators : List Node} :
    Ends (memberStart rules mark decorators) fun head => head.kind = .plain := by
  refine .last fun _ => .last fun _ => .last fun _ => .last fun _ => .ite ?_ (.give rfl)
  exact .guard (.last fun _ => withNextKey_keeps)

/-- A member stays of its kind behind the word for asynchronous code. -/
theorem passAsync_keeps : Ends (passAsync rules head) fun next => next.kind = head.kind :=
  .last fun _ => .ite (.last fun _ => withNextKey_keeps) (.give rfl)

/-- A member is plain, or else it is a getter or setter, whose key may be computed even if the word
before it is not. -/
structure MemberHead.Passed (head : MemberHead) : Prop where
  kind : head.kind = .plain ∨ head.isAccessor = true
  computed : head.computed = true → head.isAccessor = true

/-- The word of an accessor reads or writes. -/
theorem accessorKind?_isAccessor {word : String} {kind : MethodKind}
    (found : accessorKind? word = some kind) : kind = .getter ∨ kind = .setter := by
  unfold accessorKind? at found
  split at found <;> cases found
  · exact .inl rfl
  · exact .inr rfl

/-- An accessor has passed its word. -/
theorem passAccessor_passes (plain : head.kind = .plain) (written : head.computed = false) :
    Ends (passAccessor rules head) MemberHead.Passed := by
  have unpassed : head.Passed := ⟨.inl plain, fun computed => by simp [written] at computed⟩
  unfold passAccessor
  split
  · next kind found =>
      obtain ⟨word, _, accessor⟩ := Option.bind_eq_some_iff.mp found
      refine .last fun _ => .ite (withNextKey_keeps.mono fun next kept => ?_) (.give unpassed)
      have isAccessor : next.isAccessor = true := by
        rcases accessorKind?_isAccessor accessor with rfl | rfl <;>
          simp [MemberHead.isAccessor, kept]
      exact ⟨.inr isAccessor, fun _ => isAccessor⟩
  · exact .give unpassed

/-- What is known of a member before its value, given what has been read of its class: it is the
constructor if it has its name, and it may bear its name. -/
structure MemberHead.Judged (head : MemberHead) (isCall : Bool) (parts : ClassParts) : Prop where
  constructor : head.kind = .constructing → isCall = false ∧ head.isStatic = false ∧
    head.computed = false ∧ head.generator = false ∧ head.isAsync = false ∧
      parts.hasConstructor = false
  uncalled : head.kind ≠ .calling
  named : isCall = false → head.isStatic = false → head.computed = false →
    head.key.keyName? = some "constructor" → head.kind = .constructing
  prototype : head.isStatic = true → head.computed = false →
    head.key.keyName? ≠ some "prototype"

/-- A plain member whose key is computed has no name to judge. -/
theorem MemberHead.Judged.ofComputed (plain : head.kind = .plain)
    (computed : head.computed = true) : head.Judged isCall parts where
  constructor constructing := by simp [plain] at constructing
  uncalled := by simp [plain]
  named _ _ written := by simp [computed] at written
  prototype _ written := by simp [computed] at written

/-- A constructor is the only one, and nothing special. -/
theorem checkConstructor_clears : Ends (checkConstructor head parts) fun _ =>
    parts.hasConstructor = false ∧ head.isAccessor = false ∧ head.generator = false ∧
      head.isAsync = false := by
  refine .split (fun _ => .raised) fun first => .split (fun _ => .raised) fun other =>
    .split (fun _ => .raised) fun once => .split (fun _ => ?_) fun sync => .give ?_
  · exact fun _ _ _ _ absent => by cases absent
  · simp only [Bool.not_eq_true] at first other once sync
    exact ⟨first, other, once, sync⟩

/-- A key that has passed its word is judged. -/
theorem judgeKey_judges (passed : head.Passed) :
    Ends (judgeKey head isCall parts) fun next => next.Judged isCall parts := by
  refine .split (fun constructing => checkConstructor_clears.bind fun _ clear => .give ?_)
    fun other => .split (fun _ => .raised) fun allowed => .give ?_
  · obtain ⟨first, noAccessor, once, sync⟩ := clear
    simp only [Bool.and_eq_true, Bool.not_eq_true'] at constructing
    obtain ⟨⟨uncalled, onObjects⟩, keyed⟩ := constructing
    have written : head.computed = false := by
      by_contra computed
      simp [passed.computed (by simpa using computed)] at noAccessor
    exact ⟨fun _ => ⟨uncalled, onObjects, written, once, sync, first⟩, nofun,
      fun _ _ _ _ => rfl, fun static => by simp [onObjects] at static⟩
  · have kinds : head.kind ≠ .constructing ∧ head.kind ≠ .calling := by
      rcases passed.kind with plain | accessor
      · simp [plain]
      · constructor <;> intro same <;> simp [MemberHead.isAccessor, same] at accessor
    refine ⟨fun constructing => (kinds.1 constructing).elim, kinds.2, ?_, ?_⟩
    · intro uncalled onObjects _ named
      simp [uncalled, onObjects, MemberHead.isKeyed_iff.mpr named] at other
    · intro static _ named
      simp [static, MemberHead.isKeyed_iff.mpr named] at allowed

end Head

section Member

/-- What has been read of the members of a class keeps to its rules. -/
structure ClassParts.Ruled (parts : ClassParts) : Prop where
  methods : ∀ member ∈ parts.members, member.form.FollowsRules
  constructors : parts.members.countP (Node.isMethod .constructing) ≤ parts.hasConstructor.toNat
  calls : parts.members.countP (Node.isMethod .calling) ≤ parts.hasCall.toNat

/-- The members of a class keep to their rules if the parts do. -/
theorem ClassParts.Ruled.finished (ruled : parts.Ruled) : ClassRules parts.members.reverse where
  methods member inside := ruled.methods member (List.mem_reverse.mp inside)
  constructors := by
    rw [List.countP_reverse]
    exact ruled.constructors.trans (Bool.toNat_le _)
  calls := by
    rw [List.countP_reverse]
    exact ruled.calls.trans (Bool.toNat_le _)

theorem classProperty_formed : Ends (classProperty rules head) fun node =>
    ∃ annot value, node.form =
      .classProperty head.computed head.isStatic head.decorators head.key annot value := by
  refine .last fun annot => .last fun _ => .choose fun value => .last fun _ => ?_
  exact fun _ _ => finish_gives.mono fun _ _ made => ⟨annot, value, made.1⟩

/-- A method is finished with what was known before its value. -/
theorem classMethod_formed : Ends (classMethod rules head) fun node => ∃ function,
    node.form = .classMethod head.kind head.computed head.isStatic head.decorators head.key
      function ∧ function.isAsync = head.isAsync ∧ function.generator = head.generator := by
  refine .last fun _ => .bind method_keeps fun function kept => .guard ?_
  exact fun _ _ => finish_gives.mono fun _ _ made => ⟨function, made.1, kept⟩

/-- A method of a class, given what is known of it before its value. -/
def memberEnd (rules : Rules) (mark : Mark) (isCall : Bool) (parts : ClassParts)
    (head : MemberHead) : Parse ClassParts := do
  if isCall && parts.hasCall then raise mark.pos .duplicateConstructorCall
  let head := if isCall then { head with kind := .calling } else head
  if head.isConstructor && !head.decorators.isEmpty then raise mark.pos .decoratedConstructor
  let method ← classMethod rules head
  return {
    members := method :: parts.members
    hasConstructor := parts.hasConstructor || head.kind == .constructing
    hasCall := parts.hasCall || isCall }

/-- At most one node is met, as long as the first is the only one. -/
theorem countP_cons_le {met : Node → Bool} {nodes : List Node} {found : Bool} (node : Node)
    (bounded : nodes.countP met ≤ found.toNat) (first : met node = true → found = false) :
    (node :: nodes).countP met ≤ (found || met node).toNat := by
  rw [List.countP_cons]
  cases meets : met node with
  | true => simpa [first meets] using bounded
  | false => simpa using bounded

/-- A member keeps to the rules, and so do those before it. -/
theorem memberEnd_ruled (ruled : parts.Ruled) (judged : head.Judged isCall parts) :
    Ends (memberEnd rules mark isCall parts head) ClassParts.Ruled := by
  refine .split (fun _ => .raised) fun first => .split (fun _ => .raised) fun undecorated => ?_
  refine classMethod_formed.bind fun node ⟨function, made, async, generator⟩ => .give ?_
  cases isCall with
  | true =>
      simp only [if_true] at made undecorated
      have calls : parts.hasCall = false := by simpa using first
      have bare : head.decorators = [] := by simpa [MemberHead.isConstructor] using undecorated
      have follows : node.form.FollowsRules := by
        rw [made]
        exact ⟨nofun, fun _ _ _ other => (other rfl).elim, fun _ => bare, judged.prototype⟩
      have kinds : ∀ kind, node.isMethod kind = (MethodKind.calling == kind) := fun kind => by
        simp [Node.isMethod, made]
      refine ⟨List.forall_mem_cons.mpr ⟨follows, ruled.methods⟩, ?_, ?_⟩
      · simpa [kinds] using countP_cons_le node ruled.constructors fun found => by
          simp [kinds] at found
      · have counted := countP_cons_le node ruled.calls fun _ => calls
        rwa [kinds, beq_self_eq_true] at counted
  | false =>
      simp only [Bool.false_eq_true, if_false] at made undecorated async generator
      have follows : node.form.FollowsRules := by
        rw [made]
        refine ⟨fun constructing => ?_, fun onObjects written named _ =>
          judged.named rfl onObjects written named,
          fun calling => (judged.uncalled calling).elim, judged.prototype⟩
        obtain ⟨-, onObjects, written, once, sync, -⟩ := judged.constructor constructing
        refine ⟨onObjects, written, generator.trans once, async.trans sync, ?_⟩
        simpa [MemberHead.isConstructor, constructing] using undecorated
      have kinds : ∀ kind, node.isMethod kind = (head.kind == kind) := fun kind => by
        simp [Node.isMethod, made]
      refine ⟨List.forall_mem_cons.mpr ⟨follows, ruled.methods⟩, ?_, ?_⟩
      · have counted := countP_cons_le node ruled.constructors fun found =>
          (judged.constructor (by simpa [kinds] using found)).2.2.2.2.2
        rwa [kinds] at counted
      · have counted := countP_cons_le node ruled.calls fun found =>
          (judged.uncalled (by simpa [kinds] using found)).elim
        rwa [kinds, beq_false_of_ne judged.uncalled] at counted

/-- The members keep to their rules when one is taken. -/
theorem takeMember_ruled (ruled : parts.Ruled) :
    Ends (takeMember rules parts) ClassParts.Ruled := by
  refine .last fun mark => memberStart_plain.bind fun head plain => .last fun _ => .ite ?_ ?_
  · refine classProperty_formed.bind fun node ⟨annot, value, made⟩ => .give ?_
    refine ⟨List.forall_mem_cons.mpr ⟨made ▸ trivial, ruled.methods⟩, ?_, ?_⟩
    · simpa [Node.isMethod, made] using ruled.constructors
    · simpa [Node.isMethod, made] using ruled.calls
  · have unread : ClassParts.Ruled { parts with decorators := [] } :=
      ⟨ruled.methods, ruled.constructors, ruled.calls⟩
    have rest : ∀ isCall (head : MemberHead), head.kind = .plain → Ends (do
        let head ← passAsync rules head
        let head ←
          if head.computed then pure head
          else judgeKey (← passAccessor rules head) isCall { parts with decorators := [] }
        memberEnd rules mark isCall { parts with decorators := [] } head) ClassParts.Ruled := by
      refine fun isCall head plain => passAsync_keeps.bind fun head kept => ?_
      refine .split (fun computed => ?_) fun written => ?_
      · exact memberEnd_ruled unread (.ofComputed (kept.trans plain) computed)
      · refine (passAccessor_passes (kept.trans plain) (by simpa using written)).bind
          fun head passed => (judgeKey_judges passed).bind fun head judged => ?_
        exact memberEnd_ruled unread judged
    refine .last fun _ => .ite ?_ (rest _ head plain)
    exact withNextKey_keeps.bind fun head kept => rest _ head (kept.trans plain)

end Member

end Grammar

end EcmaSyntax
