import EcmaSyntax.Grammar.Class
import EcmaSyntax.Proofs.Grammar.Expression
import EcmaSyntax.Proofs.Grammar.Object

namespace EcmaSyntax

namespace Grammar

open Lexer (View Frame)

variable {setting : Setting} {frame : Frame} {view : View} {rules : Rules}

/-- A class takes the decorators that wait for it without reading tokens. -/
theorem takeDecorators_leads : Leads setting view takeDecorators fun _ => view :=
  .look fun _ => .change (fun _ => rfl) (fun _ => rfl) .pure

/-- Whether a member is a property is seen without reading tokens. -/
theorem isProperty_leads : Leads setting view isProperty fun _ => view :=
  .look fun _ => .look fun _ => .look fun _ => .look fun _ =>
    mayEndStatement_leads.bind fun _ => .pure

/-- A class is checked for a second constructor without reading tokens. -/
theorem checkConstructor_leads {head : MemberHead} {parts : ClassParts} :
    Leads setting view (checkConstructor head parts) fun _ => view := by
  unfold checkConstructor
  exact .guard (fun _ => .raise) (.guard (fun _ => .raise) (.guard (fun _ => .raise)
    (.ite (fun _ => .raise) fun _ => .pure)))

/-- The key of a member is judged without reading tokens. -/
theorem judgeKey_leads {head : MemberHead} {isCall : Bool} {parts : ClassParts} :
    Leads setting view (judgeKey head isCall parts) fun _ => view :=
  .ite (fun _ => checkConstructor_leads.bind fun _ => .pure)
    fun _ => .guard (fun _ => .raise) .pure

/-- The name of a class is read within its frame. -/
theorem className?_leads {isStatement optionalId : Bool} :
    Leads setting (setting.over frame) (className? isStatement optionalId)
      fun _ => setting.over frame :=
  .ifAt (.here (identifier_leads.bind fun _ => .pure))
    (.ite (fun _ => .unexpected) fun _ => .pure)

variable (sound : rules.Sound setting) (calm : frame.Calm)

include sound calm

/-- After the decorators comes their class, or the word for an export. -/
theorem leadingDecorators_leads {allowExport : Bool} :
    Leads setting (setting.over frame) (leadingDecorators rules allowExport)
      fun _ => setting.passable frame := by
  refine .via (setting.over frame) (.loops fun _ => .ifAt ?_ .done) fun _ => ?_
  · exact ((decorator_leads sound calm).enter rfl).bind fun _ =>
      .change (fun _ => rfl) (fun _ => rfl) .more
  · refine .test fun isExport => .ite (fun exports => ?_) fun _ => .anyway ?_
    · refine .found (Bool.and_eq_true_iff.mp exports).2 (.give ?_)
      exact Setting.passable_of_here rfl
    · refine .test fun isClass => .ite (fun _ => .look fun _ => .raise) fun known => ?_
      refine .found (by simpa using known) (.give ?_)
      exact Setting.passable_of_here rfl

section Member

/-- A property of a class keeps to its frame. -/
theorem classProperty_leads {head : MemberHead} :
    Leads setting (setting.over frame) (classProperty rules head) fun _ => setting.over frame := by
  refine ( typeAnnotation?_leads sound calm).bind fun annot => .ifEat (next_here rfl) ?_ ?_
  · exact (assignment_leads sound calm).map.bind fun _ => endStatement_leads.bind fun _ =>
      finish_leads
  · exact .bind .pure fun _ => endStatement_leads.bind fun _ => finish_leads

/-- A method of a class keeps to its frame. -/
theorem classMethod_leads {head : MemberHead} :
    Leads setting (setting.over frame) (classMethod rules head) fun _ => setting.over frame :=
  (genericHead?_leads sound calm).bind fun _ => (method_leads sound calm).bind fun _ =>
    .guard (fun _ => .raise) finish_leads

/-- A word before a key keeps to its frame, and so does the key. -/
theorem withNextKey_leads {head : MemberHead} :
    Leads setting (setting.over frame) (head.withNextKey rules) fun _ => setting.over frame :=
  (propertyKey_leads sound calm).bind fun ⟨_, _⟩ => .pure

/-- The start of a member keeps to its frame. -/
theorem memberStart_leads {mark : Mark} {decorators : List Node} :
    Leads setting (setting.over frame) (memberStart rules mark decorators)
      fun _ => setting.over frame := by
  refine .look fun _ => (eat_leads rfl).bind fun _ => (propertyKey_leads sound calm).bind ?_
  refine fun ⟨_, _⟩ => .look fun _ =>
    .ite (fun _ => .guard (fun _ => .unexpected) ?_) fun _ => .pure
  exact (eat_leads rfl).bind fun _ => withNextKey_leads sound calm

/-- The word before an asynchronous method keeps to its frame. -/
theorem passAsync_leads {head : MemberHead} :
    Leads setting (setting.over frame) (passAsync rules head) fun _ => setting.over frame :=
  .look fun _ => .ite
    (fun _ => (eat_leads rfl).bind fun _ => withNextKey_leads sound calm) fun _ => .pure

/-- The word before an accessor keeps to its frame. -/
theorem passAccessor_leads {head : MemberHead} :
    Leads setting (setting.over frame) (passAccessor rules head) fun _ => setting.over frame := by
  unfold passAccessor
  split
  · exact .look fun _ => .ite (fun _ => withNextKey_leads sound calm) fun _ => .pure
  · exact .pure

/-- A member of a class keeps to its frame. -/
theorem takeMember_leads {parts : ClassParts} :
    Leads setting (setting.over frame) (takeMember rules parts) fun _ => setting.over frame := by
  refine .look fun mark => (memberStart_leads sound calm).bind fun head => ?_
  refine isProperty_leads.bind fun _ => .ite (fun _ => ?_) fun _ => .look fun _ => ?_
  · exact (classProperty_leads sound calm).bind fun _ => .pure
  refine .choose (.ite (fun _ => withNextKey_leads sound calm) fun _ => .pure) fun head => ?_
  refine (passAsync_leads sound calm).bind fun head => ?_
  have rest : ∀ (head : MemberHead) (members : Node → MemberHead → ClassParts)
      (isCall : Bool), Leads setting (setting.over frame)
      (do
        if isCall && parts.hasCall then raise mark.pos .duplicateConstructorCall
        let head := if isCall then { head with kind := .calling } else head
        if head.isConstructor && !head.decorators.isEmpty then
          raise mark.pos .decoratedConstructor
        let method ← classMethod rules head
        return members method head) fun _ => setting.over frame :=
    fun _ _ _ => .guard (fun _ => .raise) (.guard (fun _ => .raise)
      ((classMethod_leads sound calm).bind fun _ => .pure))
  refine .ite (fun _ => .bind .pure fun head => ?_) fun _ => ?_
  · exact rest head (fun method head => _) _
  · exact (passAccessor_leads sound calm).bind fun _ => judgeKey_leads.bind fun head =>
      rest head (fun method head => _) _

omit calm in
/-- The members of a class stand between its braces. -/
theorem classMembers_leads :
    Leads setting (setting.over frame) (classMembers rules) fun _ => setting.over frame := by
  refine .look fun mark => (expect_open (.inr rfl)).bind fun _ => ?_
  refine .via (setting.over frame) (.loops fun parts => ?_) fun parts => ?_
  · refine .ifEat (next_closed (.inr rfl)) .done (.ifEat (next_here rfl) .more (.ifAt ?_ ?_))
    · exact ((decorator_leads sound frame.calm_inner).enter rfl).bind fun _ => .more
    · exact (takeMember_leads sound frame.calm_inner).bind fun _ => .more
  · exact .ite (fun _ => .look fun _ => .bind .raise fun _ => finish_leads) fun _ => finish_leads

end Member

section Class

omit calm in
/-- The code of a class is strict. -/
theorem classBody_leads :
    Leads setting (setting.over frame) (classBody rules) fun _ => setting.over frame :=
  .onStrict fun _ known => (markStrict_leads fun _ => rfl).bind fun _ =>
    (classMembers_leads sound).bind fun _ => (markStrict_leads known).bind fun _ => .pure

/-- The interfaces of a class keep to its frame. -/
theorem implementedInterfaces?_leads :
    Leads setting (setting.over frame) (implementedInterfaces? rules)
      fun _ => setting.over frame := by
  refine .look fun _ => .ite (fun _ => eatWord_leads.bind fun _ => .ite (fun _ => ?_) ?_) ?_
  · exact (commaSeparated_leads (typeReference_leads sound calm)).bind fun _ => .pure
  · exact fun _ => .pure
  · exact fun _ => .pure

/-- The first word of a class is passed with it. -/
theorem classTail_quiet {mark : Mark} {decorators : List Node} {isStatement optionalId : Bool} :
    Leads setting (setting.passable frame)
      (classTail rules mark decorators isStatement optionalId) (Quiet (setting.over frame)) := by
  refine next_leads.bind fun _ => className?_leads.bind fun id => ?_
  refine (genericHead?_leads sound calm).bind fun typeParameters => ?_
  have rest : ∀ superClass : Option Node, Leads setting (setting.over frame)
      (do
        let superTypeParameters ←
          if (← hasTypes) && superClass.isSome then typeArguments? rules else pure none
        let implemented ← implementedInterfaces? rules
        let body ← classBody rules
        let heading : ClassForm :=
          { decorators, id, typeParameters, superClass, superTypeParameters, implemented, body }
        finish mark
          (if isStatement then .classDeclaration heading else .classExpression heading))
      (Quiet (setting.over frame)) := by
    refine fun superClass => .look fun _ => ?_
    refine .choose (.ite (fun _ => typeArguments?_leads sound calm) fun _ => .pure) fun _ => ?_
    refine (implementedInterfaces?_leads sound calm).bind fun _ => ?_
    refine (classBody_leads sound).bind fun _ => finish_quiet ?_
    split <;> rfl
  refine .ifEat (next_here rfl) ?_ (.bind .pure rest)
  exact (Leads.map ((accessChain_spelled sound calm).plain.bind fun _ => settle_plain)).bind rest

end Class

end Grammar

end EcmaSyntax
