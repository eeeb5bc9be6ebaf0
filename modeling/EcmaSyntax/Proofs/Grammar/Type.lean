import EcmaSyntax.Grammar.Type.Declaration
import EcmaSyntax.Grammar.Type.Expression
import EcmaSyntax.Proofs.Grammar.Rules

namespace EcmaSyntax

namespace Grammar

open Lexer (View Frame)

variable {setting : Setting} {frame : Frame} {view before : View} {rules : Rules} {α : Type}

/-- Whether the code is part of a type matters to no frame. -/
theorem inType_leads {inType : Bool} :
    Leads setting view
      (modify fun state => { state with lexer := { state.lexer with inType := inType } })
      fun _ => view := fun _ held =>
  held.mark ⟨⟨_, _, _, _, rfl⟩, fun _ strict => strict⟩ held.filled

/-- A step keeps to its frame within a type if it does elsewhere. -/
theorem withinType_leads {action : Parse α} {after : α → View}
    (leads : Leads setting before action after) :
    Leads setting before (withinType action) after :=
  .look fun _ => inType_leads.bind fun _ => leads.bind fun _ =>
    inType_leads.bind fun _ => .give fun _ _ met => met

/-- Items with a comma between each two keep to the frame of the items. -/
theorem commaSeparated_leads {item : Parse Node}
    (leads : Leads setting (setting.over frame) item fun _ => setting.over frame) :
    Leads setting (setting.over frame) (commaSeparated item) fun _ => setting.over frame :=
  .loops fun _ => leads.bind fun _ => .ifEat (next_here rfl) .more .done

section Circle

variable (sound : rules.Sound setting) (calm : frame.Calm)

include sound calm

/-- A type after its mark keeps to its frame. -/
theorem typeAfter_leads {introducer : Kind} (passable : introducer.isPassable = true) :
    Leads setting (setting.over frame) (typeAfter rules introducer)
      fun _ => setting.over frame :=
  withinType_leads ((expect_leads passable).bind fun _ => type_leads sound calm)

theorem typeAnnotation_leads :
    Leads setting (setting.over frame) ( typeAnnotation rules) fun _ => setting.over frame :=
  .look fun _ => (typeAfter_leads sound calm rfl).bind fun _ => finish_leads

theorem typeAnnotation?_leads :
    Leads setting (setting.over frame) ( typeAnnotation? rules) fun _ => setting.over frame :=
  .look fun _ => .look fun _ =>
    .ite (fun _ => ( typeAnnotation_leads sound calm).bind fun _ => .pure) fun _ => .pure

end Circle

/-- An annotation is given without reading tokens. -/
theorem annotate_leads {node annot : Node} :
    Leads setting view (annotate node annot) fun _ => view := refinish_leads

section Circle

variable (sound : rules.Sound setting) (calm : frame.Calm)

include sound calm

/-- A name with its type keeps to its frame. -/
theorem annotatedIdentifier_leads :
    Leads setting (setting.over frame) (annotatedIdentifier rules)
      fun _ => setting.over frame :=
  identifier_leads.bind fun _ =>
    .ifAt (.here (( typeAnnotation_leads sound calm).bind fun _ => annotate_leads)) .pure

end Circle

theorem existentialParam?_leads :
    Leads setting (setting.over frame) existentialParam? fun _ => setting.over frame :=
  .ifAt (.look fun _ => (next_here rfl).bind fun _ => finish_leads.bind fun _ => .pure) .pure

/-- A list in angle brackets keeps to its frame if its items do. -/
theorem bracketed_leads {item : Parse Node}
    (leads : Leads setting (setting.over frame) item fun _ => setting.over frame) :
    Leads setting (setting.over frame) (bracketed item) fun _ => setting.over frame := by
  refine expectAngle_leads.bind fun _ => .loops fun items => ?_
  refine .ifAtAngle ((next_here rfl).bind fun _ => .done) ?_
  refine existentialParam?_leads.bind fun param => ?_
  have ends : ∀ item : Node, Leads setting (setting.over frame)
      (do
        if !(← atAngle ">") then expect .comma
        return .more (item :: items))
      (afterTurn (fun _ => setting.over frame) fun _ : List Node => setting.over frame) :=
    fun _ => .look fun _ =>
      .ite (fun _ => (expect_leads rfl).bind fun _ => .more) fun _ => .more
  split
  · exact .bind .pure fun _ => ends _
  · exact leads.bind fun _ => ends _

/-- The mark after a member of a type keeps to its frame. -/
theorem endTypeMember_leads :
    Leads setting (setting.over frame) endTypeMember fun _ => setting.over frame :=
  .ifEat (next_here rfl) .pure
    (.ifEat (next_here rfl) .pure (.look fun _ => .ite (fun _ => .unexpected) fun _ => .pure))

theorem staticMark_leads {allowed : Bool} :
    Leads setting (setting.over frame) (staticMark allowed) fun _ => setting.over frame := by
  refine .testWord fun found => .ite (fun known => ?_) fun _ => .anyway .pure
  refine .found (Bool.and_eq_true_iff.mp known).2 (lookahead_leads.bind fun _ => ?_)
  exact .ite (fun _ => .here .pure) fun _ => (next_here rfl).bind fun _ => .pure

/-- Whether parentheses group a type is seen without reading tokens. -/
theorem groupsType_leads : Leads setting view groupsType fun _ => view := by
  refine .onKind fun current => .here ?_
  split
  · exact .pure
  · exact .pure
  · exact lookahead_leads.bind fun _ => .pure
  · exact .pure

theorem simpleType_leads {mark : Mark} {form : Form} :
    Leads setting (setting.passable frame) (simpleType mark form) fun _ => setting.over frame :=
  next_leads.bind fun _ => finish_leads

section Circle

variable (sound : rules.Sound setting) (calm : frame.Calm)

include sound calm

/-- Type parameters keep to their frame. -/
theorem typeParameters_leads :
    Leads setting (setting.over frame) (typeParameters rules) fun _ => setting.over frame :=
  .look fun _ => (bracketed_leads (annotatedIdentifier_leads sound calm)).bind fun _ =>
    finish_leads

theorem typeParameters?_leads :
    Leads setting (setting.over frame) (typeParameters? rules) fun _ => setting.over frame :=
  .ifAtAngle (.here ((typeParameters_leads sound calm).bind fun _ => .pure)) .pure

/-- What may precede the parentheses of a generic function keeps to its frame. -/
theorem genericHead?_leads :
    Leads setting (setting.over frame) (genericHead? rules) fun _ => setting.over frame :=
  .look fun _ => .ite (fun _ => typeParameters?_leads sound calm) fun _ => .pure

/-- Type arguments keep to their frame. -/
theorem typeArguments_leads :
    Leads setting (setting.over frame) (typeArguments rules) fun _ => setting.over frame :=
  .look fun _ => (withinType_leads (bracketed_leads (type_leads sound calm))).bind fun _ =>
    finish_leads

theorem typeArguments?_leads :
    Leads setting (setting.over frame) (typeArguments? rules) fun _ => setting.over frame :=
  .ifAtAngle (.here ((typeArguments_leads sound calm).bind fun _ => .pure)) .pure

/-- A parameter of a function type keeps to its frame. -/
theorem functionTypeParam_leads :
    Leads setting (setting.over frame) (functionTypeParam rules) fun _ => setting.over frame :=
  .look fun _ => identifier_leads.bind fun _ => (eat_leads rfl).bind fun _ =>
    (typeAfter_leads sound calm rfl).bind fun _ => finish_leads

/-- The parameters of a function type keep to their frame. -/
theorem functionTypeParams_leads :
    Leads setting (setting.over frame) (functionTypeParams rules) fun _ => setting.over frame := by
  refine .via (setting.over frame) (.loops fun params => ?_) fun params => ?_
  · refine .ifAt (.here ((functionTypeParam_leads sound calm).bind fun param => ?_)) .done
    exact .look fun _ =>
      .ite (fun _ => (expect_leads rfl).bind fun _ => .more) fun _ => .more
  · exact .ifEat (next_here rfl) ((functionTypeParam_leads sound calm).bind fun _ => .pure) .pure

/-- The type of a method keeps to its frame. -/
theorem signature_leads {mark : Mark} :
    Leads setting (setting.over frame) (signature rules mark) fun _ => setting.over frame :=
  (typeParameters?_leads sound calm).bind fun _ => (expect_open (.inl rfl)).bind fun _ =>
    (functionTypeParams_leads sound frame.calm_inner).bind fun _ =>
      (expect_close (.inl rfl)).bind fun _ =>
        (typeAfter_leads sound calm rfl).bind fun _ => finish_leads

/-- The parenthesis before the parameters has been passed. -/
theorem functionTypeTail_leads {mark : Mark} {typeParameters : Option Node} :
    Leads setting (setting.over frame.inner) (functionTypeTail rules mark typeParameters)
      fun _ => setting.over frame :=
  (functionTypeParams_leads sound frame.calm_inner).bind fun _ =>
    (expect_close (.inl rfl)).bind fun _ => (expect_leads rfl).bind fun _ =>
      (type_leads sound calm).bind fun _ => finish_leads

/-- An indexer of an object type keeps to its frame. -/
theorem typeIndexer_leads {mark : Mark} {isStatic : Bool} :
    Leads setting (setting.over frame) (typeIndexer rules mark isStatic)
      fun _ => setting.over frame :=
  (expect_leads rfl).bind fun _ => propertyLabel_leads.bind fun _ =>
    (typeAfter_leads sound calm rfl).bind fun _ => (expect_leads rfl).bind fun _ =>
      (typeAfter_leads sound calm rfl).bind fun _ => endTypeMember_leads.bind fun _ =>
        finish_leads

/-- A call of an object type keeps to its frame. -/
theorem typeCallProperty_leads {mark : Mark} {isStatic : Bool} :
    Leads setting (setting.over frame) (typeCallProperty rules mark isStatic)
      fun _ => setting.over frame :=
  .look fun _ => (signature_leads sound calm).bind fun _ => endTypeMember_leads.bind fun _ =>
    finish_leads

/-- A property of an object type keeps to its frame. -/
theorem typeProperty_leads {mark : Mark} {isStatic : Bool} :
    Leads setting (setting.over frame) (typeProperty rules mark isStatic)
      fun _ => setting.over frame := by
  refine propertyLabel_leads.bind fun _ => .look fun _ => .look fun _ => ?_
  refine .ite (fun _ => ?_) fun _ => ?_
  · exact (signature_leads sound calm).bind fun _ => endTypeMember_leads.bind fun _ => finish_leads
  · exact (eat_leads rfl).bind fun _ => (typeAfter_leads sound calm rfl).bind fun _ =>
      endTypeMember_leads.bind fun _ => finish_leads

omit calm in
/-- The members of the type of an object stand between its braces. -/
theorem objectType_leads {allowStatic : Bool} :
    Leads setting (setting.over frame) (objectType rules allowStatic)
      fun _ => setting.over frame := by
  refine .look fun start => (expect_open (.inr rfl)).bind fun _ => ?_
  refine .via (setting.over frame) (.loops fun members => ?_) fun _ => finish_leads
  have calm := frame.calm_inner
  refine .ifEat (next_closed (.inr rfl)) .done ?_
  refine .look fun mark => staticMark_leads.bind fun isStatic => ?_
  refine .ifAt (.here ((typeIndexer_leads sound calm).bind fun _ => .more)) ?_
  refine .look fun _ => .look fun _ => .ite (fun _ => ?_) fun _ => ?_
  · exact (typeCallProperty_leads sound calm).bind fun _ => .more
  · exact (typeProperty_leads sound calm).bind fun _ => .more

/-- A reference to a type keeps to its frame, with its arguments. -/
theorem typeReference_leads {form : Node → Option Node → Form} :
    Leads setting (setting.over frame) (typeReference rules form) fun _ => setting.over frame :=
  .look fun _ => identifier_leads.bind fun _ => (typeArguments?_leads sound calm).bind fun _ =>
    finish_leads

/-- The parts of an interface keep to their frame, and make up its form. -/
theorem interfaceParts_leads {allowStatic : Bool}
    {form : Node → Option Node → List Node → Node → Form} :
    Leads setting (setting.over frame) (interfaceParts rules allowStatic form)
      fun result => With (∃ id params supers body, result = form id params supers body)
        (setting.over frame) := by
  refine identifier_leads.bind fun id => (typeParameters?_leads sound calm).bind fun params => ?_
  have rest : ∀ supers, Leads setting (setting.over frame)
      (do return form id params supers (← objectType rules allowStatic))
      fun result => With (∃ id params supers body, result = form id params supers body)
        (setting.over frame) :=
    fun supers => (objectType_leads sound).bind fun body =>
      .give fun _ _ passing => ⟨⟨id, params, supers, body, rfl⟩, passing⟩
  refine .ifEat (next_here rfl) ?_ (.bind .pure fun _ => rest _)
  exact (commaSeparated_leads (typeReference_leads sound calm)).bind fun _ => rest _

/-- An interface keeps to its frame from its name on. -/
theorem interfaceTail_quiet {mark : Mark} :
    Leads setting (setting.over frame) (interfaceTail rules mark)
      (Quiet (setting.over frame)) := by
  refine (interfaceParts_leads sound calm).bind fun form => .assume fun made => ?_
  obtain ⟨id, params, supers, body, rfl⟩ := made
  exact finish_quiet rfl

/-- A name for a type keeps to its frame. -/
theorem typeAliasTail_quiet {mark : Mark} :
    Leads setting (setting.over frame) (typeAliasTail rules mark)
      (Quiet (setting.over frame)) :=
  identifier_leads.bind fun _ => (typeParameters?_leads sound calm).bind fun _ =>
    (typeAfter_leads sound calm rfl).bind fun _ => endStatement_leads.bind fun _ =>
      finish_quiet rfl

/-- A declared function keeps to its frame. -/
theorem declaredFunction_quiet {mark : Mark} :
    Leads setting (setting.passable frame) (declaredFunction rules mark)
      (Quiet (setting.over frame)) :=
  next_leads.bind fun _ => identifier_leads.bind fun _ => .look fun _ =>
    (signature_leads sound calm).bind fun _ => finish_leads.bind fun _ =>
      annotate_leads.bind fun _ => endStatement_leads.bind fun _ => finish_quiet rfl

omit calm in
/-- The declarations of a module stand between its braces. -/
theorem declaredModule_quiet {mark : Mark} :
    Leads setting (setting.passable frame) (declaredModule rules mark)
      (Quiet (setting.over frame)) := by
  refine next_leads.bind fun _ => ?_
  have rest : ∀ id : Node, Leads setting (setting.over frame)
      (do
        let bodyMark ← Grammar.mark
        expect .braceL
        let body ← loop [] fun body => do
          if ← eat .braceR then return .done body.reverse
          let declareMark ← Grammar.mark
          expectWord "declare"
          return .more ((← rules (.declared declareMark)) :: body)
        let body ← finish bodyMark (.blockStatement [] body)
        finish mark (.declareModule id body)) (Quiet (setting.over frame)) := by
    refine fun id => .look fun _ => (expect_open (.inr rfl)).bind fun _ => ?_
    refine .via (setting.over frame) (.loops fun body => ?_) fun _ =>
      finish_leads.bind fun _ => finish_quiet rfl
    refine .ifEat (next_closed (.inr rfl)) .done ?_
    exact .look fun _ => expectWord_leads.bind fun _ =>
      (declared_directs sound frame.calm_inner).plain.bind fun _ => .more
  refine .ifAt (stringLiteral_spelled.plain.bind fun _ => rest _) ?_
  exact identifier_leads.bind fun _ => rest _

/-- A declaration of what is defined elsewhere keeps to its frame, whatever it declares. -/
theorem declared_leads {mark : Mark} :
    Leads setting (setting.over frame) (declared rules mark)
      (setting.directs (setting.over frame)) := by
  refine .onKind fun current => ?_
  split
  · refine (next_here rfl).bind fun _ => ?_
    refine (interfaceParts_leads sound calm).bind fun form => .assume fun made => ?_
    obtain ⟨id, params, supers, body, rfl⟩ := made
    exact (finish_quiet rfl).directs
  · exact ((declaredFunction_quiet sound calm).enter rfl).directs
  · exact (next_here rfl).bind fun _ => (annotatedIdentifier_leads sound calm).bind fun _ =>
      endStatement_leads.bind fun _ => (finish_quiet rfl).directs
  · refine .here (.ifAtWord ?_ .unexpected)
    exact ((declaredModule_quiet sound).enter rfl).directs

/-- A type with its arguments keeps to its frame. -/
theorem genericType_leads {mark : Mark} {id : Node} :
    Leads setting (setting.over frame) (genericType rules mark id)
      fun _ => setting.over frame := by
  refine .via (setting.over frame) (.loops fun id => ?_) fun _ =>
    (typeArguments?_leads sound calm).bind fun _ => finish_leads
  exact .ifEat (next_here rfl)
    (identifier_leads.bind fun _ => finish_leads.bind fun _ => .more) .done

theorem typeOfName_leads {mark : Mark} :
    Leads setting (setting.over frame) (typeOfName rules mark) fun _ => setting.over frame := by
  refine identifier_leads.bind fun id => ?_
  split
  · exact finish_leads
  · exact genericType_leads sound calm

/-- A tuple type keeps to its frame. -/
theorem tupleType_leads :
    Leads setting (setting.over frame) (tupleType rules) fun _ => setting.over frame := by
  refine .look fun _ => (expect_leads rfl).bind fun _ => ?_
  refine .via (setting.over frame) (.loops fun types => ?_) fun _ =>
    (expect_leads rfl).bind fun _ => finish_leads
  refine .look fun _ => .look fun _ => .ite (fun _ => .done) fun _ => ?_
  refine (type_leads sound calm).bind fun item => .ifAt (.here .done) ?_
  exact (expect_leads rfl).bind fun _ => .more

/-- A type in parentheses, or the parameters of a function, stand in a bracket. -/
theorem groupedType_leads {mark : Mark} :
    Leads setting (Here .parenL (setting.over frame)) (groupedType rules mark)
      fun _ => setting.over frame := by
  refine (next_open (.inl rfl)).bind fun _ => groupsType_leads.bind fun groups => ?_
  refine .ite (fun _ => ?_) fun _ => functionTypeTail_leads sound calm
  refine (type_leads sound frame.calm_inner).bind fun _ =>
    (expect_close (.inl rfl)).bind fun _ => ?_
  exact (eat_leads rfl).bind fun _ => .guard (fun _ => .raise) .pure

/-- A type without operators keeps to its frame. -/
theorem primaryTypeRule_leads :
    Leads setting (setting.over frame) (primaryType rules) fun _ => setting.over frame := by
  refine .look fun mark => .onKind fun current => ?_
  split
  · exact .here (typeOfName_leads sound calm)
  · exact .here (objectType_leads sound)
  · exact .here (tupleType_leads sound calm)
  · refine .here (.ifAtAngle (.here ?_) .unexpected)
    exact (typeParameters_leads sound calm).bind fun _ => (expect_open (.inl rfl)).bind fun _ =>
      functionTypeTail_leads sound calm
  · exact groupedType_leads sound calm
  · exact .look fun _ => (literal_quiet rfl).plain.enter rfl
  · exact .look fun _ => (literal_quiet rfl).plain.enter rfl
  · exact simpleType_leads.enter rfl
  · exact simpleType_leads.enter rfl
  · exact simpleType_leads.enter rfl
  · exact simpleType_leads.enter rfl
  · exact (next_here rfl).bind fun _ => (primaryType_leads sound calm).bind fun _ => finish_leads
  · exact .unexpected

/-- A type with brackets after it keeps to its frame. -/
theorem arrayType_leads :
    Leads setting (setting.over frame) (arrayType rules) fun _ => setting.over frame := by
  refine .look fun _ => (primaryType_leads sound calm).bind fun item => .loops fun item => ?_
  refine .test fun found => mayEndStatement_leads.bind fun ends => ?_
  refine .ite (fun known => ?_) fun _ => ?_
  · refine .found (Bool.and_eq_true_iff.mp known).1 ((next_here rfl).bind fun _ => ?_)
    exact (expect_leads rfl).bind fun _ => finish_leads.bind fun _ => .more
  · exact .anyway .done

/-- A type with a mark before it keeps to its frame. -/
theorem prefixTypeRule_leads :
    Leads setting (setting.over frame) (prefixType rules) fun _ => setting.over frame :=
  .look fun _ => .ifEat (next_here rfl)
    ((prefixType_leads sound calm).bind fun _ => finish_leads) (arrayType_leads sound calm)

end Circle

/-- Types that an operator joins keep to their frame if each of them does. -/
theorem joinedTypes_leads {operator : Kind} {join : List Node → Form} {item : Parse Node}
    (passable : operator.isPassable = true)
    (leads : Leads setting (setting.over frame) item fun _ => setting.over frame) :
    Leads setting (setting.over frame) (joinedTypes operator join item)
      fun _ => setting.over frame := by
  refine .look fun _ => leads.bind fun first => .ifAt (.here ?_) .pure
  refine .via (setting.over frame) (.loops fun types => ?_) fun _ => finish_leads
  exact .ifEat (next_here passable) (leads.bind fun _ => .more) .done

/-- Every type keeps to its frame. -/
theorem typeExpression_leads (sound : rules.Sound setting) (calm : frame.Calm) :
    Leads setting (setting.over frame) (typeExpression rules) fun _ => setting.over frame :=
  .nested (withinType_leads (joinedTypes_leads rfl
    (joinedTypes_leads rfl (prefixType_leads sound calm))))

end Grammar

end EcmaSyntax
