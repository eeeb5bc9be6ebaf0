import EcmaSyntax.Grammar.Expression.Object
import EcmaSyntax.Proofs.Grammar.Function

namespace EcmaSyntax

namespace Grammar

open Lexer (View Frame)

variable {setting : Setting} {frame : Frame} {view : View} {rules : Rules}

/-- A shorthand is checked without reading tokens. -/
theorem checkShorthand_leads {key : Node} {name : String} :
    Leads setting view (checkShorthand key name) fun _ => view :=
  isKeyword_leads.bind fun _ => .look fun _ => .ite (fun _ => .raise) fun _ => .pure

section Property

variable (sound : rules.Sound setting) (calm : frame.Calm)

include sound calm

/-- A decorator keeps to its frame. -/
theorem decorator_leads :
    Leads setting (setting.passable frame) (decorator rules) fun _ => setting.over frame :=
  .look fun _ => next_leads.bind fun _ => (assignment_leads sound calm).bind fun _ =>
    finish_leads

/-- A list of decorators keeps to its frame. -/
theorem decoratorList_leads :
    Leads setting (setting.over frame) (decoratorList rules) fun _ => setting.over frame :=
  .loops fun _ => .ifAt (((decorator_leads sound calm).enter rfl).bind fun _ => .more) .done

/-- The key of a property keeps to its frame. -/
theorem propertyKey_leads :
    Leads setting (setting.over frame) (propertyKey rules) fun _ => setting.over frame := by
  refine .ifEat (next_here rfl) ?_ (propertyLabel_leads.bind fun _ => .pure)
  exact (assignment_leads sound calm).bind fun _ => (expect_leads rfl).bind fun _ => .pure

/-- A method of an object keeps to its frame. -/
theorem methodProperty_leads {head : PropertyHead} :
    Leads setting (setting.over frame) (methodProperty rules head) fun _ => setting.over frame :=
  (method_leads sound calm).bind fun _ => finish_leads

/-- An accessor of an object keeps to its frame. -/
theorem accessorProperty_leads {head : PropertyHead} {kind : MethodKind} :
    Leads setting (setting.over frame) (accessorProperty rules head kind)
      fun _ => setting.over frame :=
  (propertyKey_leads sound calm).bind fun ⟨_, _⟩ => (method_leads sound calm).bind fun _ =>
    .guard (fun _ => .raise) finish_leads

/-- A property with a value keeps to its frame. -/
theorem valueProperty_leads {head : PropertyHead} {isPattern : Bool} :
    Leads setting (setting.over frame) (valueProperty rules head isPattern)
      fun _ => setting.over frame := by
  refine .ite (fun _ => ?_) fun _ => ?_
  · exact (bindingElement_leads sound calm).bind fun _ => .bind .pure fun _ =>
      finish_leads.bind fun _ => .pure
  · exact (cover_leads sound calm).bind fun _ => finish_leads.bind fun _ => .pure

/-- A shorthand keeps to its frame, with its default. -/
theorem shorthandProperty_leads {head : PropertyHead} {name : String} {isPattern : Bool} :
    Leads setting (setting.over frame) (shorthandProperty rules head name isPattern)
      fun _ => setting.over frame := by
  unfold shorthandProperty
  refine .guard (fun _ => checkShorthand_leads) ?_
  exact .look fun _ => .look fun _ => duplicate_leads.bind fun _ =>
    (withDefault_leads sound calm).bind fun _ => finish_leads.bind fun _ => .pure

/-- What follows the key of a plain property keeps to its frame. -/
theorem plainPropertyTail_leads {head : PropertyHead} {isPattern : Bool} :
    Leads setting (setting.over frame) (plainPropertyTail rules head isPattern)
      fun _ => setting.over frame := by
  refine .look fun _ => .ite (fun _ => ?_) fun _ => ?_
  · exact .guard (fun _ => .unexpected) ((methodProperty_leads sound calm).bind fun _ => .pure)
  refine .ifEat (next_here rfl) (valueProperty_leads sound calm) ?_
  split
  · exact .unexpected
  · split
    · refine .look fun _ => .look fun _ => .ite (fun _ => shorthandProperty_leads sound calm) ?_
      exact fun _ => .ite (fun _ => .unexpected) fun _ =>
        (accessorProperty_leads sound calm).bind fun _ => .pure
    · exact shorthandProperty_leads sound calm

/-- What follows the key of a property keeps to its frame. -/
theorem propertyTail_leads {head : PropertyHead} {isPattern : Bool} :
    Leads setting (setting.over frame) (propertyTail rules head isPattern)
      fun _ => setting.over frame := by
  refine (genericHead?_leads sound calm).bind fun typeParameters => ?_
  split
  · exact .look fun _ => .guard (fun _ => .unexpected)
      ((plainPropertyTail_leads sound calm).bind fun _ => .pure)
  · exact plainPropertyTail_leads sound calm

/-- A property keeps to its frame from its key on. -/
theorem propertyRest_leads {mark : Mark} {decorators : List Node}
    {isPattern generator : Bool} :
    Leads setting (setting.over frame) (propertyRest rules mark decorators isPattern generator)
      fun _ => setting.over frame := by
  refine .look fun _ => .ite (fun _ => .guard (fun _ => .unexpected) ?_) fun _ => ?_
  · refine identifier_leads.bind fun word => .onKind fun current => .here ?_
    split
    all_goals try exact propertyTail_leads sound calm
    exact (eat_leads rfl).bind fun _ => (propertyKey_leads sound calm).bind fun ⟨_, _⟩ =>
      propertyTail_leads sound calm
  · exact (propertyKey_leads sound calm).bind fun ⟨_, _⟩ => propertyTail_leads sound calm

/-- A property keeps to its frame. -/
theorem property_leads {mark : Mark} {decorators : List Node} {isPattern : Bool} :
    Leads setting (setting.over frame) (property rules mark decorators isPattern)
      fun _ => setting.over frame :=
  .choose (.ite (fun _ => .pure) fun _ => eat_leads rfl) fun _ => propertyRest_leads sound calm

/-- A spread in an object keeps to its frame. -/
theorem spreadProperty_leads {mark : Mark} {isPattern : Bool} :
    Leads setting (setting.passable frame) (spreadProperty rules mark isPattern)
      fun _ => setting.over frame :=
  next_leads.bind fun _ => (assignment_leads sound calm).bind fun _ => finish_leads

omit sound calm in
/-- A second prototype is found without reading tokens. -/
theorem checkProto_leads {parts : ObjectParts} {proto : Option Nat} :
    Leads setting view (parts.checkProto proto) fun _ => view := by
  unfold ObjectParts.checkProto
  split
  · exact .ite (fun _ => .raise) fun _ => .pure
  · exact .pure

/-- A property is taken into an object within its frame. -/
theorem takeProperty_leads {isPattern : Bool} {parts : ObjectParts} :
    Leads setting (setting.over frame) (takeProperty rules isPattern parts)
      fun _ => setting.over frame := by
  refine (decoratorList_leads sound calm).bind fun _ => .look fun _ => .ifAt ?_ ?_
  · exact ((spreadProperty_leads sound calm).enter rfl).bind fun _ => .pure
  · exact (property_leads sound calm).bind fun _ => checkProto_leads.bind fun _ => .pure

omit calm in
/-- The properties of an object stand between its braces. -/
theorem object_quiet {isPattern : Bool} :
    Leads setting (Here .braceL (setting.over frame)) (object rules isPattern)
      fun cover => With (cover.value.form.isQuiet = true) (setting.over frame) := by
  refine .look fun mark => (next_open (.inr rfl)).bind fun _ => ?_
  have closes : Leads setting (Here .braceR (setting.over frame.inner)) next
      fun _ => setting.over frame := next_closed (.inr rfl)
  refine .via (setting.over frame) (.loops fun ⟨first, parts⟩ => ?_) fun parts => ?_
  · refine .ifEat closes .done (.separated closes .done ?_)
    exact (takeProperty_leads sound frame.calm_inner).bind fun _ => .more
  · refine (finish_quiet ?_).bind fun _ => .give fun _ _ met => met
    split <;> rfl

/-- A name or a pattern that binds names keeps to its frame. -/
theorem bindingRule_leads :
    Leads setting (setting.over frame) (binding rules) fun _ => setting.over frame := by
  refine .onKind fun current => ?_
  split
  · exact .look fun _ => .look fun _ => .ite (fun _ => .unexpected) fun _ => .here identifier_leads
  · exact .here identifier_leads
  · refine .look fun _ => (next_here rfl).bind fun _ => ?_
    exact (bindingList_leads sound calm (next_here rfl)).bind fun _ => finish_leads
  · exact (object_quiet sound).plain.bind fun _ => settle_plain
  · exact .unexpected

end Property

end Grammar

end EcmaSyntax
