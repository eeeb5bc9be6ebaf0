import EcmaSyntax.Grammar.Build
import EcmaSyntax.Tree.Walk

namespace EcmaSyntax

namespace Node

/-- A cast of a type, as the annotated parameter that it may stand for. Other nodes are as
they are, and so is a cast of what has no place for a type. -/
def uncast (node : Node) : Node :=
  match node.form with
  | .typeCastExpression expression annot _ =>
    match expression.withAnnot? annot with
    | some param =>
      { param with stop := annot.stop, loc := { param.loc with stop := annot.loc.stop } }
    | none => node
  | _ => node

theorem one_le_sizeOf_part (part : Option Node) : 1 ≤ sizeOf part := by
  cases part <;> simp

/-- A target that takes over an annotation is no larger than the two together. -/
theorem sizeOf_form_withAnnot? {node annot param : Node}
    (placed : node.withAnnot? annot = some param) :
    sizeOf param.form ≤ sizeOf node.form + sizeOf annot := by
  rcases node with ⟨id, form, start, stop, loc, extra⟩
  unfold withAnnot? at placed
  cases form
  case identifier name former isOptional =>
    cases Option.some.inj placed
    have := one_le_sizeOf_part former
    simp
    omega
  case objectPattern properties former isOptional =>
    cases Option.some.inj placed
    have := one_le_sizeOf_part former
    simp
    omega
  case arrayPattern elements former isOptional =>
    cases Option.some.inj placed
    have := one_le_sizeOf_part former
    simp
    omega
  case restElement argument former isOptional =>
    cases Option.some.inj placed
    have := one_le_sizeOf_part former
    simp
    omega
  case objectExpression properties former =>
    cases Option.some.inj placed
    have := one_le_sizeOf_part former
    simp
    omega
  case arrayExpression elements former =>
    cases Option.some.inj placed
    have := one_le_sizeOf_part former
    simp
    omega
  case assignmentPattern left right former =>
    cases Option.some.inj placed
    have := one_le_sizeOf_part former
    simp
    omega
  case assignmentExpression operator left right former =>
    cases Option.some.inj placed
    have := one_le_sizeOf_part former
    simp
    omega
  all_goals simp at placed

/-- A cast becomes no larger when it becomes a parameter. -/
theorem sizeOf_form_uncast (node : Node) : sizeOf node.uncast.form ≤ sizeOf node.form := by
  unfold uncast
  split
  · next expression annot isItem same =>
      split
      · next param placed =>
          have bound := sizeOf_form_withAnnot? placed
          have below := expression.sizeOf_form_lt
          rw [same]
          simp
          omega
      · exact Nat.le_refl _
  · exact Nat.le_refl _

/-- A node from which a target may be made, given whether casts belong to the language. -/
def prepared (types : Bool) (node : Node) : Node := if types then node.uncast else node

/-- An item of a parenthesized list does not grow where its cast becomes an annotation. -/
theorem sizeOf_form_prepared (types : Bool) (node : Node) :
    sizeOf (node.prepared types).form ≤ sizeOf node.form := by
  unfold prepared
  split
  · exact node.sizeOf_form_uncast
  · exact Nat.le_refl _

end Node

namespace Grammar

/-- A cast of a type is extended to the annotated parameter that it may stand for. -/
def castToParameter (node : Node) : Parse Unit := do
  match node.form with
  | .typeCastExpression expression annot _ =>
    if (expression.withAnnot? annot).isNone then unexpectedAt annot.start
    attach expression.id expression.start annot.stop
  | _ => return

/-- A member of an object that is a method stands in no pattern. -/
def refuseMethod (property : Node) : Parse Unit := do
  match property.form with
  | .objectMethod kind _ _ _ _ key _ =>
    if kind == .getter || kind == .setter then raise key.start .accessorInPattern
    else raise key.start .methodInPattern
  | _ => return

/-- The target of a rest is a name, a member or a list of targets. -/
def checkRest (argument : Node) : Parse Unit := do
  match argument.form with
  | .identifier .. => return
  | .memberExpression .. => return
  | .arrayPattern .. => return
  | _ => unexpectedAt argument.start

mutual

/-- An expression becomes a target of an assignment, or of a binding. -/
def toTarget (isBinding : Bool) (node : Node) : Parse Node := do
  let types ← hasTypes
  if types then castToParameter node
  formToTarget isBinding (node.prepared types)
termination_by 2 * sizeOf node.form + 1
decreasing_by
  have := node.sizeOf_form_prepared types
  omega

/-- An expression that is no cast becomes a target. Its place and identity stay. -/
def formToTarget (isBinding : Bool) (node : Node) : Parse Node :=
  match _same : node.form with
  | .identifier .. => return node
  | .objectPattern .. => return node
  | .arrayPattern .. => return node
  | .assignmentPattern .. => return node
  | .objectExpression properties annot => do
    let properties ← propertiesToTargets isBinding properties
    return { node with form := .objectPattern properties annot false }
  | .objectProperty method shorthand computed decorators key value => do
    let value ← toTarget isBinding value
    return { node with form := .objectProperty method shorthand computed decorators key value }
  | .spreadProperty argument => return { node with form := .restProperty argument }
  | .arrayExpression elements annot => do
    let elements ← elementsToTargets isBinding elements
    return { node with form := .arrayPattern elements annot false }
  | .assignmentExpression operator left right annot =>
    if operator == "=" then return { node with form := .assignmentPattern left right annot }
    else raise left.stop .defaultOperator
  | .memberExpression .. =>
    if isBinding then raise node.start .assigningToValue else return node
  | _ => raise node.start .assigningToValue
termination_by 2 * sizeOf node.form
decreasing_by
  · rw [_same, Form.objectExpression.sizeOf_spec]
    omega
  · have := value.sizeOf_form_lt
    rw [_same, Form.objectProperty.sizeOf_spec]
    omega
  · rw [_same, Form.arrayExpression.sizeOf_spec]
    omega

/-- The properties of an object become those of a pattern. -/
def propertiesToTargets (isBinding : Bool) (properties : List Node) : Parse (List Node) :=
  match properties with
  | [] => return []
  | property :: rest => do
    refuseMethod property
    let target ← toTarget isBinding property
    return target :: (← propertiesToTargets isBinding rest)
termination_by 2 * sizeOf properties
decreasing_by
  · have := property.sizeOf_form_lt
    rw [List.cons.sizeOf_spec]
    omega
  · rw [List.cons.sizeOf_spec]
    omega

/-- The elements of a list, or parameters, become targets; a spread that is the last of them
becomes the rest, and does so before the others. -/
def elementsToTargets (isBinding : Bool) (elements : List (Option Node)) :
    Parse (List (Option Node)) := do
  let types ← hasTypes
  if types then (elements.filterMap id).forM castToParameter
  match _closes : elements.getLast? with
  | some (some last) =>
    match _same : (last.prepared types).form with
    | .spreadElement argument => do
      let argument ← toTarget isBinding argument
      checkRest argument
      slotsToTargets isBinding types
        (some { last.prepared types with form := .restElement argument none false }) elements
    | .restElement .. => slotsToTargets isBinding types (some (last.prepared types)) elements
    | _ => slotsToTargets isBinding types none elements
  | _ => slotsToTargets isBinding types none elements
termination_by 2 * sizeOf elements + 1
decreasing_by
  · have inside := List.sizeOf_lt_of_mem (List.mem_of_getLast? _closes)
    have form := last.sizeOf_form_lt
    have smaller := last.sizeOf_form_prepared types
    have below := argument.sizeOf_form_lt
    rw [_same] at smaller
    simp at inside smaller
    omega
  all_goals omega

/-- The slots of a list become targets, the last of them the given rest if there is one. -/
def slotsToTargets (isBinding types : Bool) (closing : Option Node)
    (elements : List (Option Node)) : Parse (List (Option Node)) :=
  match elements with
  | [] => return []
  | slot :: rest =>
    if rest.isEmpty && closing.isSome then return [closing]
    else
      match slot with
      | none => do
        return none :: (← slotsToTargets isBinding types closing rest)
      | some node => do
        let target ← formToTarget isBinding (node.prepared types)
        return some target :: (← slotsToTargets isBinding types closing rest)
termination_by 2 * sizeOf elements
decreasing_by
  · rw [List.cons.sizeOf_spec]
    omega
  · have := node.sizeOf_form_lt
    have := node.sizeOf_form_prepared types
    rw [List.cons.sizeOf_spec, Option.some.sizeOf_spec]
    omega
  · rw [List.cons.sizeOf_spec]
    omega

end

/-- The parameters of an arrow function, from the expressions in its parentheses. -/
def toParameters (expressions : List Node) : Parse (List Node) := do
  return (← elementsToTargets true (expressions.map some)).filterMap id

/-- What a check of targets goes by. A binding is stricter than an assignment. -/
structure TargetRule where
  strict : Bool
  types : Bool
  isBinding : Bool

/-- A problem and its offset. -/
structure Refusal where
  pos : Nat
  problem : Problem

/-- A name may be bound or assigned, and is none of the names bound before it if these
count; the result is the names with it. -/
def TargetRule.checkName (rule : TargetRule) (pos : Nat) (name : String)
    (names : Option (List String)) : Except Refusal (Option (List String)) :=
  if rule.strict && Word.isUnbindable name then
    .error ⟨pos, if rule.isBinding then .bindingInStrict name else .assigningInStrict name⟩
  else
    match names with
    | none => .ok none
    | some bound =>
      if bound.contains name then .error ⟨pos, .argumentNameClash⟩
      else .ok (some (name :: bound))

mutual

/-- A node may stand as a target, given the names bound before it if they count; the result
is the names with its own. -/
def TargetRule.check (rule : TargetRule) (node : Node) (names : Option (List String)) :
    Except Refusal (Option (List String)) :=
  match _same : node.form with
  | .identifier name _ _ => rule.checkName node.start name names
  | .memberExpression .. =>
    if rule.isBinding then .error ⟨node.start, .bindingMember⟩ else .ok names
  | .objectPattern properties _ _ => rule.checkProperties properties names
  | .arrayPattern elements _ _ => rule.checkElements elements names
  | .assignmentPattern left _ _ => rule.check left names
  | .restProperty argument => rule.check argument names
  | .restElement argument _ _ => rule.check argument names
  | .typeCastExpression .. =>
    if rule.types then .ok names
    else .error ⟨node.start, if rule.isBinding then .bindingValue else .assigningToValue⟩
  | _ => .error ⟨node.start, if rule.isBinding then .bindingValue else .assigningToValue⟩
termination_by sizeOf node
decreasing_by
  all_goals
    have := node.sizeOf_form_lt
    rw [_same] at this
    simp at this
    omega

/-- The properties of a pattern may stand as targets; one with a key is judged by its value. -/
def TargetRule.checkProperties (rule : TargetRule) (properties : List Node)
    (names : Option (List String)) : Except Refusal (Option (List String)) :=
  match properties with
  | [] => .ok names
  | property :: rest =>
    match _same : property.form with
    | .objectProperty _ _ _ _ _ value => do
      rule.checkProperties rest (← rule.check value names)
    | _ => do rule.checkProperties rest (← rule.check property names)
termination_by sizeOf properties
decreasing_by
  · have := property.sizeOf_form_lt
    rw [_same] at this
    simp at this ⊢
    omega
  all_goals
    simp only [List.cons.sizeOf_spec]
    omega

/-- The elements of a pattern may stand as targets; holes bind nothing. -/
def TargetRule.checkElements (rule : TargetRule) (elements : List (Option Node))
    (names : Option (List String)) : Except Refusal (Option (List String)) :=
  match elements with
  | [] => .ok names
  | none :: rest => rule.checkElements rest names
  | some element :: rest => do rule.checkElements rest (← rule.check element names)
termination_by sizeOf elements

end

/-- The targets in a list may stand there, given the names bound before them. -/
def TargetRule.checkAll (rule : TargetRule) (targets : List Node)
    (names : Option (List String)) : Except Refusal (Option (List String)) :=
  targets.foldlM (fun names target => rule.check target names) names

/-- A refusal ends the parse. -/
def orRaise {α : Type} : Except Refusal α → Parse α
  | .ok value => return value
  | .error refusal => raise refusal.pos refusal.problem

/-- What a check goes by at the current token. -/
def targetRule (isBinding : Bool) : Parse TargetRule := do
  return { strict := ← isStrict, types := ← hasTypes, isBinding }

/-- A node may be assigned to. -/
def checkAssigned (node : Node) : Parse Unit := do
  let _ ← orRaise ((← targetRule false).check node none)

/-- A node may bind the names in it. -/
def checkBound (node : Node) : Parse Unit := do
  let _ ← orRaise ((← targetRule true).check node none)

/-- A node may bind the names in it, and binds none of them twice. -/
def checkBoundOnce (node : Node) : Parse Unit := do
  let _ ← orRaise ((← targetRule true).check node (some []))

/-- An item of a list stands for itself and not for a parameter. -/
def checkReferenced (nodes : List Node) : Parse Unit := do
  if ← hasTypes then
    nodes.forM fun node => do
      match node.form with
      | .typeCastExpression _ _ true => raise node.start .unexpectedTypeCast
      | _ => return

end Grammar

end EcmaSyntax
