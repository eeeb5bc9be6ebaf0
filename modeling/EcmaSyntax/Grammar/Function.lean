import EcmaSyntax.Grammar.Block
import EcmaSyntax.Grammar.Pattern
import EcmaSyntax.Grammar.Target

namespace EcmaSyntax

namespace Grammar

/-- What is known of a function before its body. -/
structure FunctionHead where
  id : Option Node := none
  generator : Bool := false
  isAsync : Bool := false
  params : List Node := []
  typeParameters : Option Node := none
  returnType : Option Node := none

/-- A block that no label, and no function but the given one, reaches into. -/
def enclosed (rules : Rules) (inFunction inGenerator allowDirectives : Bool) : Parse Node := do
  let before ← get
  modify fun state =>
    { state with inFunction := inFunction, inGenerator := inGenerator, labels := [] }
  let body ← block rules allowDirectives
  modify fun state =>
    { state with
      inFunction := before.inFunction
      inGenerator := before.inGenerator
      labels := before.labels }
  return body

/-- The body of a function makes its own code strict. -/
def declaresStrict (body : Node) : Bool :=
  match body.form with
  | .blockStatement directives _ => directives.any isUseStrict
  | _ => false

/-- The name and parameters of a function may be bound; no parameter name occurs twice. -/
def checkHead (head : FunctionHead) (strict : Bool) : Parse Unit := do
  let rule : TargetRule := { strict, types := ← hasTypes, isBinding := true }
  match head.id with
  | some id =>
    let _ ← orRaise (rule.check id none)
  | none => pure ()
  let _ ← orRaise (rule.checkAll head.params (some []))

/-- The body of a function after its type: a block, or for an arrow also an expression. -/
def functionRest (rules : Rules) (head : FunctionHead) (isArrow : Bool) :
    Parse FunctionForm := do
  let isExpression := isArrow && !(← atKind .braceL)
  let wasAsync := (← get).inAsync
  modify fun state => { state with inAsync := head.isAsync }
  let body ←
    if isExpression then rules.assignment false
    else enclosed rules true head.generator true
  modify fun state => { state with inAsync := wasAsync }
  let useStrict := !isExpression && declaresStrict body
  if useStrict then
    match head.id with
    | some id => if id.isNamed "yield" then raise id.start .bindingYieldInStrict
    | none => pure ()
  let strict := (← isStrict) || useStrict
  if strict || isArrow then checkHead head strict
  return {
    id := head.id
    typeParameters := head.typeParameters
    params := head.params
    returnType := head.returnType
    body
    generator := head.generator
    isAsync := head.isAsync
    isExpression }

/-- The type of what a function returns, which an arrow does not have here, and its body. -/
def functionBody (rules : Rules) (head : FunctionHead) (isArrow : Bool) :
    Parse FunctionForm := do
  let head ←
    if isArrow then pure head
    else
      match ← typeAnnotation? rules with
      | some annot => pure { head with returnType := some annot }
      | none => pure head
  functionRest rules head isArrow

/-- The parameters and body of a method. -/
def method (rules : Rules) (head : FunctionHead) (kind : MethodKind) : Parse FunctionForm := do
  let before := (← get).inMethod
  modify fun state => { state with inMethod := some kind }
  let params ← parameters rules
  let function ← functionBody rules { head with params := params } false
  modify fun state => { state with inMethod := before }
  return function

/-- The parameters that a getter or setter has. -/
def hasAccessorArity (kind : MethodKind) (function : FunctionForm) : Bool :=
  function.params.length == if kind == .getter then 0 else 1

/-- The problem of a getter or setter with other parameters. -/
def arityProblem (kind : MethodKind) : Problem :=
  if kind == .getter then .getterArity else .setterArity

/-- A function after its first word. -/
def functionTail (rules : Rules) (mark : Mark) (isAsync isStatement optionalId : Bool) :
    Parse Node := do
  let before := (← get).inMethod
  modify fun state => { state with inMethod := none }
  let generator ← eat .star
  let hasName := (← atKind .name) || (← atKind .kwYield)
  if isStatement && !optionalId && !hasName then unexpected
  let id ← if hasName then some <$> identifier false else pure none
  let typeParameters ← genericHead? rules
  let params ← parameters rules
  let function ←
    functionBody rules { id, generator, isAsync, params, typeParameters } false
  modify fun state => { state with inMethod := before }
  finish mark
    (if isStatement then .functionDeclaration function else .functionExpression function)

/-- An arrow function after its arrow, given the expressions that are its parameters. -/
def arrowTail (rules : Rules) (mark : Mark) (expressions : List Node) (isAsync : Bool)
    (returnType : Option Node) : Parse Node := do
  let params ← toParameters expressions
  let function ← functionBody rules { isAsync, params, returnType } true
  finish mark (.arrowFunctionExpression function)

end Grammar

end EcmaSyntax
