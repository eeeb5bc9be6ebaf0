import EcmaSyntax.Grammar.Expression.Access
import EcmaSyntax.Grammar.Expression.Object
import EcmaSyntax.Grammar.Type.Declaration

namespace EcmaSyntax

namespace Grammar

/-- The decorators that wait for their class, which has come. -/
def takeDecorators : Parse (List Node) := do
  let decorators := (← get).decorators
  modify fun state => { state with decorators := [] }
  return decorators

/-- Decorators that wait for their class, which has to follow them, maybe after the word for
an export. -/
def leadingDecorators (rules : Rules) (allowExport : Bool) : Parse Unit := do
  loop () fun _ => do
    if ← atKind .at then
      let taken ← decorator rules
      modify fun state => { state with decorators := state.decorators ++ [taken] }
      return .more ()
    else return .done ()
  if allowExport && (← atKind .kwExport) then return
  if !(← atKind .kwClass) then raise (← get).lexer.start .leadingDecorators

/-- A member of a class before its value. -/
structure MemberHead where
  mark : Mark
  decorators : List Node
  key : Node
  computed : Bool
  isStatic : Bool
  generator : Bool := false
  isAsync : Bool := false
  kind : MethodKind := .plain

/-- The name of a key that is written as a plain identifier. -/
def MemberHead.plainName? (head : MemberHead) : Option String :=
  if head.computed then none else head.key.name?

/-- The key of a member is a given name, as an identifier or a string. -/
def MemberHead.isKeyed (head : MemberHead) (name : String) : Bool :=
  match head.key.form with
  | .identifier word _ _ => word == name
  | .stringLiteral word => word == name
  | _ => false

/-- The key of a member ends it as a property. -/
def isProperty : Parse Bool := do
  return ((← hasTypes) && (← atKind .colon)) || (← atKind .eq) || (← atKind .semi) ||
    (← mayEndStatement)

/-- A property of a class after its key. -/
def classProperty (rules : Rules) (head : MemberHead) : Parse Node := do
  let annot ← typeAnnotation? rules
  let value ← if ← eat .eq then some <$> rules.assignment false else pure none
  endStatement
  finish head.mark
    (.classProperty head.computed head.isStatic head.decorators head.key annot value)

/-- The member is a getter or setter. -/
def MemberHead.isAccessor (head : MemberHead) : Bool :=
  head.kind == .getter || head.kind == .setter

/-- The member makes the objects of its class, when the class is constructed or called. -/
def MemberHead.isConstructor (head : MemberHead) : Bool :=
  head.kind == .constructing || head.kind == .calling

/-- A method of a class after its key. -/
def classMethod (rules : Rules) (head : MemberHead) : Parse Node := do
  let typeParameters ← genericHead? rules
  let function ← method rules
    { generator := head.generator, isAsync := head.isAsync, typeParameters } head.kind
  if head.isAccessor && !hasAccessorArity head.kind function then
    raise head.mark.pos (arityProblem head.kind)
  finish head.mark
    (.classMethod head.kind head.computed head.isStatic head.decorators head.key function)

/-- The key that comes next is the key of the member. -/
def MemberHead.withNextKey (rules : Rules) (head : MemberHead) : Parse MemberHead := do
  let (key, computed) ← propertyKey rules
  return { head with key, computed }

/-- A member up to its first key, after the mark that it belongs to the class itself. -/
def memberStart (rules : Rules) (mark : Mark) (decorators : List Node) : Parse MemberHead := do
  let maybeStatic ← atWord "static"
  let generator ← eat .star
  let (key, computed) ← propertyKey rules
  let head : MemberHead := { mark, decorators, key, computed, isStatic := false, generator }
  if maybeStatic && !(← atKind .parenL) then
    if generator then unexpected
    let generator ← eat .star
    MemberHead.withNextKey rules { head with isStatic := true, generator }
  else return head

/-- The word for an asynchronous method is passed, unless it is the key itself. -/
def passAsync (rules : Rules) (head : MemberHead) : Parse MemberHead := do
  if head.plainName? == some "async" && !(← atKind .parenL) then
    let star ← eat .star
    MemberHead.withNextKey rules
      { head with generator := head.generator || star, isAsync := true }
  else return head

/-- The word for a getter or setter is passed, unless it is the key itself. -/
def passAccessor (rules : Rules) (head : MemberHead) : Parse MemberHead := do
  match head.plainName?.bind accessorKind? with
  | some kind =>
    if !head.isAsync && !head.generator && !(← atKind .parenL) then
      MemberHead.withNextKey rules { head with kind }
    else return head
  | none => return head

/-- What has been read of the members of a class, backwards, and the decorators that wait
for the next of them. -/
structure ClassParts where
  members : List Node := []
  decorators : List Node := []
  hasConstructor : Bool := false
  hasCall : Bool := false

/-- A constructor is a plain method, and the only one of its class. -/
def checkConstructor (head : MemberHead) (parts : ClassParts) : Parse Unit := do
  let pos := head.key.start
  if parts.hasConstructor then raise pos .duplicateConstructor
  if head.isAccessor then raise pos .constructorAccessor
  if head.generator then raise pos .constructorGenerator
  if head.isAsync then raise pos .constructorAsync

/-- Some keys have a meaning: one makes the member the constructor, and one may not name a
member of the class itself. -/
def judgeKey (head : MemberHead) (isCall : Bool) (parts : ClassParts) : Parse MemberHead := do
  if !isCall && !head.isStatic && head.isKeyed "constructor" then
    checkConstructor head parts
    return { head with kind := .constructing }
  else
    if head.isStatic && head.isKeyed "prototype" then raise head.key.start .staticPrototype
    return head

/-- A member of a class, with the decorators before it. -/
def takeMember (rules : Rules) (parts : ClassParts) : Parse ClassParts := do
  let mark ← mark
  let head ← memberStart rules mark parts.decorators
  let parts := { parts with decorators := [] }
  let isNamed := !head.generator && head.plainName?.isSome
  if isNamed && (← isProperty) then
    let property ← classProperty rules head
    return { parts with members := property :: parts.members }
  let isCall := isNamed && head.plainName? == some "call" && (← atWord "constructor")
  let head ← if isCall then head.withNextKey rules else pure head
  let head ← passAsync rules head
  let head ←
    if head.computed then pure head
    else judgeKey (← passAccessor rules head) isCall parts
  if isCall && parts.hasCall then raise mark.pos .duplicateConstructorCall
  let head := if isCall then { head with kind := .calling } else head
  if head.isConstructor && !head.decorators.isEmpty then raise mark.pos .decoratedConstructor
  let method ← classMethod rules head
  return {
    members := method :: parts.members
    hasConstructor := parts.hasConstructor || head.kind == .constructing
    hasCall := parts.hasCall || isCall }

/-- The members of a class in braces. -/
def classMembers (rules : Rules) : Parse Node := do
  let mark ← mark
  expect .braceL
  let parts ← loop ({} : ClassParts) fun parts => do
    if ← eat .braceR then return .done parts
    if ← eat .semi then return .more parts
    if ← atKind .at then
      let taken ← decorator rules
      return .more { parts with decorators := parts.decorators ++ [taken] }
    return .more (← takeMember rules parts)
  if !parts.decorators.isEmpty then raise (← get).lexer.start .trailingMethodDecorators
  finish mark (.classBody parts.members.reverse)

/-- The body of a class, which is strict code. -/
def classBody (rules : Rules) : Parse Node := do
  let before ← isStrict
  modify fun state => { state with lexer := { state.lexer with strict := true } }
  let body ← classMembers rules
  modify fun state => { state with lexer := { state.lexer with strict := before } }
  return body

/-- The interfaces that a class implements, if it says so. -/
def implementedInterfaces? (rules : Rules) : Parse (Option (List Node)) := do
  if ← hasTypes then
    if ← eatWord "implements" then
      return some (← commaSeparated (typeReference rules .classImplements))
  return none

/-- The name of a class, which may be left out where a class is an expression. -/
def className? (isStatement optionalId : Bool) : Parse (Option Node) := do
  if ← atKind .name then return some (← identifier false)
  else if isStatement && !optionalId then unexpected
  else return none

/-- A class. -/
def classTail (rules : Rules) (mark : Mark) (decorators : List Node)
    (isStatement optionalId : Bool) : Parse Node := do
  next
  let id ← className? isStatement optionalId
  let typeParameters ← genericHead? rules
  let superClass ←
    if ← eat .kwExtends then some <$> (do (← accessChain rules).settle) else pure none
  let superTypeParameters ←
    if (← hasTypes) && superClass.isSome then typeArguments? rules else pure none
  let implemented ← implementedInterfaces? rules
  let body ← classBody rules
  let heading : ClassForm :=
    { decorators, id, typeParameters, superClass, superTypeParameters, implemented, body }
  finish mark (if isStatement then .classDeclaration heading else .classExpression heading)

end Grammar

end EcmaSyntax
