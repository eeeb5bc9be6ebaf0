import EcmaSyntax.Grammar.Function

namespace EcmaSyntax

namespace Grammar

/-- A decorator. -/
def decorator (rules : Rules) : Parse Node := do
  let mark ← mark
  next
  let inner ← rules.assignment false
  finish mark (.decorator inner)

/-- Decorators that follow each other. -/
def decoratorList (rules : Rules) : Parse (List Node) :=
  loop [] fun decorators => do
    if ← atKind .at then return .more ((← decorator rules) :: decorators)
    else return .done decorators.reverse

/-- The key of a property; the second result tells that it is computed. -/
def propertyKey (rules : Rules) : Parse (Node × Bool) := do
  if ← eat .bracketL then
    let key ← rules.assignment false
    expect .bracketR
    return (key, true)
  else return (← propertyLabel, false)

/-- What is known of a property before its value. -/
structure PropertyHead where
  mark : Mark
  decorators : List Node
  key : Node
  computed : Bool
  generator : Bool
  isAsync : Bool

/-- The name of a key that is written as a plain identifier. -/
def PropertyHead.plainName? (head : PropertyHead) : Option String :=
  if head.computed then none else head.key.name?

/-- The kind of accessor that a word begins. -/
def accessorKind? : String → Option MethodKind
  | "get" => some .getter
  | "set" => some .setter
  | _ => none

/-- A property that is a method. -/
def methodProperty (rules : Rules) (head : PropertyHead) : Parse Node := do
  let function ←
    method rules { generator := head.generator, isAsync := head.isAsync } .plain
  finish head.mark
    (.objectMethod .plain true false head.computed head.decorators head.key function)

/-- A property that is a getter or setter, after the word that says so. -/
def accessorProperty (rules : Rules) (head : PropertyHead) (kind : MethodKind) :
    Parse Node := do
  let (key, computed) ← propertyKey rules
  let function ← method rules {} kind
  if !hasAccessorArity kind function then raise head.mark.pos (arityProblem kind)
  finish head.mark (.objectMethod kind false false computed head.decorators key function)

/-- The value of a property after its colon. -/
def valueProperty (rules : Rules) (head : PropertyHead) (isPattern : Bool) :
    Parse (Cover Node) := do
  let value ←
    if isPattern then pure { value := ← bindingElement rules } else rules.cover false
  return { value with
    value := ← finish head.mark
      (.objectProperty false false head.computed head.decorators head.key value.value) }

/-- A name may be bound as a property that stands for its own value. -/
def checkShorthand (key : Node) (name : String) : Parse Unit := do
  if (← lex (Lexer.isKeyword name)) || ((← isStrict) && Word.isUnbindable name) then
    raise key.start (.bindingWord name)

/-- A property that stands for its own value. A default value after it is pending unless it
stands in a pattern. -/
def shorthandProperty (rules : Rules) (head : PropertyHead) (name : String)
    (isPattern : Bool) : Parse (Cover Node) := do
  if isPattern then checkShorthand head.key name
  let start := (← get).lexer.start
  let pending := if !isPattern && (← atKind .eq) then some start else none
  let copy ← duplicate head.key
  let value ← withDefault rules head.mark copy
  let node ← finish head.mark
    (.objectProperty false true false head.decorators head.key value)
  return { value := node, pending }

/-- The rest of a property after its key, without the declaration of type parameters. -/
def plainPropertyTail (rules : Rules) (head : PropertyHead) (isPattern : Bool) :
    Parse (Cover Node) := do
  if head.generator || head.isAsync || (← atKind .parenL) then
    if isPattern then unexpected
    return { value := ← methodProperty rules head }
  if ← eat .colon then return ← valueProperty rules head isPattern
  match head.plainName? with
  | none => unexpected
  | some name =>
    match accessorKind? name with
    | some kind =>
      if (← atKind .comma) || (← atKind .braceR) then
        shorthandProperty rules head name isPattern
      else if isPattern then unexpected
      else return { value := ← accessorProperty rules head kind }
    | none => shorthandProperty rules head name isPattern

/-- A method carries the type parameters that were declared before it. -/
def withTypeParameters (property : Node) (typeParameters : Node) : Node :=
  match property.form with
  | .objectMethod kind method shorthand computed decorators key function =>
    { property with
      form := .objectMethod kind method shorthand computed decorators key
        { function with typeParameters := some typeParameters } }
  | _ => property

/-- The rest of a property after its key. -/
def propertyTail (rules : Rules) (head : PropertyHead) (isPattern : Bool) :
    Parse (Cover Node) := do
  match ← genericHead? rules with
  | some typeParameters => do
    if !(← atKind .parenL) then unexpected
    let property ← plainPropertyTail rules head isPattern
    return { property with value := withTypeParameters property.value typeParameters }
  | none => plainPropertyTail rules head isPattern

/-- A property of an object or pattern, after its decorators and the star of a generator. -/
def propertyRest (rules : Rules) (mark : Mark) (decorators : List Node)
    (isPattern generator : Bool) : Parse (Cover Node) := do
  if !isPattern && (← atWord "async") then
    if generator then unexpected
    let word ← identifier false
    match ← kind with
    | .colon | .parenL | .braceR | .comma | .eq =>
      propertyTail rules ⟨mark, decorators, word, false, false, false⟩ isPattern
    | _ => do
      let generator ← eat .star
      let (key, computed) ← propertyKey rules
      propertyTail rules ⟨mark, decorators, key, computed, generator, true⟩ isPattern
  else
    let (key, computed) ← propertyKey rules
    propertyTail rules ⟨mark, decorators, key, computed, generator, false⟩ isPattern

/-- A property of an object or pattern, after its decorators. -/
def property (rules : Rules) (mark : Mark) (decorators : List Node) (isPattern : Bool) :
    Parse (Cover Node) := do
  let generator ← if isPattern then pure false else eat .star
  propertyRest rules mark decorators isPattern generator

/-- The rest of an object, or of a pattern that looks like one. -/
def spreadProperty (rules : Rules) (mark : Mark) (isPattern : Bool) : Parse Node := do
  next
  let argument ← rules.assignment false
  finish mark (if isPattern then .restProperty argument else .spreadProperty argument)

/-- The property sets the parent of its object, which may be done once. -/
def setsProto (property : Node) : Option Nat :=
  match property.form with
  | .objectProperty _ false false _ key _ =>
    match key.form with
    | .identifier "__proto__" _ _ => some key.start
    | .stringLiteral "__proto__" => some key.start
    | _ => none
  | _ => none

/-- What has been read of an object, its properties backwards. -/
structure ObjectParts where
  properties : List Node := []
  pending : Option Nat := none
  /-- A property sets the parent of the object. -/
  hasProto : Bool := false

/-- The parent of an object is set only once. -/
def ObjectParts.checkProto (parts : ObjectParts) (proto : Option Nat) : Parse Unit := do
  match proto with
  | some pos => if parts.hasProto then raise pos .protoRedefined
  | none => pure ()

/-- One more property of an object is read. -/
def takeProperty (rules : Rules) (isPattern : Bool) (parts : ObjectParts) :
    Parse ObjectParts := do
  let decorators ← decoratorList rules
  let mark ← mark
  if ← atKind .ellipsis then
    let rest ← spreadProperty rules mark isPattern
    return { parts with properties := rest :: parts.properties }
  else
    let taken ← property rules mark decorators isPattern
    let proto := if isPattern then none else setsProto taken.value
    parts.checkProto proto
    return {
      properties := taken.value :: parts.properties
      pending := parts.pending <|> taken.pending
      hasProto := parts.hasProto || proto.isSome }

/-- An object, or a pattern that looks like one. -/
def object (rules : Rules) (isPattern : Bool) : Parse (Cover Node) := do
  let mark ← mark
  next
  let parts ← loop (true, ({} : ObjectParts)) fun (first, parts) => do
    if ← eat .braceR then return .done parts
    if !first then
      expect .comma
      if ← eat .braceR then return .done parts
    return .more (false, ← takeProperty rules isPattern parts)
  let properties := parts.properties.reverse
  let form :=
    if isPattern then .objectPattern properties none false else .objectExpression properties none
  return { value := ← finish mark form, pending := parts.pending }

/-- A name or a pattern that binds names. -/
def binding (rules : Rules) : Parse Node := do
  match ← kind with
  | .kwYield => if (← isStrict) || (← get).inGenerator then unexpected else identifier true
  | .name => identifier true
  | .bracketL => do
    let mark ← mark
    next
    let elements ← bindingList rules .bracketR true
    finish mark (.arrayPattern elements none false)
  | .braceL => do (← object rules true).settle
  | _ => unexpected

end Grammar

end EcmaSyntax
