import EcmaSyntax.Grammar.Target
import EcmaSyntax.Grammar.Type.Annotation

namespace EcmaSyntax

namespace Grammar

/-- An expression, with commas, that may still be read as a pattern. -/
def coverExpression (rules : Rules) (noIn : Bool) : Parse (Cover Node) := do
  let mark ← mark
  let first ← rules.cover noIn
  if ← atKind .comma then
    let (items, pending) ← loop ([first.value], first.pending) fun (items, pending) => do
      if ← eat .comma then
        let item ← rules.cover noIn
        return .more (item.value :: items, pending <|> item.pending)
      else return .done (items.reverse, pending)
    checkReferenced items
    return { value := ← finish mark (.sequenceExpression items), pending }
  else return first

/-- An expression, with commas. -/
def expression (rules : Rules) (noIn : Bool) : Parse Node := do
  let mark ← mark
  let first ← rules.assignment noIn
  if ← atKind .comma then
    let items ← loop [first] fun items => do
      if ← eat .comma then return .more ((← rules.assignment noIn) :: items)
      else return .done items.reverse
    checkReferenced items
    finish mark (.sequenceExpression items)
  else return first

/-- An expression in parentheses that belong to a statement. -/
def parenExpression (rules : Rules) : Parse Node := do
  expect .parenL
  let inner ← expression rules false
  expect .parenR
  return inner

/-- A spread of a list. -/
def spread (rules : Rules) : Parse (Cover Node) := do
  let mark ← mark
  next
  let argument ← rules.cover false
  return { argument with value := ← finish mark (.spreadElement argument.value) }

/-- An item of a list without its type. -/
def plainListItem (rules : Rules) (allowHole : Bool) : Parse (Cover (Option Node)) := do
  if allowHole && (← atKind .comma) then return { value := none }
  let item ← if ← atKind .ellipsis then spread rules else rules.cover false
  return { value := some item.value, pending := item.pending }

/-- An item of a list; a colon and a type after it make it a cast. -/
def listItem (rules : Rules) (allowHole : Bool) : Parse (Cover (Option Node)) := do
  let mark ← mark
  let item ← plainListItem rules allowHole
  if (← hasTypes) && (← atKind .colon) then
    match item.value with
    | none => unexpected
    | some inner => do
      let annot ← typeAnnotation rules
      let cast ← finish mark (.typeCastExpression inner annot true)
      return { item with value := some cast }
  else return item

/-- Items up to a closing token. -/
def listItems (rules : Rules) (close : Kind) (allowHoles : Bool) :
    Parse (Cover (List (Option Node))) := do
  let (items, pending) ← loop (true, [], none) fun (first, items, pending) => do
    if ← eat close then return .done (items.reverse, pending)
    if !first then
      expect .comma
      if ← eat close then return .done (items.reverse, pending)
    let item ← listItem rules allowHoles
    return .more (false, item.value :: items, pending <|> item.pending)
  return { value := items, pending }

/-- A list in brackets. -/
def arrayLiteral (rules : Rules) : Parse (Cover Node) := do
  let mark ← mark
  next
  let items ← listItems rules .bracketR true
  checkReferenced (items.value.filterMap id)
  return { value := ← finish mark (.arrayExpression items.value none), pending := items.pending }

/-- The operands of a construction, up to a parenthesis. -/
def plainArguments (rules : Rules) : Parse (List Node) := do
  let items ← (← listItems rules .parenR false).settle
  let nodes := items.filterMap id
  checkReferenced nodes
  return nodes

/-- A chunk of a template, in which one line terminator stands for another; the result also
tells if it is the last chunk. -/
def templateChunk : Parse (Node × Bool) := do
  let mark ← mark
  let raw ← rawText
  let cooked ← valueText
  next
  let last ← atKind .backQuote
  let chunk ← finish mark (.templateElement (raw.map LineEnding.feed) cooked last)
  return (chunk, last)

/-- A template: chunks with an expression between each two. -/
def template (rules : Rules) : Parse Node := do
  let mark ← mark
  next
  let first ← templateChunk
  let (quasis, expressions) ←
    loop ([first.1], [], first.2) fun (quasis, expressions, last) => do
      if last then return .done (quasis.reverse, expressions.reverse)
      expect .dollarBraceL
      let inner ← expression rules false
      expect .braceR
      let (chunk, last) ← templateChunk
      return .more (chunk :: quasis, inner :: expressions, last)
  next
  finish mark (.templateLiteral quasis expressions)

end Grammar

end EcmaSyntax
