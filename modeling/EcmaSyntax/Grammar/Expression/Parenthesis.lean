import EcmaSyntax.Grammar.Expression.Operator

namespace EcmaSyntax

namespace Grammar

/-- What stands between two parentheses, and the offsets of what only parameters may have:
a default of a shorthand property, a comma at the end, and a rest. -/
structure ParenParts where
  items : List Node := []
  pending : Option Nat := none
  comma : Option Nat := none
  rest : Option Nat := none

/-- The items between two parentheses, up to the closing one. -/
def parenParts (rules : Rules) : Parse ParenParts := do
  let parts ← loop (true, ({} : ParenParts)) fun (first, parts) => do
    if ← atKind .parenR then return .done parts
    if !first then
      expect .comma
      if ← atKind .parenR then
        return .done { parts with comma := some (← get).lexer.start }
    if ← atKind .ellipsis then
      let mark ← mark
      let rest ← parenItem rules (← restElement) mark
      return .done { parts with items := rest :: parts.items, rest := some mark.pos }
    let item ← rules (.assignment false true)
    return .more (false, { parts with
      items := item.value :: parts.items, pending := parts.pending <|> item.pending })
  return { parts with items := parts.items.reverse }

/-- No parameter of an arrow function is in parentheses of its own. -/
def checkBareParameters (params : List Node) : Parse Unit := do
  match params.find? Node.isParenthesized with
  | some param =>
    match param.extra.bind fun extra => extra.parenStart with
    | some pos => unexpectedAt pos
    | none => unexpected
  | none => return

/-- What stands between two parentheses is an expression. -/
def checkGrouped (parts : ParenParts) : Parse Unit := do
  if parts.items.isEmpty then unexpectedAt (← get).lexer.lastStart
  match parts.comma <|> parts.rest <|> parts.pending with
  | some pos => unexpectedAt pos
  | none => return

/-- The items between two parentheses as one expression, which starts and ends with them. -/
def groupedExpression (items : List Node) (start stop : Mark) : Parse Node := do
  match items with
  | [] => unexpected
  | [single] => return single
  | _ => do
    checkReferenced items
    finishAt start (.sequenceExpression items) stop.pos stop.loc

/-- An expression in parentheses, or an arrow function if one may start here. -/
def plainParentheses (rules : Rules) (start : Mark) (maybeArrow : Bool) : Parse Node := do
  next
  let innerStart ← mark
  let parts ← parenParts rules
  let innerStop ← mark
  expect .parenR
  let isArrow ← if maybeArrow && !(← mayEndStatement) then eat .arrow else pure false
  if isArrow then
    checkBareParameters parts.items
    arrowTail rules start parts.items false none
  else
    checkGrouped parts
    let inner ← groupedExpression parts.items innerStart innerStop
    return inner.mapExtra fun extra =>
      { extra with parenthesized := true, parenStart := some start.pos }

/-- An arrow function whose parameters stand in an expression that has been read, from the
type of its result on. -/
def annotatedArrow (rules : Rules) (node : Node) (start : Mark) : Parse Node := do
  let annot ← typeAnnotation rules
  expect .arrow
  let params :=
    match node.form with
    | .sequenceExpression expressions => expressions
    | _ => [node]
  arrowTail rules start params false (some annot)

/-- The next token closes a parenthesis. -/
def closesNext : Parse Bool := do
  let ahead ← lex Lexer.lookahead
  return ahead.kind == .parenR

/-- An arrow function without parameters. -/
def emptyArrow (rules : Rules) (start : Mark) : Parse Node := do
  next
  expect .parenR
  let returnType ← typeAnnotation? rules
  expect .arrow
  arrowTail rules start [] false returnType

/-- An expression in parentheses, or an arrow function. An expression with a type after it
may turn out to be the parameters of a function that returns this type. -/
def typedParentheses (rules : Rules) (start : Mark) (maybeArrow : Bool) : Parse Node := do
  let empty ← if maybeArrow then closesNext else pure false
  if empty then emptyArrow rules start
  else
    let node ← plainParentheses rules start maybeArrow
    if ← atKind .colon then
      let candidate ← duplicate node
      match ← attempt (annotatedArrow rules candidate start) with
      | some arrow => return arrow
      | none => return node
    else return node

/-- An expression in parentheses, or an arrow function. -/
def parentheses (rules : Rules) (start : Mark) (maybeArrow : Bool) : Parse Node := do
  if ← hasTypes then typedParentheses rules start maybeArrow
  else plainParentheses rules start maybeArrow

end Grammar

end EcmaSyntax
