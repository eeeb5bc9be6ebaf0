import EcmaSyntax.Grammar.Statement.Variable

namespace EcmaSyntax

namespace Grammar

/-- A loop that runs at least once. -/
def doWhileStatement (rules : Rules) (mark : Mark) : Parse Node := do
  next
  let body ← withinLoop (rules.statement false false)
  expect .kwWhile
  let test ← parenExpression rules
  let _ ← eat .semi
  finish mark (.doWhileStatement body test)

/-- A loop with its test before it. -/
def whileStatement (rules : Rules) (mark : Mark) : Parse Node := do
  next
  let test ← parenExpression rules
  let body ← withinLoop (rules.statement false false)
  finish mark (.whileStatement test body)

/-- A choice between two statements. -/
def ifStatement (rules : Rules) (mark : Mark) : Parse Node := do
  next
  let test ← parenExpression rules
  let consequent ← rules.statement false false
  let alternate ← if ← eat .kwElse then some <$> rules.statement false false else pure none
  finish mark (.ifStatement test consequent alternate)

/-- A return, maybe with a value on the same line. -/
def returnStatement (rules : Rules) (mark : Mark) : Parse Node := do
  if !(← get).inFunction && !(← read).options.allowReturn then
    raise mark.pos .returnOutsideFunction
  next
  if ← endsStatement then finish mark (.returnStatement none)
  else
    let argument ← expression rules false
    endStatement
    finish mark (.returnStatement (some argument))

/-- A throw and its value, which has to stand on the same line. -/
def throwStatement (rules : Rules) (mark : Mark) : Parse Node := do
  next
  if ← onNewLine then raise (← get).lexer.lastStop .newlineAfterThrow
  let argument ← expression rules false
  endStatement
  finish mark (.throwStatement argument)

/-- A case of a switch, its statements backwards. -/
structure CaseParts where
  mark : Mark
  test : Option Node
  consequent : List Node := []

/-- A case is finished. -/
def finishCase (parts : CaseParts) : Parse Node :=
  finish parts.mark (.switchCase parts.test parts.consequent.reverse)

/-- What has been read of a switch: its finished cases backwards, and the open one. -/
structure SwitchParts where
  cases : List Node := []
  current : Option CaseParts := none
  hasDefault : Bool := false

/-- The open case is finished, if there is one. -/
def closeCase (parts : SwitchParts) : Parse SwitchParts := do
  match parts.current with
  | some current => return { parts with
      cases := (← finishCase current) :: parts.cases, current := none }
  | none => return parts

/-- A case begins. -/
def openCase (rules : Rules) (parts : SwitchParts) : Parse SwitchParts := do
  let parts ← closeCase parts
  let mark ← mark
  let isCase ← atKind .kwCase
  next
  let test ← if isCase then some <$> expression rules false else pure none
  if !isCase && parts.hasDefault then raise (← get).lexer.lastStart .multipleDefaults
  expect .colon
  return { parts with
    current := some { mark, test }, hasDefault := parts.hasDefault || !isCase }

/-- The cases of a switch in braces. -/
def switchCases (rules : Rules) : Parse (List Node) := do
  let parts ← loop ({} : SwitchParts) fun parts => do
    match ← kind with
    | .braceR => return .done (← closeCase parts)
    | .kwCase | .kwDefault => return .more (← openCase rules parts)
    | _ =>
      match parts.current with
      | some current => do
        let statement ← rules.statement true false
        let current := { current with consequent := statement :: current.consequent }
        return .more { parts with current := some current }
      | none => unexpected
  next
  return parts.cases.reverse

/-- A choice between cases. -/
def switchStatement (rules : Rules) (mark : Mark) : Parse Node := do
  next
  let discriminant ← parenExpression rules
  expect .braceL
  let cases ← labeled ⟨none, some .switch, none⟩ (switchCases rules)
  finish mark (.switchStatement discriminant cases)

/-- What is done with an error, if something is. -/
def catchClause? (rules : Rules) : Parse (Option Node) := do
  if ← atKind .kwCatch then
    let mark ← mark
    next
    expect .parenL
    let param ← rules.binding
    checkBoundOnce param
    expect .parenR
    let body ← block rules false
    return some (← finish mark (.catchClause param body))
  else return none

/-- A block with what is done with its errors, and what is done after it. -/
def tryStatement (rules : Rules) (mark : Mark) : Parse Node := do
  next
  let body ← block rules false
  let handler ← catchClause? rules
  let finalizer ← if ← eat .kwFinally then some <$> block rules false else pure none
  if handler.isNone && finalizer.isNone then raise mark.pos .missingCatchOrFinally
  finish mark (.tryStatement body handler [] finalizer)

/-- A statement in which the members of an object are names. -/
def withStatement (rules : Rules) (mark : Mark) : Parse Node := do
  if ← isStrict then raise mark.pos .withInStrict
  next
  let object ← parenExpression rules
  let body ← rules.statement false false
  finish mark (.withStatement object body)

end Grammar

end EcmaSyntax
