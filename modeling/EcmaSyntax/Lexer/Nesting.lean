import EcmaSyntax.Lexer.State

namespace EcmaSyntax

namespace Lexer

/-- A construct opens. -/
def openContext (context : Context) (exprAllowed : Bool) : Scan Unit :=
  modify fun state =>
    { state with contexts := context :: state.contexts, exprAllowed := exprAllowed }

/-- Whether an expression may follow is set. -/
def allowExpr (allowed : Bool) : Scan Unit :=
  modify fun state => { state with exprAllowed := allowed }

/-- A brace after a token of the given kind opens a block, not an object. -/
def braceIsBlock (previous : Kind) : Scan Bool := do
  let state ← get
  let usual := !state.exprAllowed
  match previous with
  | .colon =>
    match state.context with
    | .braceStatement => return true
    | .braceExpression => return false
    | _ => return usual
  | .kwReturn => breaksBetween state.lastStop state.start
  | .kwElse => return true
  | .semi => return true
  | .eof => return true
  | .parenR => return true
  | .braceL => return state.context == .braceStatement
  | _ => return usual

/-- A brace or parenthesis closes the innermost construct, and with a block also the
function expression that it is the body of. -/
def closeContext : Scan Unit :=
  modify fun state =>
    match state.contexts with
    | [] => { state with exprAllowed := true }
    | [_] => { state with exprAllowed := true }
    | .braceStatement :: .functionExpression :: outer =>
      { state with contexts := outer, exprAllowed := false }
    | .braceTemplate :: outer => { state with contexts := outer, exprAllowed := true }
    | closed :: outer => { state with contexts := outer, exprAllowed := !closed.isExpression }

/-- The end of a tag closes the tag, and with a closing or empty tag also the element. -/
def closeTag (previous : Kind) : Scan Unit :=
  modify fun state =>
    let closed := state.contexts.head?
    let outer := state.contexts.drop 1
    if (closed == some .jsxOpenTag && previous == .slash) || closed == some .jsxCloseTag then
      let outer := outer.drop 1
      { state with
        contexts := outer
        exprAllowed := outer.headD .braceStatement == .jsxExpression }
    else { state with contexts := outer, exprAllowed := true }

/-- The open constructs after the current token, which a token of the given kind precedes. -/
def nestPlain (previous : Kind) : Scan Unit := do
  let state ← get
  if state.kind.isKeyword && previous == .dot then allowExpr false
  else
    match state.kind with
    | .parenR => closeContext
    | .braceR => closeContext
    | .name =>
      if previous == .kwLet || previous == .kwConst || previous == .kwVar then
        allowExpr (← breaksBetween state.stop (← source).size)
      else allowExpr false
    | .braceL =>
      let block ← braceIsBlock previous
      openContext (if block then .braceStatement else .braceExpression) true
    | .dollarBraceL => openContext .braceTemplate true
    | .parenL =>
      let head := previous == .kwIf || previous == .kwFor || previous == .kwWith ||
        previous == .kwWhile
      openContext (if head then .parenStatement else .parenExpression) true
    | .incDec => return
    | .kwFunction =>
      if state.context == .braceStatement then openContext .functionExpression false
      else allowExpr false
    | .backQuote =>
      if state.context == .quoteTemplate then
        modify fun state =>
          { state with contexts := state.contexts.drop 1, exprAllowed := false }
      else openContext .quoteTemplate false
    | .jsxTagStart => do
      openContext .jsxExpression false
      openContext .jsxOpenTag false
    | .jsxTagEnd => closeTag previous
    | kind => allowExpr kind.beforeExpr

/-- A brace within a tag holds an expression, and one between tags a substitution. A slash
after the start of a tag makes it a closing tag. -/
def nestMarkup (previous : Kind) : Scan Unit := do
  let state ← get
  if state.kind == .braceL then
    match state.context with
    | .jsxOpenTag => openContext .braceExpression true
    | .jsxExpression => openContext .braceTemplate true
    | _ => do
      nestPlain previous
      allowExpr true
  else if state.kind == .slash && previous == .jsxTagStart then
    modify fun state =>
      { state with contexts := .jsxCloseTag :: state.contexts.drop 2, exprAllowed := false }
  else nestPlain previous

/-- The open constructs follow the current token. -/
def nest (previous : Kind) : Scan Unit := do
  if (← read).jsx then nestMarkup previous else nestPlain previous

/-- The current token ends at the cursor. -/
def finishToken (kind : Kind) (value : Value) : Scan Unit := do
  let stopLoc ← position
  let previous := (← get).kind
  modify fun state =>
    { state with stop := state.pos, stopLoc := stopLoc, kind := kind, value := value }
  nest previous

/-- The current token is a mark of so many bytes. -/
def finishMark (kind : Kind) (length : Nat) : Scan Unit := do
  advance length
  finishToken kind .none

/-- The current token is an operator of so many bytes, and its value is its text. -/
def finishOperator (kind : Kind) (length : Nat) : Scan Unit := do
  let start := (← get).pos
  let text ← slice start (start + length)
  moveTo (start + length)
  finishToken kind (.text (String.ofList text))

end Lexer

end EcmaSyntax
