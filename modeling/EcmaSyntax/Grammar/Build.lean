import EcmaSyntax.Grammar.Attachment
import EcmaSyntax.Grammar.Token

namespace EcmaSyntax

namespace Grammar

/-- A node may start at the current token. -/
def mark : Parse Mark := do
  let lexer := (← get).lexer
  return ⟨lexer.start, lexer.startLoc⟩

/-- The identity of the next node. -/
def freshId : Parse NodeId := do
  let id := (← get).identities.next
  modify fun state => { state with identities := state.identities.advance }
  return id

/-- The form is a program that holds statements; the comments in it belong to them. -/
def leavesComments : Form → Bool
  | .program _ _ body => !body.isEmpty
  | _ => false

/-- A node ends at a given place. -/
def finishAt (mark : Mark) (form : Form) (stop : Nat) (stopLoc : Position) : Parse Node := do
  let id ← freshId
  if !leavesComments form then attach id mark.pos stop
  return { id, form, start := mark.pos, stop, loc := ⟨mark.loc, stopLoc⟩ }

/-- A node ends with the previous token. -/
def finish (mark : Mark) (form : Form) : Parse Node := do
  let lexer := (← get).lexer
  finishAt mark form lexer.lastStop lexer.lastStopLoc

/-- A finished node ends at another place. -/
def refinishAt (node : Node) (stop : Nat) (stopLoc : Position) : Parse Node := do
  attach node.id node.start stop
  return { node with stop, loc := { node.loc with stop := stopLoc } }

/-- A finished node ends with the previous token. -/
def refinish (node : Node) : Parse Node := do
  let lexer := (← get).lexer
  refinishAt node lexer.lastStop lexer.lastStopLoc

/-- A node is repeated under another identity, with the comments that belong to it. -/
def duplicate (node : Node) : Parse Node := do
  let id ← freshId
  modify fun state =>
    match state.attached? node.id with
    | some attached => state.setAttached id attached
    | none => state
  return { node with id }

/-- An identifier; a liberal one may also be a keyword. -/
def identifier (liberal : Bool) : Parse Node := do
  let mark ← mark
  let current ← kind
  let name ← valueText
  let name ←
    if current == .name then
      if !liberal && (← isStrict) && Word.isStrictReserved name then
        raise mark.pos (.reservedKeyword name)
      pure name
    else
      match current.keyword? with
      | some keyword => if liberal then pure keyword else unexpected
      | none => unexpected
  if !liberal && name == "await" && (← get).inAsync then raise mark.pos .awaitInAsync
  next
  finish mark (.identifier name none false)

/-- A literal keeps how it was written and the value it had there. -/
def literal (form : Form) (rawValue : Option RawValue) : Parse Node := do
  let mark ← mark
  let raw ← rawText
  next
  let node ← finish mark form
  return node.mapExtra fun extra => { extra with raw := some raw, rawValue := rawValue }

/-- A literal for the current token, a number. -/
def numberLiteral : Parse Node := do
  let value ← valueNumber
  literal (.numericLiteral value) (some (.number value))

/-- A literal for the current token, a string. -/
def stringLiteral : Parse Node := do
  let value ← valueText
  literal (.stringLiteral value) (some (.text value))

/-- A name, number or string that names a property. -/
def propertyLabel : Parse Node := do
  match ← kind with
  | .num => numberLiteral
  | .string => stringLiteral
  | _ => identifier true

end Grammar

end EcmaSyntax
