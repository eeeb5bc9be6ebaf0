import EcmaSyntax.Grammar.Rules

namespace EcmaSyntax

namespace Grammar

/-- A jump may leave by a label: one of the name that it gives, if it gives one. To go on
with a turn it has to be a loop, and without a name a loop or switch. -/
def Label.allows (label : Label) (isBreak : Bool) (name : Option String) : Bool :=
  if name.isSome && label.name != name then false
  else
    (label.target.isSome && (isBreak || label.target == some .loop)) ||
      (name.isSome && isBreak)

/-- A statement within a loop or switch is parsed. -/
def labeled {α : Type} (label : Label) (action : Parse α) : Parse α := do
  modify fun state => { state with labels := label :: state.labels }
  let value ← action
  modify fun state => { state with labels := state.labels.drop 1 }
  return value

/-- A statement within a loop is parsed. -/
def withinLoop {α : Type} (action : Parse α) : Parse α :=
  labeled ⟨none, some .loop, none⟩ action

/-- A jump out of a loop or switch, or to its next turn. -/
def jumpStatement (mark : Mark) (isBreak : Bool) : Parse Node := do
  next
  let label ←
    if ← endsStatement then pure none
    else if ← atKind .name then
      let label ← identifier false
      endStatement
      pure (some label)
    else unexpected
  let name := label.bind Node.name?
  if !(← get).labels.any fun known => known.allows isBreak name then
    raise mark.pos (.jumpWithoutTarget (if isBreak then "break" else "continue"))
  finish mark (if isBreak then .breakStatement label else .continueStatement label)

/-- What the current token makes of a label before it. -/
def labelTarget : Parse (Option LabelTarget) := do
  let kind ← kind
  if kind.isLoop then return some .loop
  else if kind == .kwSwitch then return some .switch
  else return none

/-- Labels that stand directly before another one at an offset take over its target. -/
def retarget (pos start : Nat) (target : Option LabelTarget) : List Label → List Label
  | [] => []
  | label :: outer =>
    if label.start == some pos then
      { label with start := some start, target := target } :: retarget pos start target outer
    else label :: outer

/-- A statement after a label, which no label around it repeats. -/
def labeledStatement (rules : Rules) (mark : Mark) (name : String) (id : Node) :
    Parse Node := do
  if (← get).labels.any fun known => known.name == some name then
    raise id.start (.labelDeclared name)
  let target ← labelTarget
  let start := (← get).lexer.start
  modify fun state => { state with labels := retarget mark.pos start target state.labels }
  let body ← labeled ⟨some name, target, some start⟩ (rules.statement true false)
  finish mark (.labeledStatement id body)

end Grammar

end EcmaSyntax
