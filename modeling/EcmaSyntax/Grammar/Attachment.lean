import EcmaSyntax.Grammar.State

namespace EcmaSyntax

namespace Grammar

namespace State

/-- The comments after a node that has just been finished: those read since, or those of the
node that was finished before it. What was read since is then used up. -/
def takeTrailing (stop : Nat) (state : State) :
    Except Fault (Option (List Comment) × State) :=
  match state.lexer.trailing with
  | first :: rest =>
    let emptied := { state with lexer := { state.lexer with trailing := [] } }
    .ok (if stop ≤ first.start then some (first :: rest) else none, emptied)
  | [] =>
    match state.finished.head? with
    | none => .ok (none, state)
    | some last =>
      match state.attached? last.id with
      | none => .ok (none, state)
      | some attached =>
        match attached.trailing with
        | none => .ok (none, state)
        | some [] => .error .emptyAttachment
        | some (first :: rest) =>
          if stop ≤ first.start then
            .ok (some (first :: rest),
              state.setAttached last.id { attached with trailing := none })
          else .ok (none, state)

/-- The finished nodes within a node that starts at an offset are dropped; the outermost and
first of them is the result. -/
def dropWithin (start : Nat) (state : State) : Option Finished × State :=
  let within (node : Finished) : Bool := start ≤ node.start
  ((state.finished.takeWhile within).getLast?,
    { state with finished := state.finished.dropWhile within })

/-- The number of comments, the last one not among them, up to and with the last one that
ends before an offset. -/
def countBefore (start : Nat) (comments : List Comment) : Nat :=
  let ending := comments.dropLast.reverse.dropWhile fun comment => start < comment.stop
  ending.length

/-- A list is split at an index, which is within it. -/
def splitWithin {α : Type} (count : Nat) (items : List α) : Except Fault (List α × List α) :=
  if count ≤ items.length then .ok (items.take count, items.drop count)
  else .error (.split count)

/-- The comments before a node of which a part has been finished first are those before the
part, as far as they end before the node. -/
def takeFromPart (id : NodeId) (start : Nat) (part : Finished) (state : State) :
    Except Fault (Option (List Comment) × State) :=
  match state.attached? part.id with
  | none => .ok (none, state)
  | some attached =>
    match attached.leading with
    | none => .ok (none, state)
    | some comments =>
      if part.id != id && comments.getLast?.any fun comment => comment.stop ≤ start then
        .ok (some comments, state.setAttached part.id { attached with leading := none })
      else do
        let count := countBefore start comments
        let (before, kept) ← splitWithin count comments
        return (if count = 0 then none else some before,
          state.setAttached part.id { attached with leading := some kept })

/-- The comments before and within a node that has no finished part are those read so far,
as they end before its start or not; what ends before it is used up if nothing else was read.
The second result is for comments within. -/
def takeRead (start : Nat) (state : State) :
    Except Fault (Option (List Comment) × Option (List Comment) × State) :=
  let comments := state.lexer.leading
  match comments.getLast? with
  | none => .ok (none, none, state)
  | some last =>
    if last.stop ≤ start then
      .ok (some comments, none, { state with lexer := { state.lexer with leading := [] } })
    else do
      let count := (comments.findIdx? fun comment => start < comment.stop).getD 0
      let (before, within) ← splitWithin count comments
      return (if 0 < count then some before else none, some within, state)

/-- The comments found for a node become its own. -/
def giveComments (id : NodeId) (start stop : Nat) (leading trailing : Option (List Comment))
    (state : State) : Except Fault State :=
  let attached := (state.attached? id).getD {}
  let led := if leading.isSome then { attached with leading := leading } else attached
  match trailing with
  | none =>
    if leading.isNone then .ok state else .ok (state.setAttached id led)
  | some [] => .error .emptyAttachment
  | some (first :: rest) =>
    let comments := first :: rest
    let enclosed :=
      start ≤ first.start && comments.getLast?.any fun comment => comment.stop ≤ stop
    .ok (state.setAttached id
      (if enclosed then { led with inner := some comments }
        else { led with trailing := some comments }))

/-- A node is finished, and the comments around it are given to it. -/
def attach (id : NodeId) (start stop : Nat) (state : State) : Except Fault State := do
  let (trailing, state) ← state.takeTrailing stop
  let (part, state) := state.dropWithin start
  let (leading, trailing, state) ←
    match part with
    | some part => do
      let (leading, state) ← state.takeFromPart id start part
      pure (leading, trailing, state)
    | none => do
      let (leading, within, state) ← state.takeRead start
      pure (leading, within <|> trailing, state)
  giveComments id start stop leading trailing
    { state with finished := ⟨id, start, stop⟩ :: state.finished }

end State

/-- A node is finished, and the comments around it are given to it. -/
def attach (id : NodeId) (start stop : Nat) : Parse Unit := fun _ state =>
  match state.attach id start stop with
  | .ok after => .ok () after
  | .error reason => .error (.fault reason) state

end Grammar

end EcmaSyntax
