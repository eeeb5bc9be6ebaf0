import EcmaSyntax.Lexer.State

namespace EcmaSyntax

namespace Lexer

/-- A comment that ends at the cursor enters the record. -/
def finishComment (isBlock : Bool) (value : List Char) (start : Nat) (startLoc : Position) :
    Scan Unit := do
  let stopLoc ← position
  modify fun state =>
    state.recordComment ⟨isBlock, String.ofList value, start, state.pos, ⟨startLoc, stopLoc⟩⟩

/-- The offset of the mark that closes a comment, at the earliest the given one. -/
def findClosing (source : Source) : Nat → Nat → Option Nat
  | 0, _ => none
  | count + 1, offset =>
    if source.hasAt offset '*' && source.hasAt (offset + 1) '/' then some offset
    else findClosing source count (offset + 1)

/-- The comment between two marks that begins at the cursor. -/
def passBlockComment : Scan Unit := do
  let startLoc ← position
  let start := (← get).pos
  let source ← source
  if source.size < start + 2 then fault (.slice (start + 2) source.size)
  match findClosing source (source.size - (start + 2)) (start + 2) with
  | none => raise start .unterminatedComment
  | some stop =>
    moveTo (stop + 2)
    let lines := LineMap.ofText (← slice start stop)
    if 1 < lines.lineCount then
      modify fun state =>
        { state with
          line := state.line + (lines.lineCount - 1)
          lineStart := start + lines.lastStart }
    finishComment true (← slice (start + 2) stop) start startLoc

/-- The comment that begins at the cursor, opened by so many bytes, and runs to the end of
its line. -/
def passLineComment (opening : Nat) : Scan Unit := do
  let startLoc ← position
  let start := (← get).pos
  let source ← source
  let stop := source.find Blank.isLineBreak (start + opening)
  moveTo stop
  finishComment false (← slice (start + opening) stop) start startLoc

/-- A character at which blanks and comments end is told from the others. -/
def passBlanks : Nat → Scan Unit
  | 0 => return
  | count + 1 => do
    match ← peek 0 with
    | none => return
    | some character =>
      if Blank.isLineBreak character then
        let _ ← passLineBreak true
        passBlanks count
      else if Blank.isInline character then
        advance character.utf8Size
        passBlanks count
      else if character == '/' then
        match ← peek 1 with
        | some '*' => do
          passBlockComment
          passBlanks count
        | some '/' => do
          passLineComment 2
          passBlanks count
        | _ => return
      else return

/-- The blanks and comments at the cursor are passed. -/
def skipSpace : Scan Unit := do
  passBlanks (← remaining)

/-- A mark of interpretation at the very start of the text is a comment. -/
def skipShebang : Scan Unit := do
  if (← get).pos == 0 && (← source).startsWith ['#', '!'] 0 then passLineComment 2

end Lexer

end EcmaSyntax
