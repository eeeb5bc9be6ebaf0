import EcmaSyntax.Lexer.Escape
import EcmaSyntax.Lexer.Nesting
import EcmaSyntax.Text.Identifier

namespace EcmaSyntax

namespace Lexer

/-- The character of the escape at the cursor, a backslash within a word. It belongs there
as if it were written plainly. -/
def readWordEscape (first : Bool) : Scan Char := do
  modify fun state => { state with containsEsc := true }
  let start := (← get).pos
  advance 1
  if !(← peekIs 0 'u') then raise (← get).pos .expectedUnicodeEscape
  advance 1
  let code ← readCodePoint
  match charOf? code with
  | some character =>
    if (if first then Identifier.isStart character else Identifier.isPart character) then
      return character
    else raise start .invalidUnicodeEscape
  | none => raise start .invalidUnicodeEscape

/-- The rest of a word, gathered backwards; what stands from an offset up to the cursor has
been passed but not gathered. -/
def gatherWord : Nat → Bool → Nat → List Char → Scan (List Char)
  | 0, _, chunk, gathered => do
    return (← sliceFrom chunk).reverse ++ gathered
  | count + 1, first, chunk, gathered => do
    match ← peek 0 with
    | none => return (← sliceFrom chunk).reverse ++ gathered
    | some character =>
      if Identifier.isPart character then
        advance character.utf8Size
        gatherWord count false chunk gathered
      else if character == '\\' then
        let plain ← sliceFrom chunk
        let escaped ← readWordEscape first
        gatherWord count false (← get).pos (escaped :: (plain.reverse ++ gathered))
      else return (← sliceFrom chunk).reverse ++ gathered

/-- The word at the cursor with its escapes decoded. -/
def readWordText : Scan String := do
  modify fun state => { state with containsEsc := false }
  let gathered ← gatherWord (← remaining) true (← get).pos []
  return String.ofList gathered.reverse

/-- A word reads as a keyword; within a type the word for no value is a name. -/
def isKeyword (word : String) : Scan Bool := do
  if (← read).flow && (← get).inType && word == "void" then return false
  else return Word.isKeyword word

/-- A word is a keyword unless an escape spells it. -/
def readWord : Scan Unit := do
  let word ← readWordText
  let keyword ← isKeyword word
  let kind :=
    if keyword && !(← get).containsEsc then (Kind.ofKeyword? word).getD .name else .name
  finishToken kind (.text word)

end Lexer

end EcmaSyntax
