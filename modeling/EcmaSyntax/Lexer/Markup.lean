import EcmaSyntax.Lexer.Entity
import EcmaSyntax.Lexer.Operator

namespace EcmaSyntax

namespace Lexer

/-- The character that a reference names, given what stands between its marks: a name, or a
number sign before decimal digits or before an x and hexadecimal digits. -/
def decodeEntity : List Char → Option Char
  | '#' :: 'x' :: digits => numbered 16 digits
  | '#' :: digits => numbered 10 digits
  | name => (Entity.codePoint? (String.ofList name)).bind charOf?
where
  numbered (radix : Nat) (digits : List Char) : Option Char :=
    if digits.isEmpty || !digits.all (Digit.isDigit radix) then none
    else charOf? (Digit.number radix digits)

/-- A reference ends within so many characters. -/
def entityLimit : Nat := 10

/-- The character of the reference at the cursor, an ampersand; what names no character
leaves the ampersand as it is. -/
def readEntity : Scan Char := do
  advance 1
  let start := (← get).pos
  let ahead := ((← source).charsBetween start (start + 4 * entityLimit)).take entityLimit
  let (name, rest) := ahead.span (· != ';')
  match (if rest.isEmpty then none else decodeEntity name) with
  | some character =>
    moveTo (start + byteLength name + 1)
    return character
  | none => return '&'

/-- The rest of a text between tags, gathered backwards; what stands from an offset up to the
cursor has been passed but not gathered. -/
def gatherMarkup : Nat → Nat → List Char → Scan (List Char)
  | 0, _, _ => do raise (← get).start .unterminatedMarkup
  | count + 1, chunk, gathered => do
    match ← peek 0 with
    | none => raise (← get).start .unterminatedMarkup
    | some character =>
      if character == '<' || character == '\x7b' then
        return (← sliceFrom chunk).reverse ++ gathered
      else if character == '&' then
        let plain ← sliceFrom chunk
        let decoded ← readEntity
        gatherMarkup count (← get).pos (decoded :: (plain.reverse ++ gathered))
      else if Blank.isLineBreak character then
        let plain ← sliceFrom chunk
        let terminator ← passLineBreak true
        gatherMarkup count (← get).pos (terminator.reverse ++ (plain.reverse ++ gathered))
      else
        advance character.utf8Size
        gatherMarkup count chunk gathered

/-- The next token between tags: a text, or the mark that ends it. -/
def readMarkupText (character : Char) (resume : Scan Unit) : Scan Unit := do
  if character == '<' && (← get).exprAllowed then finishMark .jsxTagStart 1
  else if character == '<' || character == '\x7b' then readMark character resume
  else
    let gathered ← gatherMarkup (← remaining) (← get).pos []
    finishToken .jsxText (.text (String.ofList gathered.reverse))

/-- The rest of the value of an attribute up to its quote, gathered backwards; what stands
from an offset up to the cursor has been passed but not gathered. -/
def gatherAttribute (quote : Char) : Nat → Nat → List Char → Scan (List Char)
  | 0, _, _ => do raise (← get).start .unterminatedString
  | count + 1, chunk, gathered => do
    match ← peek 0 with
    | none => raise (← get).start .unterminatedString
    | some character =>
      if character == quote then return (← sliceFrom chunk).reverse ++ gathered
      else if character == '&' then
        let plain ← sliceFrom chunk
        let decoded ← readEntity
        gatherAttribute quote count (← get).pos (decoded :: (plain.reverse ++ gathered))
      else if Blank.isLineBreak character then
        let plain ← sliceFrom chunk
        let terminator ← passLineBreak false
        gatherAttribute quote count (← get).pos
          (terminator.reverse ++ (plain.reverse ++ gathered))
      else
        advance character.utf8Size
        gatherAttribute quote count chunk gathered

/-- The value of an attribute, in which a backslash is no escape. -/
def readAttributeText (quote : Char) : Scan Unit := do
  advance 1
  let gathered ← gatherAttribute quote (← remaining) (← get).pos []
  advance 1
  finishToken .string (.text (String.ofList gathered.reverse))

/-- The name of a tag or attribute, which may hold dashes after its first character. -/
def readMarkupName (character : Char) : Scan Unit := do
  let start := (← get).pos
  let rest := (← source).skipWhile
    (fun character => Identifier.isPart character || character == '-')
    (start + character.utf8Size)
  moveTo rest
  finishToken .jsxName (.text (String.ofList (← slice start rest)))

/-- A token that begins with the given character where markup may stand. -/
def readMarkup (character : Char) (resume : Scan Unit) : Scan Unit := do
  let state ← get
  let inTag := state.context == .jsxOpenTag || state.context == .jsxCloseTag
  let quotes := character == '"' || character == '\''
  if state.context == .jsxExpression then readMarkupText character resume
  else if inTag && Identifier.isStart character then readMarkupName character
  else if inTag && character == '>' then finishMark .jsxTagEnd 1
  else if quotes && state.context == .jsxOpenTag then readAttributeText character
  else if character == '<' && state.exprAllowed then finishMark .jsxTagStart 1
  else readPlain character resume

/-- A token that begins with the given character; within a type, the brackets of a list of
types stand each for itself. -/
def readToken (character : Char) (resume : Scan Unit) : Scan Unit := do
  let setting ← read
  if setting.flow && (← get).inType && (character == '<' || character == '>') then
    finishOperator .relational 1
  else if setting.jsx then readMarkup character resume
  else readPlain character resume

end Lexer

end EcmaSyntax
