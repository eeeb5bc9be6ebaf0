import EcmaSyntax.Lexer.Word

namespace EcmaSyntax

namespace Lexer

/-- The rest of a string up to its quote, gathered backwards; what stands from an offset up
to the cursor has been passed but not gathered. -/
def gatherString (quote : Char) : Nat → Nat → List Char → Scan (List Char)
  | 0, _, _ => do raise (← get).start .unterminatedString
  | count + 1, chunk, gathered => do
    match ← peek 0 with
    | none => raise (← get).start .unterminatedString
    | some character =>
      if character == quote then return (← sliceFrom chunk).reverse ++ gathered
      else if character == '\\' then
        let plain ← sliceFrom chunk
        let decoded ← readEscape false
        gatherString quote count (← get).pos (decoded.reverse ++ (plain.reverse ++ gathered))
      else if Blank.isLineBreak character then raise (← get).start .unterminatedString
      else
        advance character.utf8Size
        gatherString quote count chunk gathered

/-- A string, whose value has its escapes decoded. -/
def readString (quote : Char) : Scan Unit := do
  advance 1
  let gathered ← gatherString quote (← remaining) (← get).pos []
  advance 1
  finishToken .string (.text (String.ofList gathered.reverse))

/-- A substitution begins at the cursor. -/
def atSubstitution : Scan Bool := do
  return (← peekIs 0 '$') && (← peekIs 1 '\x7b')

/-- The rest of a chunk of a template, gathered backwards; what stands from an offset up to
the cursor has been passed but not gathered. Each line break in it stands as a line feed, but
for the two Unicode separators. -/
def gatherChunk : Nat → Nat → List Char → Scan (List Char)
  | 0, _, _ => do raise (← get).start .unterminatedTemplate
  | count + 1, chunk, gathered => do
    match ← peek 0 with
    | none => raise (← get).start .unterminatedTemplate
    | some character =>
      if character == '\x60' || (← atSubstitution) then
        return (← sliceFrom chunk).reverse ++ gathered
      else if character == '\\' then
        let plain ← sliceFrom chunk
        let decoded ← readEscape true
        gatherChunk count (← get).pos (decoded.reverse ++ (plain.reverse ++ gathered))
      else if Blank.isLineBreak character then
        let plain ← sliceFrom chunk
        let terminator ← passLineBreak true
        let decoded := if terminator == ['\r'] then ['\n'] else terminator
        gatherChunk count (← get).pos (decoded.reverse ++ (plain.reverse ++ gathered))
      else
        advance character.utf8Size
        gatherChunk count chunk gathered

/-- The next token within a template: a chunk, then the mark that ends the chunk. -/
def readTemplate : Scan Unit := do
  let afterChunk := (← get).kind == .template
  if afterChunk && (← atSubstitution) then finishMark .dollarBraceL 2
  else if afterChunk && (← peekIs 0 '\x60') then finishMark .backQuote 1
  else
    let gathered ← gatherChunk (← remaining) (← get).pos []
    finishToken .template (.text (String.ofList gathered.reverse))

/-- The offset of the slash that ends a regular expression; within a class it ends none. If there
is none, it is that of the line terminator or the end of the text. -/
def findRegExpEnd (source : Source) : Nat → Bool → Bool → Nat → Nat
  | 0, _, _, offset => offset
  | count + 1, escaped, inClass, offset =>
    match source.charAt? offset with
    | none => offset
    | some character =>
      let next := offset + character.utf8Size
      if Blank.isLineBreak character then offset
      else if escaped then findRegExpEnd source count false inClass next
      else if character == '/' && !inClass then offset
      else
        let inClass := character == '[' || (inClass && character != ']')
        findRegExpEnd source count (character == '\\') inClass next

/-- The flags that a regular expression may have. -/
def regExpFlags : List Char := ['g', 'm', 's', 'i', 'y', 'u']

/-- A regular expression from after its first slash on. -/
def readRegExp : Scan Unit := do
  let start := (← get).pos
  let source ← source
  let stop := findRegExpEnd source (← remaining) false false start
  moveTo stop
  if source.hasAt stop '/' then
    let pattern ← slice start stop
    advance 1
    let flags ← readWordText
    if flags.toList.all regExpFlags.contains then
      finishToken .regexp (.regexp (String.ofList pattern) flags)
    else raise start .invalidRegExpFlag
  else raise start .unterminatedRegExp

end Lexer

end EcmaSyntax
