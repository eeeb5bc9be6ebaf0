import EcmaSyntax.Lexer.State
import EcmaSyntax.Text.Digit

namespace EcmaSyntax

namespace Lexer

/-- The greatest code point. -/
def lastCodePoint : Nat := 0x10FFFF

/-- The character of a code point, if it has one. -/
def charOf? (code : Nat) : Option Char :=
  if code < 0xD800 || (0xDFFF < code && code ≤ lastCodePoint) then some (Char.ofNat code)
  else none

/-- A code point that is no character stands as the replacement character. -/
def charOf (code : Nat) : Char := (charOf? code).getD '\ufffd'

/-- Exactly so many hexadecimal digits, and not none. If there are fewer, those are passed. -/
def readHex (count : Nat) : Scan Nat := do
  let source ← source
  let start := (← get).pos
  let stop := source.passOver (Digit.isDigit 16) count start
  moveTo stop
  if start < stop && stop == start + count then
    return Digit.number 16 (source.charsBetween start stop)
  else raise start .badEscape

/-- The code point after the letter of a Unicode escape: four digits, or any number of them
between braces. -/
def readCodePoint : Scan Nat := do
  if ← peekIs 0 '\x7b' then
    advance 1
    let start := (← get).pos
    checkRest start
    let source ← source
    let close := source.skipWhile (· != '\x7d') start
    if source.hasAt close '\x7d' then
      let code ← readHex (close - start)
      advance 1
      if lastCodePoint < code then raise start .codePointOutOfBounds
      return code
    else raise start .badEscape
  else readHex 4

/-- The octal digits from an offset on that code at most two hundred fifty-five, three of
them at most. -/
def octalDigits (start : Nat) : Scan (List Char) := do
  let ahead := (← source).charsBetween start (start + 3)
  let digits ← slice start (start + (ahead.takeWhile (Digit.isDigit 8)).length)
  if 255 < Digit.number 8 digits then slice start (start + (digits.length - 1))
  else return digits

/-- An octal escape whose first digit ends at the cursor. Strict code and templates refuse
it unless it codes zero. -/
def readOctal (inTemplate : Bool) : Scan (List Char) := do
  let start ← behind 1
  let digits ← octalDigits start
  let code := Digit.number 8 digits
  if 0 < code then
    let escape ← behind 2
    modify fun state =>
      if state.containsOctal then state
      else { state with containsOctal := true, octalPosition := some escape }
    if inTemplate || (← get).strict then raise escape .octalInStrict
  moveTo (start + digits.length)
  return [charOf code]

/-- The characters that the escape at the cursor, a backslash, stands for. -/
def readEscape (inTemplate : Bool) : Scan (List Char) := do
  advance 1
  match ← peek 0 with
  | none => return []
  | some character =>
    advance character.utf8Size
    match character with
    | 'n' => return ['\n']
    | 'r' => return ['\r']
    | 'x' => return [charOf (← readHex 2)]
    | 'u' => return [charOf (← readCodePoint)]
    | 't' => return ['\t']
    | 'b' => return ['\x08']
    | 'v' => return ['\x0b']
    | 'f' => return ['\x0c']
    | '\r' => do
      if ← peekIs 0 '\n' then advance 1
      startLine (← get).pos
      return []
    | '\n' => do
      startLine (← get).pos
      return []
    | _ =>
      if Digit.isDigit 8 character then readOctal inTemplate
      else return [character]

end Lexer

end EcmaSyntax
