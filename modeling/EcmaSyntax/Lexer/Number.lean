import EcmaSyntax.Lexer.Nesting
import EcmaSyntax.Number.Nearest
import EcmaSyntax.Text.Digit
import EcmaSyntax.Text.Identifier

namespace EcmaSyntax

namespace Lexer

/-- The number that decimal digits stand for, those before the point, those after it, and
those of the exponent with its sign. -/
def decimalValue (integer fraction : List Char) (negative : Bool) (exponent : List Char) :
    Float :=
  let digits := integer ++ fraction
  let power := Int.ofNat (Digit.number 10 exponent)
  let power := (if negative then -power else power) - Int.ofNat fraction.length
  Nearest.ofDecimal (Digit.number 10 digits) digits.length power

/-- The digits of a radix from the cursor on are passed. -/
def passDigits (radix : Nat) : Scan (List Char) := do
  let source ← source
  let start := (← get).pos
  let stop := source.skipWhile (Digit.isDigit radix) start
  moveTo stop
  return source.charsBetween start stop

/-- A number is not followed by a name. -/
def checkNumberEnds : Scan Unit := do
  if (← peek 0).any Identifier.isStart then raise (← get).pos .identifierAfterNumber

/-- A number whose radix two characters have given. -/
def readRadixNumber (radix : Nat) : Scan Unit := do
  advance 2
  let digits ← passDigits radix
  if digits.isEmpty then raise ((← get).start + 2) (.expectedNumber radix)
  checkNumberEnds
  finishToken .num (.number (Digit.rounded radix digits))

/-- The digits after a point at the cursor. -/
def readFraction : Scan (Option (List Char)) := do
  if ← peekIs 0 '.' then
    advance 1
    return some (← passDigits 10)
  else return none

/-- The sign and the digits of an exponent at the cursor, for a number that starts at the
given offset. -/
def readExponent (start : Nat) : Scan (Option (Bool × List Char)) := do
  if (← peekIs 0 'e') || (← peekIs 0 'E') then
    advance 1
    let negative ← peekIs 0 '-'
    if negative || (← peekIs 0 '+') then advance 1
    let digits ← passDigits 10
    if digits.isEmpty then raise start .invalidNumber
    return some (negative, digits)
  else return none

/-- The rest of a decimal number that starts at the given offset, after its whole part, or of one
of the old octal form: a zero before more digits, which strict code and the digits eight and nine
rule out. -/
def numberRest (start : Nat) (integer : List Char) : Scan Unit := do
  let fraction ← readFraction
  let exponent ← readExponent start
  checkNumberEnds
  let text ← sliceFrom start
  let isReal := fraction.isSome || exponent.isSome
  let isOctal := text.head? == some '0' && text.length != 1
  if isReal || !isOctal then
    let (negative, power) := exponent.getD (false, [])
    finishToken .num (.number (decimalValue integer (fraction.getD []) negative power))
  else if text.any (fun digit => digit == '8' || digit == '9') || (← get).strict then
    raise start .invalidNumber
  else finishToken .num (.number (Digit.rounded 8 text))

/-- A decimal number, or one of the old octal form. -/
def readNumber (startsWithDot : Bool) : Scan Unit := do
  let start := (← get).pos
  let integer ← if startsWithDot then pure [] else passDigits 10
  if !startsWithDot && integer.isEmpty then raise start .invalidNumber
  numberRest start integer

end Lexer

end EcmaSyntax
