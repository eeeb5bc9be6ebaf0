namespace EcmaSyntax

namespace Digit

/-- The value of an ASCII letter or digit, letters of either case counting on from ten. -/
def anyValue (character : Char) : Option Nat :=
  if '0' ≤ character && character ≤ '9' then some (character.toNat - '0'.toNat)
  else if 'a' ≤ character && character ≤ 'z' then some (character.toNat - 'a'.toNat + 10)
  else if 'A' ≤ character && character ≤ 'Z' then some (character.toNat - 'A'.toNat + 10)
  else none

/-- The value of a character that is a digit of the radix. -/
def value (radix : Nat) (character : Char) : Option Nat :=
  (anyValue character).filter (· < radix)

def isDigit (radix : Nat) (character : Char) : Bool :=
  (value radix character).isSome

/-- The number that digits spell, the most significant first. -/
def number (radix : Nat) (digits : List Char) : Nat :=
  digits.foldl (fun total character => total * radix + (value radix character).getD 0) 0

/-- The number that digits spell in binary floating point, rounded after each digit. -/
def rounded (radix : Nat) (digits : List Char) : Float :=
  digits.foldl
    (fun total character =>
      total * Float.ofNat radix + Float.ofNat ((value radix character).getD 0))
    0

end Digit

end EcmaSyntax
