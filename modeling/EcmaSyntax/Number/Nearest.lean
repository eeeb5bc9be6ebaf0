namespace EcmaSyntax

namespace Nearest

/-- The quotient rounded to a whole number, a half to the even neighbour. -/
def quotient (numerator denominator : Nat) : Nat :=
  let floor := numerator / denominator
  let rest := numerator % denominator
  if denominator < 2 * rest || (2 * rest = denominator && floor % 2 = 1) then floor + 1
  else floor

/-- The least exponent of a unit in the last place. -/
def leastExponent : Int := -1074

/-- The ratio in units of a power of two, as a numerator and a denominator. -/
def inUnits (numerator denominator : Nat) (exponent : Int) : Nat × Nat :=
  (numerator * Nat.pow 2 (-exponent).toNat, denominator * Nat.pow 2 exponent.toNat)

/-- The exponent of the unit in the last place of a positive ratio, so that the ratio has
fifty-three binary digits in it, or fewer under the least exponent. -/
def unitExponent (numerator denominator : Nat) : Int :=
  let guess : Int := Int.ofNat numerator.log2 - Int.ofNat denominator.log2 - 52
  let (scaled, divisor) := inUnits numerator denominator guess
  let exponent := if scaled / divisor < Nat.pow 2 52 then guess - 1 else guess
  max exponent leastExponent

/-- The bits of infinity. -/
def infinityBits : Nat := 0x7FF0000000000000

/-- The bits of the floating-point number nearest to a ratio; a ratio beyond all of them is
infinite. -/
def bits (numerator denominator : Nat) : Nat :=
  if numerator = 0 then 0
  else
    let exponent := unitExponent numerator denominator
    let (scaled, divisor) := inUnits numerator denominator exponent
    min (quotient scaled divisor + (exponent - leastExponent).toNat * Nat.pow 2 52)
      infinityBits

/-- The floating-point number nearest to digits times a power of ten. A power so great or so
small that the digits cannot make up for it gives infinity or zero. -/
def ofDecimal (digits : Nat) (count : Nat) (power : Int) : Float :=
  let pattern :=
    if digits = 0 || power + Int.ofNat count < -400 then 0
    else if 400 < power then infinityBits
    else bits (digits * Nat.pow 10 power.toNat) (Nat.pow 10 (-power).toNat)
  Float.ofBits (UInt64.ofNat pattern)

end Nearest

end EcmaSyntax
