namespace EcmaSyntax

/-- A decimal is a number of digits times a power of ten. -/
structure Decimal where
  digits : Nat
  exponent : Int
deriving DecidableEq, Repr

namespace Decimal

/-- The ratio of two naturals is at most another, both times powers of ten and two:
`first * 10 ^ ten ≤ second * 2 ^ two`. -/
def scaledLe (first : Nat) (ten : Int) (second : Nat) (two : Int) : Bool :=
  first * Nat.pow 10 ten.toNat * Nat.pow 2 (-two).toNat ≤
    second * Nat.pow 2 two.toNat * Nat.pow 10 (-ten).toNat

/-- The converse comparison, `second * 2 ^ two ≤ first * 10 ^ ten`. -/
def scaledGe (first : Nat) (ten : Int) (second : Nat) (two : Int) : Bool :=
  second * Nat.pow 2 two.toNat * Nat.pow 10 (-ten).toNat ≤
    first * Nat.pow 10 ten.toNat * Nat.pow 2 (-two).toNat

/-- A positive binary number with the bounds of the reals that round to it, in quarters of
the unit of its last place. -/
structure Binary where
  center : Nat
  below : Nat
  above : Nat
  exponent : Int
  closed : Bool

/-- The parts of a positive finite number, from its bits. -/
def Binary.ofBits (bits : Nat) : Binary :=
  let fraction := bits % Nat.pow 2 52
  let biased := bits / Nat.pow 2 52 % Nat.pow 2 11
  let mantissa := if biased = 0 then fraction else Nat.pow 2 52 + fraction
  let exponent : Int := (if biased = 0 then 1 else Int.ofNat biased) - 1075
  { center := 4 * mantissa
    below := if fraction = 0 && 1 < biased then 1 else 2
    above := 2
    exponent := exponent - 2
    closed := mantissa % 2 = 0 }

/-- A decimal rounds to the number. -/
def Binary.holds (binary : Binary) (digits : Nat) (ten : Int) : Bool :=
  let low := binary.center - binary.below
  let high := binary.center + binary.above
  let atLeast := scaledGe digits ten low binary.exponent
  let atMost := scaledLe digits ten high binary.exponent
  let equalsLow := atLeast && scaledLe digits ten low binary.exponent
  let equalsHigh := atMost && scaledGe digits ten high binary.exponent
  atLeast && atMost && (binary.closed || !(equalsLow || equalsHigh))

/-- The number in units of a power of ten, rounded down. -/
def Binary.floorAt (binary : Binary) (ten : Int) : Nat :=
  binary.center * Nat.pow 2 binary.exponent.toNat * Nat.pow 10 (-ten).toNat /
    (Nat.pow 10 ten.toNat * Nat.pow 2 (-binary.exponent).toNat)

/-- The point of the grid below the number is at least as near as the one above. -/
def Binary.nearerBelow (binary : Binary) (digits : Nat) (ten : Int) : Bool :=
  scaledGe (2 * digits + 1) ten (2 * binary.center) binary.exponent

/-- The least exponent of a power of ten above the number, sought upward. -/
def Binary.magnitude (binary : Binary) : Nat → Int → Int
  | 0, ten => ten
  | count + 1, ten =>
    if binary.floorAt ten = 0 then ten else binary.magnitude count (ten + 1)

/-- The first grid, from few digits to many, with a point that reads back. -/
def Binary.shortestFrom (binary : Binary) (top : Int) : Nat → Nat → Decimal
  | 0, digits => ⟨binary.floorAt (top - digits), top - digits⟩
  | count + 1, digits =>
    let ten := top - digits
    let down := binary.floorAt ten
    let downHolds := 0 < down && binary.holds down ten
    let upHolds := binary.holds (down + 1) ten
    if downHolds && (!upHolds || binary.nearerBelow down ten) then ⟨down, ten⟩
    else if upHolds then ⟨down + 1, ten⟩
    else binary.shortestFrom top count (digits + 1)

/-- A decimal without zeros at its end. -/
def trimmed : Nat → Decimal → Decimal
  | 0, decimal => decimal
  | count + 1, decimal =>
    if decimal.digits % 10 = 0 && 0 < decimal.digits then
      trimmed count ⟨decimal.digits / 10, decimal.exponent + 1⟩
    else decimal

/-- The shortest decimal of a positive finite number, given by its bits. -/
def shortest (bits : Nat) : Decimal :=
  let binary := Binary.ofBits bits
  let top := binary.magnitude 700 (-330)
  trimmed 20 (binary.shortestFrom top 17 1)

end Decimal

end EcmaSyntax
