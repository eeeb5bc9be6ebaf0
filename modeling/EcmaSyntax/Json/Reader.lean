import EcmaSyntax.Json.Basic
import EcmaSyntax.Text.Digit

namespace EcmaSyntax

namespace Json

/-- Blanks may stand around every value. -/
def skipBlanks : List Char → List Char
  | [] => []
  | character :: rest =>
    if character = ' ' || character = '\n' || character = '\t' || character = '\r' then
      skipBlanks rest
    else character :: rest

/-- The greatest whole number of sixty-four bits. -/
def wordLimit : Nat := Nat.pow 2 64 - 1

/-- The digits of a number are gathered as long as sixty-four bits hold them; the second
part counts the digits left out. -/
def gather : Nat → List Char → Nat × Nat
  | total, [] => (total, 0)
  | total, digit :: rest =>
    let next := total * 10 + (Digit.value 10 digit).getD 0
    if next ≤ wordLimit then gather next rest else (total, rest.length + 1)

/-- Gathered digits are scaled by a power of ten in binary floating point, at most
`10 ^ 308` at once; a result without bound has no value. -/
def scaled : Nat → Float → Int → Option Float
  | 0, value, _ => some value
  | count + 1, value, power =>
    if power.natAbs ≤ 308 then
      let scale := Float.ofScientific 1 false power.natAbs
      if 0 ≤ power then
        let product := value * scale
        if product.isInf then none else some product
      else some (value / scale)
    else if value == 0 then some value
    else if 0 ≤ power then none
    else scaled count (value / Float.ofScientific 1 false 308) (power + 308)

/-- The value of a number written with a fraction or an exponent, or too long for a word. -/
def realValue (negative : Bool) (integer fraction : List Char) (power : Int) : Option Json :=
  let (leading, dropped) := gather 0 integer
  let (significand, point) :=
    if dropped = 0 then
      let (all, beyond) := gather leading fraction
      (all, Int.ofNat (fraction.length - beyond))
    else (leading, - Int.ofNat dropped)
  let places := power - point
  if significand = 0 && 0 ≤ places then some (.float (if negative then -0.0 else 0.0))
  else
    (scaled (places.natAbs / 308 + 1) (Float.ofNat significand) places).map fun value =>
      .float (if negative then -value else value)

/-- The value of a number written as digits alone. -/
def wholeValue (negative : Bool) (digits : List Char) : Option Json :=
  let value := Digit.number 10 digits
  if negative then
    if value = 0 then some (.float (-0.0))
    else if value ≤ Nat.pow 2 63 then some (.whole (- Int.ofNat value))
    else realValue true digits [] 0
  else if value ≤ wordLimit then some (.whole (Int.ofNat value))
  else realValue false digits [] 0

/-- The next digits and what follows them. -/
def spanDigits (text : List Char) : List Char × List Char := text.span (Digit.isDigit 10)

/-- An exponent, if the text begins with one. -/
def readExponent (text : List Char) : Option (Option Int × List Char) :=
  match text with
  | mark :: rest =>
    if mark = 'e' || mark = 'E' then
      let (negative, rest) :=
        match rest with
        | '-' :: rest => (true, rest)
        | '+' :: rest => (false, rest)
        | rest => (false, rest)
      let (digits, rest) := spanDigits rest
      if digits.isEmpty then none
      else
        let value := Int.ofNat (Digit.number 10 digits)
        some (some (if negative then -value else value), rest)
    else some (none, text)
  | [] => some (none, [])

/-- A number after its sign: an integer without a leading zero, then perhaps a fraction and
an exponent. -/
def readNumber (negative : Bool) (text : List Char) : Option (Json × List Char) := do
  let (integer, rest) := spanDigits text
  if integer.isEmpty || (integer.head? = some '0' && 1 < integer.length) then none
  let (fraction, hasFraction, rest) ←
    match rest with
    | '.' :: rest =>
      let (fraction, rest) := spanDigits rest
      if fraction.isEmpty then none else some (fraction, true, rest)
    | rest => some ([], false, rest)
  let (power, rest) ← readExponent rest
  if hasFraction || power.isSome then
    (realValue negative integer fraction (power.getD 0)).map (·, rest)
  else (wholeValue negative integer).map (·, rest)

/-- Four hexadecimal digits. -/
def readUnit : List Char → Option (Nat × List Char)
  | first :: second :: third :: fourth :: rest =>
    let digits := [first, second, third, fourth]
    if digits.all (Digit.isDigit 16) then some (Digit.number 16 digits, rest) else none
  | _ => none

/-- The character of an escape after its backslash; two units of a pair make one. -/
def readEscape : List Char → Option (Char × List Char)
  | '"' :: rest => some ('"', rest)
  | '\\' :: rest => some ('\\', rest)
  | '/' :: rest => some ('/', rest)
  | 'b' :: rest => some ('\x08', rest)
  | 'f' :: rest => some ('\x0c', rest)
  | 'n' :: rest => some ('\n', rest)
  | 'r' :: rest => some ('\r', rest)
  | 't' :: rest => some ('\t', rest)
  | 'u' :: rest => do
    let (first, rest) ← readUnit rest
    if first < 0xD800 || 0xDFFF < first then some (Char.ofNat first, rest)
    else if 0xDC00 ≤ first then none
    else
      match rest with
      | '\\' :: 'u' :: rest =>
        let (second, rest) ← readUnit rest
        if 0xDC00 ≤ second && second ≤ 0xDFFF then
          some (Char.ofNat (0x10000 + (first - 0xD800) * 0x400 + (second - 0xDC00)), rest)
        else none
      | _ => none
  | _ => none

/-- The rest of a quoted text, gathered backwards. -/
def readQuoted : Nat → List Char → List Char → Option (String × List Char)
  | 0, _, _ => none
  | count + 1, gathered, text =>
    match text with
    | '"' :: rest => some (String.ofList gathered.reverse, rest)
    | '\\' :: rest => do
      let (character, rest) ← readEscape rest
      readQuoted count (character :: gathered) rest
    | character :: rest =>
      if character.toNat < 32 then none else readQuoted count (character :: gathered) rest
    | [] => none

/-- A literal word. -/
def readWord (word : List Char) (value : Json) (text : List Char) : Option (Json × List Char) :=
  if word.isPrefixOf text then some (value, text.drop word.length) else none

mutual

/-- A value at the start of a text, nested less than the given depth. -/
def readValue (depth : Nat) : Nat → List Char → Option (Json × List Char)
  | 0, _ => none
  | count + 1, text =>
    match skipBlanks text with
    | '"' :: rest => (readQuoted (rest.length + 1) [] rest).map fun (text, rest) =>
        (.string text, rest)
    | '[' :: rest =>
      if depth ≤ 1 then none
      else
        match skipBlanks rest with
        | ']' :: rest => some (.array [], rest)
        | rest => readItems (depth - 1) count [] rest
    | '\x7b' :: rest =>
      if depth ≤ 1 then none
      else
        match skipBlanks rest with
        | '\x7d' :: rest => some (.object [], rest)
        | rest => readMembers (depth - 1) count [] rest
    | '-' :: rest => readNumber true rest
    | 'n' :: rest => readWord ['u', 'l', 'l'] .null rest
    | 't' :: rest => readWord ['r', 'u', 'e'] (.bool true) rest
    | 'f' :: rest => readWord ['a', 'l', 's', 'e'] (.bool false) rest
    | rest => readNumber false rest

/-- The items of an array from the first one that is still to read. -/
def readItems (depth : Nat) :
    Nat → List Json → List Char → Option (Json × List Char)
  | 0, _, _ => none
  | count + 1, gathered, text =>
    match readValue depth count text with
    | none => none
    | some (item, rest) =>
      match skipBlanks rest with
      | ',' :: rest => readItems depth count (item :: gathered) rest
      | ']' :: rest => some (.array (item :: gathered).reverse, rest)
      | _ => none

/-- The members of an object from the first one that is still to read. -/
def readMembers (depth : Nat) :
    Nat → List (String × Json) → List Char → Option (Json × List Char)
  | 0, _, _ => none
  | count + 1, gathered, text =>
    match skipBlanks text with
    | '"' :: rest =>
      match readQuoted (rest.length + 1) [] rest with
      | none => none
      | some (name, rest) =>
        match skipBlanks rest with
        | ':' :: rest =>
          match readValue depth count rest with
          | none => none
          | some (value, rest) =>
            match skipBlanks rest with
            | ',' :: rest => readMembers depth count ((name, value) :: gathered) rest
            | '\x7d' :: rest => some (.object ((name, value) :: gathered).reverse, rest)
            | _ => none
        | _ => none
    | _ => none

end

/-- A text that holds one value, nested less than the given depth. -/
def read? (depth : Nat) (text : String) : Option Json :=
  let characters := text.toList
  match readValue depth (2 * characters.length + 2) characters with
  | some (value, rest) => if (skipBlanks rest).isEmpty then some value else none
  | none => none

/-- The depth that a text may not reach. -/
def depthLimit : Nat := 128

end Json

end EcmaSyntax
