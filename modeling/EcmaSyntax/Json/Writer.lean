import EcmaSyntax.Json.Basic
import EcmaSyntax.Number.Shortest

namespace EcmaSyntax

namespace Json

/-- The decimal digits of a natural number. -/
def decimalDigits (value : Nat) : List Char := Nat.toDigits 10 value

/-- A decimal is written by position while its point falls within sixteen digits or at most
four zeros before them, and otherwise with one digit before the point and a signed exponent. -/
def decimalText (decimal : Decimal) : List Char :=
  let digits := decimalDigits decimal.digits
  let count : Int := Int.ofNat digits.length
  let point := count + decimal.exponent
  if 0 ≤ decimal.exponent && point ≤ 16 then
    digits ++ List.replicate decimal.exponent.toNat '0' ++ ['.', '0']
  else if 0 < point && point ≤ 16 then
    digits.take point.toNat ++ ['.'] ++ digits.drop point.toNat
  else if -5 < point && point ≤ 0 then
    ['0', '.'] ++ List.replicate (-point).toNat '0' ++ digits
  else
    let fraction := if digits.length = 1 then [] else '.' :: digits.drop 1
    let power := point - 1
    let sign := if power < 0 then '-' else '+'
    digits.take 1 ++ fraction ++ ['e', sign] ++ decimalDigits power.natAbs

/-- A floating-point number is written with the fewest digits that read back; a number
without a decimal is null. -/
def floatText (value : Float) : String :=
  if value.isNaN || value.isInf then "null"
  else
    let bits := value.toBits.toNat
    let sign := if bits < Nat.pow 2 63 then [] else ['-']
    let size := bits % Nat.pow 2 63
    if size = 0 then String.ofList (sign ++ ['0', '.', '0'])
    else String.ofList (sign ++ decimalText (Decimal.shortest size))

/-- The hexadecimal digit of a number below sixteen. -/
def hexDigit (value : Nat) : Char := Nat.digitChar value

/-- A character within quotes. -/
def quotedChar (character : Char) : List Char :=
  if character = '"' then ['\\', '"']
  else if character = '\\' then ['\\', '\\']
  else if character = '\n' then ['\\', 'n']
  else if character = '\r' then ['\\', 'r']
  else if character = '\t' then ['\\', 't']
  else if character = '\x08' then ['\\', 'b']
  else if character = '\x0c' then ['\\', 'f']
  else if character.toNat < 32 then
    ['\\', 'u', '0', '0', hexDigit (character.toNat / 16), hexDigit (character.toNat % 16)]
  else [character]

/-- A text within quotes, added to what is written before it. -/
def addQuoted (written : String) (text : String) : String :=
  (text.toList.foldl
    (fun written character => (quotedChar character).foldl String.push written)
    (written.push '"')).push '"'

mutual

/-- A value is added to what is written before it. -/
def addTo (written : String) : Json → String
  | .null => written ++ "null"
  | .bool value => written ++ (if value then "true" else "false")
  | .whole value => written ++ toString value
  | .float value => written ++ floatText value
  | .string value => addQuoted written value
  | .array items => (addItems (written.push '[') true items).push ']'
  | .object members => (addMembers (written.push '\x7b') true members).push '\x7d'

def addItems (written : String) (first : Bool) : List Json → String
  | [] => written
  | item :: rest =>
    addItems (addTo (if first then written else written.push ',') item) false rest

def addMembers (written : String) (first : Bool) : List (String × Json) → String
  | [] => written
  | (name, value) :: rest =>
    let named := addQuoted (if first then written else written.push ',') name
    addMembers (addTo (named.push ':') value) false rest

end

/-- The text of a value. -/
def write (value : Json) : String := addTo "" value

/-- A new line begins with two blanks for each level. -/
def addLine (written : String) (level : Nat) : String :=
  (written.push '\n').pushn ' ' (2 * level)

/-- The items of a list stand on lines of their own, and so do the members of an object. -/
def addLaidOut (level : Nat) (written : String) : Json → String
  | .array (item :: rest) => (addLine (items true (written.push '[') (item :: rest)) level).push ']'
  | .object (member :: rest) =>
    (addLine (members true (written.push '\x7b') (member :: rest)) level).push '\x7d'
  | value => addTo written value
where
  items (first : Bool) (written : String) : List Json → String
    | [] => written
    | item :: rest =>
      let line := addLine (if first then written else written.push ',') (level + 1)
      items false (addLaidOut (level + 1) line item) rest
  members (first : Bool) (written : String) : List (String × Json) → String
    | [] => written
    | (name, value) :: rest =>
      let line := addLine (if first then written else written.push ',') (level + 1)
      members false (addLaidOut (level + 1) (addQuoted line name ++ ": ") value) rest

/-- The text of a value over several lines. -/
def layOut (value : Json) : String := addLaidOut 0 "" value

end Json

end EcmaSyntax
