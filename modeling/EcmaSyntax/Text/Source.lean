import EcmaSyntax.Text.Blank
import EcmaSyntax.Text.LineMap

namespace EcmaSyntax

/-- A text is laid out with one cell for each byte: a character stands in the cell of its
first byte, and the cells of its other bytes are empty. -/
def Source.layout (text : List Char) : Array (Option Char) :=
  (text.flatMap fun character =>
    some character :: List.replicate (character.utf8Size - 1) none).toArray

/-- A source is a text with its layout. -/
structure Source where
  text : List Char
  cells : Array (Option Char) := Source.layout text
  cells_eq : cells = Source.layout text := by rfl

namespace Source

def ofString (text : String) : Source := { text := text.toList }

/-- The byte length of the text. -/
def size (source : Source) : Nat := source.cells.size

/-- The character that begins at an offset. -/
def charAt? (source : Source) (offset : Nat) : Option Char := source.cells[offset]?.join

/-- The test for a given character at an offset. -/
def hasAt (source : Source) (offset : Nat) (character : Char) : Bool :=
  source.charAt? offset == some character

/-- A character begins at a boundary, or the text ends there. -/
def isBoundary (source : Source) (offset : Nat) : Bool :=
  offset == source.size || (source.charAt? offset).isSome

/-- The characters that begin between two offsets. -/
def charsBetween (source : Source) (start stop : Nat) : List Char :=
  (source.cells.extract start stop).toList.filterMap id

/-- The text between two boundaries, the first not after the second. -/
def slice? (source : Source) (start stop : Nat) : Option (List Char) :=
  if start ≤ stop && source.isBoundary start && source.isBoundary stop then
    some (source.charsBetween start stop)
  else none

/-- The first of the next offsets at which a character passes the test, or the last offset. -/
def seek (source : Source) (test : Char → Bool) : Nat → Nat → Nat
  | 0, offset => offset
  | count + 1, offset =>
    if (source.charAt? offset).any test then offset else seek source test count (offset + 1)

/-- The first offset from here on at which a character passes the test, or the size. -/
def find (source : Source) (test : Char → Bool) (offset : Nat) : Nat :=
  source.seek test (source.size - offset) offset

/-- Some character between two offsets passes the test. -/
def anyBetween (source : Source) (test : Char → Bool) (start stop : Nat) : Bool :=
  source.seek test (stop - start) start < stop

/-- The offset after at most so many characters that pass the test. -/
def passOver (source : Source) (test : Char → Bool) : Nat → Nat → Nat
  | 0, offset => offset
  | count + 1, offset =>
    match source.charAt? offset with
    | some character =>
      if test character then passOver source test count (offset + character.utf8Size)
      else offset
    | none => offset

/-- The offset after all the next characters that pass the test. -/
def skipWhile (source : Source) (test : Char → Bool) (offset : Nat) : Nat :=
  source.passOver test (source.size - offset) offset

/-- A line terminator begins at the offset. -/
def breaksAt (source : Source) (offset : Nat) : Bool :=
  (source.charAt? offset).any Blank.isLineBreak

/-- The bytes from an offset on begin with those of a text. -/
def startsWith (source : Source) : List Char → Nat → Bool
  | [], _ => true
  | character :: rest, offset =>
    source.hasAt offset character && startsWith source rest (offset + character.utf8Size)

/-- The byte at an offset, or zero past the end. -/
def byteAt (source : Source) (offset : Nat) : Nat :=
  let starting := (List.range 4).findSome? fun back =>
    if back ≤ offset then (source.charAt? (offset - back)).map fun character => (character, back)
    else none
  match starting with
  | some (character, back) => ((String.utf8EncodeChar character).getD back 0).toNat
  | none => 0

/-- The line and column of an offset. -/
def locate (source : Source) (offset : Nat) : Position :=
  EcmaSyntax.locate source.text offset

/-- Passing over characters never goes back. -/
theorem le_passOver (source : Source) (test : Char → Bool) (count offset : Nat) :
    offset ≤ source.passOver test count offset := by
  induction count generalizing offset with
  | zero => simp [passOver]
  | succ count inductionHypothesis =>
      unfold passOver
      split
      · split
        · have := inductionHypothesis (offset + Char.utf8Size ‹Char›)
          omega
        · omega
      · omega

end Source

end EcmaSyntax
