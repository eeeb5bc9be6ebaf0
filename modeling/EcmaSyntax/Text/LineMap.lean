import EcmaSyntax.Text.Blank

namespace EcmaSyntax

/-- A position is a line, counted from one, and a column of bytes, counted from zero. Both are
natural numbers, as offsets are. For a text of fewer than 2^32 - 1 bytes this makes no difference to
words of 32 bits: neither an offset nor a column exceeds the size of the text, and each line but the
first begins behind a terminator of the text. -/
structure Position where
  line : Nat
  column : Nat
deriving DecidableEq, Inhabited, Repr

namespace Position

/-- The first position of a text. -/
def origin : Position := ⟨1, 0⟩

/-- A position is written as its line and column around a colon. -/
def text (position : Position) : String :=
  toString position.line ++ ":" ++ toString position.column

end Position

/-- A location runs from the position of a first byte to the position after a last byte. -/
structure Location where
  start : Position
  stop : Position
deriving DecidableEq, Inhabited, Repr

namespace Location

/-- A location is written as its two positions around a dash. -/
def text (location : Location) : String :=
  location.start.text ++ "-" ++ location.stop.text

end Location

/-- The byte length of a text in UTF-8. -/
def byteLength : List Char → Nat
  | [] => 0
  | character :: rest => character.utf8Size + byteLength rest

@[simp] theorem byteLength_nil : byteLength [] = 0 := rfl

@[simp] theorem byteLength_cons (character : Char) (rest : List Char) :
    byteLength (character :: rest) = character.utf8Size + byteLength rest := rfl

/-- The bytes of two texts add up. -/
@[simp] theorem byteLength_append (first second : List Char) :
    byteLength (first ++ second) = byteLength first + byteLength second := by
  induction first with
  | nil => simp
  | cons character rest inductionHypothesis =>
      rw [List.cons_append, byteLength_cons, byteLength_cons, inductionHypothesis,
        Nat.add_assoc]

/-- The longest run of whole characters within the first bytes of a text. -/
def takeBytes : List Char → Nat → List Char
  | [], _ => []
  | character :: rest, count =>
    if character.utf8Size ≤ count then
      character :: takeBytes rest (count - character.utf8Size)
    else []

/-- The bytes of a text in UTF-8. -/
def utf8Bytes (text : List Char) : List UInt8 := text.flatMap String.utf8EncodeChar

namespace Blank

/-- A text spans several lines when one of its bytes is a line feed or a carriage return, or one
of its characters a separator. -/
def hasLineBreak (text : String) : Bool :=
  (utf8Bytes text.toList).any (fun byte => byte == 0x0a || byte == 0x0d) ||
    text.toList.any isSeparator

end Blank

/-- The last index of a window at which an item does not exceed the target, or the first index
where all of them do. The window is halved until one index is left. -/
def lastWithin (items : List Nat) (target low size : Nat) : Nat :=
  if 1 < size then
    let middle := low + size / 2
    lastWithin items target (if target < items.getD middle 0 then low else middle)
      (size - size / 2)
  else low
termination_by size

/-- The index at which a value stands among increasing items, or else, as an error, the index at
which it would have to be inserted. -/
def binarySearch (items : List Nat) (target : Nat) : Except Nat Nat :=
  let index := lastWithin items target 0 items.length
  match items[index]? with
  | none => .error index
  | some item =>
    if item = target then .ok index
    else .error (if item < target then index + 1 else index)

/-- A line map lists the offset at which each line starts. -/
structure LineMap where
  starts : List Nat
deriving DecidableEq, Repr

namespace LineMap

/-- The offsets just after the terminators among the bytes from an offset on. No terminator is
looked for before the mark, which a carriage return sets behind the line feed that follows it. -/
def startsIn : Nat → Nat → List UInt8 → List Nat
  | _, _, [] => []
  | mark, offset, byte :: rest =>
    if offset < mark then startsIn mark (offset + 1) rest
    else if byte == 0x0d && rest[0]? == some 0x0a then
      (offset + 2) :: startsIn (offset + 2) (offset + 1) rest
    else if byte == 0x0d || byte == 0x0a then (offset + 1) :: startsIn mark (offset + 1) rest
    else if byte == 0xe2 && rest[0]? == some 0x80 &&
        (rest[1]? == some 0xa8 || rest[1]? == some 0xa9) then
      (offset + 3) :: startsIn mark (offset + 1) rest
    else startsIn mark (offset + 1) rest

/-- The line map of a text; its first line starts at zero. -/
def ofText (text : List Char) : LineMap :=
  ⟨0 :: startsIn 0 0 (utf8Bytes text)⟩

/-- The number of lines is one more than the number of terminators. -/
def lineCount (map : LineMap) : Nat :=
  map.starts.length

/-- The line of an offset, counted from zero, is the one that starts there, or else the one before
the first that starts later. -/
def lineOf (map : LineMap) (offset : Nat) : Nat :=
  match binarySearch map.starts offset with
  | .ok line => line
  | .error line => line - 1

/-- The start of a line counted from zero. -/
def lineStart (map : LineMap) (line : Nat) : Nat :=
  map.starts.getD line 0

/-- The column of an offset counts the bytes since its line started. -/
def positionOf (map : LineMap) (offset : Nat) : Position :=
  let line := map.lineOf offset
  ⟨line + 1, offset - map.lineStart line⟩

/-- The start of the last line. -/
def lastStart (map : LineMap) : Nat :=
  map.starts.getLastD 0

end LineMap

/-- The position of one offset looks only at the whole characters before it. -/
def locate (text : List Char) (offset : Nat) : Position :=
  (LineMap.ofText (takeBytes text offset)).positionOf offset

end EcmaSyntax
