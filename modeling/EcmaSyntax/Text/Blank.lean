namespace EcmaSyntax

namespace Blank

/-- Line feed, carriage return, and the two Unicode separators end a line. -/
def isLineBreak (character : Char) : Bool :=
  character == '\n' || character == '\r' || character == '\u2028' || character == '\u2029'

/-- A separator is a line terminator of more than one byte. -/
def isSeparator (character : Char) : Bool :=
  character == '\u2028' || character == '\u2029'

/-- White space outside ASCII that ends no line; the no-break space counts separately. -/
def isWide (character : Char) : Bool :=
  character == '\u1680' || character == '\u180e' ||
    ('\u2000' ≤ character && character ≤ '\u200a') ||
    character == '\u202f' || character == '\u205f' || character == '\u3000' ||
    character == '\ufeff'

/-- White space that stands between two tokens of one line. -/
def isInline (character : Char) : Bool :=
  character == ' ' || character == '\t' || character == '\x0b' || character == '\x0c' ||
    character == '\u00a0' || isWide character

/-- A token may be preceded by every kind of white space, line terminators included. -/
def isBlank (character : Char) : Bool :=
  isInline character || isLineBreak character

/-- A character that breaks a line is blank. -/
theorem isBlank_of_isLineBreak {character : Char} (ends : isLineBreak character = true) :
    isBlank character = true := by
  simp [isBlank, ends]

/-- A blank within a line is blank. -/
theorem isBlank_of_isInline {character : Char} (inside : isInline character = true) :
    isBlank character = true := by
  simp [isBlank, inside]

end Blank

namespace LineEnding

/-- Each carriage return that a line feed follows is dropped. -/
def unify : List Char → List Char
  | [] => []
  | '\r' :: '\n' :: rest => '\n' :: unify rest
  | character :: rest => character :: unify rest

/-- The text with every break of two characters replaced by a line feed. -/
def normalize (text : String) : String :=
  String.ofList (unify text.toList)

/-- A line feed stands for a carriage return. -/
def feed (character : Char) : Char := if character == '\r' then '\n' else character

end LineEnding

end EcmaSyntax
