import EcmaSyntax.Text.IdentifierTable

namespace EcmaSyntax

namespace CodeRange

/-- A code point belongs to a list of ranges, each a first and a last one, when some range
holds it. -/
def within (ranges : List (Nat × Nat)) (code : Nat) : Bool :=
  ranges.any fun range => range.1 ≤ code && code ≤ range.2

end CodeRange

namespace Identifier

/-- A name begins with a letter, a dollar sign or an underscore. -/
def isStart (character : Char) : Bool :=
  if character.toNat < 128 then character.isAlpha || character == '$' || character == '_'
  else CodeRange.within IdentifierTable.starts character.toNat

/-- A name goes on with letters, digits, dollar signs, underscores and combining marks. -/
def isPart (character : Char) : Bool :=
  isStart character ||
    if character.toNat < 128 then character.isDigit
    else CodeRange.within IdentifierTable.extensions character.toNat

/-- A character that begins a name may also stand within it. -/
theorem isPart_of_isStart {character : Char} (begins : isStart character = true) :
    isPart character = true := by
  simp [isPart, begins]

end Identifier

namespace Word

/-- The keywords, which are never identifiers unless an escape spells them. -/
def keywords : List String :=
  ["break", "case", "catch", "continue", "debugger", "default", "do", "else", "finally",
    "for", "function", "if", "return", "switch", "throw", "try", "var", "while", "with",
    "null", "true", "false", "instanceof", "typeof", "void", "delete", "new", "in", "this",
    "let", "const", "class", "extends", "export", "import", "yield", "super"]

/-- The words that strict code keeps from use as identifiers. -/
def strictReserved : List String :=
  ["implements", "interface", "let", "package", "private", "protected", "public", "static",
    "yield"]

/-- The names that strict code may not bind. -/
def strictBound : List String := ["eval", "arguments"]

def isKeyword (word : String) : Bool := keywords.contains word

def isStrictReserved (word : String) : Bool := strictReserved.contains word

def isStrictBound (word : String) : Bool := strictBound.contains word

/-- Strict code refuses a binding or assignment of these names. -/
def isUnbindable (word : String) : Bool := isStrictBound word || isStrictReserved word

end Word

end EcmaSyntax
