import EcmaSyntax.Lexer.Number
import EcmaSyntax.Lexer.Quoted
import EcmaSyntax.Lexer.Space

namespace EcmaSyntax

namespace Lexer

/-- A point alone, three of them, or one that begins a number. -/
def readDot : Scan Unit := do
  if (← peek 1).any (Digit.isDigit 10) then readNumber true
  else if (← peekIs 1 '.') && (← peekIs 2 '.') then finishMark .ellipsis 3
  else finishMark .dot 1

/-- A slash begins a regular expression where an expression may start, and divides
elsewhere. -/
def readSlash : Scan Unit := do
  if (← get).exprAllowed then
    advance 1
    readRegExp
  else if ← peekIs 1 '=' then finishOperator .assign 2
  else finishOperator .slash 1

/-- A star or a percent sign, perhaps with a second star or an equals sign. -/
def readStarModulo (character : Char) : Scan Unit := do
  let single := if character == '*' then Kind.star else Kind.modulo
  if ← peekIs 1 '*' then
    if ← peekIs 2 '=' then finishOperator .assign 3 else finishOperator .exponent 2
  else if ← peekIs 1 '=' then finishOperator .assign 2
  else finishOperator single 1

/-- A bar or an ampersand, once or twice or with an equals sign. -/
def readBarAmpersand (character : Char) (twice once : Kind) : Scan Unit := do
  if ← peekIs 1 character then finishOperator twice 2
  else if ← peekIs 1 '=' then finishOperator .assign 2
  else finishOperator once 1

def readCaret : Scan Unit := do
  if ← peekIs 1 '=' then finishOperator .assign 2 else finishOperator .bitwiseXor 1

/-- A comment of markup, opened by so many bytes, runs to the end of its line; after it the
reading goes on. -/
def passMarkupComment (opening : Nat) (resume : Scan Unit) : Scan Unit := do
  passLineComment opening
  skipSpace
  resume

/-- A plus or minus sign. Two of them and a closing bracket at the start of a line are the
end of a comment of markup. -/
def readPlusMinus (character : Char) (resume : Scan Unit) : Scan Unit := do
  if ← peekIs 1 character then
    let state ← get
    if character == '-' && (← peekIs 2 '>') && (← breaksBetween state.lastStop state.pos) then
      passMarkupComment 3 resume
    else finishOperator .incDec 2
  else if ← peekIs 1 '=' then finishOperator .assign 2
  else finishOperator .plusMin 1

/-- A bracket of comparison or a shift. An opening bracket with the start of a comment of
markup is refused in a module. -/
def readAngle (character : Char) (resume : Scan Unit) : Scan Unit := do
  if ← peekIs 1 character then
    let length := if character == '>' && (← peekIs 2 '>') then 3 else 2
    if ← peekIs length '=' then finishOperator .assign (length + 1)
    else finishOperator .bitShift length
  else if character == '<' && (← peekIs 1 '!') && (← peekIs 2 '-') && (← peekIs 3 '-') then
    if (← read).isModule then unexpected none
    else passMarkupComment 4 resume
  else if ← peekIs 1 '=' then
    finishOperator .relational (if ← peekIs 2 '=' then 3 else 2)
  else finishOperator .relational 1

/-- An equals sign or an exclamation mark, alone or in a comparison, or an arrow. -/
def readEqualsBang (character : Char) : Scan Unit := do
  if ← peekIs 1 '=' then finishOperator .equality (if ← peekIs 2 '=' then 3 else 2)
  else if character == '=' && (← peekIs 1 '>') then finishMark .arrow 2
  else finishOperator (if character == '=' then .eq else .prefixOp) 1

/-- A zero begins a number, whose radix the next character may give. -/
def readZero : Scan Unit := do
  match ← peek 1 with
  | some 'x' => readRadixNumber 16
  | some 'X' => readRadixNumber 16
  | some 'o' => readRadixNumber 8
  | some 'O' => readRadixNumber 8
  | some 'b' => readRadixNumber 2
  | some 'B' => readRadixNumber 2
  | _ => readNumber false

/-- A colon, once or twice. -/
def readColon : Scan Unit := do
  if ← peekIs 1 ':' then finishOperator .doubleColon 2 else finishMark .colon 1

/-- A token that begins with the given character, which begins no word. -/
def readMark (character : Char) (resume : Scan Unit) : Scan Unit :=
  match character with
  | '.' => readDot
  | '(' => finishMark .parenL 1
  | ')' => finishMark .parenR 1
  | ';' => finishMark .semi 1
  | ',' => finishMark .comma 1
  | '[' => finishMark .bracketL 1
  | ']' => finishMark .bracketR 1
  | '\x7b' => finishMark .braceL 1
  | '\x7d' => finishMark .braceR 1
  | ':' => readColon
  | '?' => finishMark .question 1
  | '@' => finishMark .at 1
  | '\x60' => finishMark .backQuote 1
  | '0' => readZero
  | '"' => readString '"'
  | '\'' => readString '\''
  | '/' => readSlash
  | '%' => readStarModulo character
  | '*' => readStarModulo character
  | '|' => readBarAmpersand character .logicalOr .bitwiseOr
  | '&' => readBarAmpersand character .logicalAnd .bitwiseAnd
  | '^' => readCaret
  | '+' => readPlusMinus character resume
  | '-' => readPlusMinus character resume
  | '<' => readAngle character resume
  | '>' => readAngle character resume
  | '=' => readEqualsBang character
  | '!' => readEqualsBang character
  | '~' => finishOperator .prefixOp 1
  | _ => do
    if Digit.isDigit 10 character then readNumber false
    else raise (← get).pos (.unexpectedCharacter character)

/-- A token of the plain language that begins with the given character. -/
def readPlain (character : Char) (resume : Scan Unit) : Scan Unit :=
  if Identifier.isStart character || character == '\\' then readWord
  else readMark character resume

end Lexer

end EcmaSyntax
