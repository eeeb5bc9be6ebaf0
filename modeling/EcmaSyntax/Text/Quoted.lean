import EcmaSyntax.Text.Identifier
import EcmaSyntax.Text.VisibleTable

namespace EcmaSyntax

namespace Quoted

/-- A character shows by itself: it has a shape, which stands apart from the character
before it. -/
def isVisible (character : Char) : Bool :=
  let code := character.toNat
  0x20 ≤ code && !CodeRange.within VisibleTable.shapeless code &&
    !CodeRange.within VisibleTable.joining code

/-- A character as it stands between quotes. -/
def quotedChar (character : Char) : List Char :=
  match character with
  | '"' => ['\\', '"']
  | '\\' => ['\\', '\\']
  | '\n' => ['\\', 'n']
  | '\r' => ['\\', 'r']
  | '\t' => ['\\', 't']
  | '\x00' => ['\\', '0']
  | _ =>
    if isVisible character then [character]
    else ['\\', 'u', '\x7b'] ++ Nat.toDigits 16 character.toNat ++ ['\x7d']

/-- A text between quotes. -/
def quote (text : String) : String :=
  String.ofList ('"' :: text.toList.flatMap quotedChar ++ ['"'])

end Quoted

end EcmaSyntax
