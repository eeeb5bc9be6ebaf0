import EcmaSyntax.Text.LineMap
import EcmaSyntax.Token.Kind

namespace EcmaSyntax

/-- The value of a token: nothing for punctuation, and the text, number or expression that
the other tokens spell. -/
inductive Value where
  | none
  | text (text : String)
  | number (value : Float)
  | regexp (pattern flags : String)
deriving Inhabited

namespace Value

def text? : Value → Option String
  | .text content => some content
  | _ => Option.none

def number? : Value → Option Float
  | .number value => some value
  | _ => Option.none

end Value

/-- A token with the bytes and the positions that it covers. -/
structure Token where
  kind : Kind
  value : Value
  start : Nat
  stop : Nat
  loc : Location
deriving Inhabited

/-- A comment, its value without the marks that open and close it. -/
structure Comment where
  isBlock : Bool
  value : String
  start : Nat
  stop : Nat
  loc : Location
deriving DecidableEq, Inhabited, Repr

/-- An entry of the record of a text is a token or a comment. -/
inductive Entry where
  | token (token : Token)
  | comment (comment : Comment)
deriving Inhabited

namespace Entry

def start : Entry → Nat
  | .token read => read.start
  | .comment passed => passed.start

def stop : Entry → Nat
  | .token read => read.stop
  | .comment passed => passed.stop

def token? : Entry → Option Token
  | .token read => some read
  | .comment _ => none

def comment? : Entry → Option Comment
  | .token _ => none
  | .comment passed => some passed

end Entry

end EcmaSyntax
