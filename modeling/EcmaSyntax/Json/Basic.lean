namespace EcmaSyntax

/-- A JSON value keeps whole numbers apart from binary floating-point numbers.
The members of an object keep their order, and the last of several under one name counts. -/
inductive Json where
  | null
  | bool (value : Bool)
  | whole (value : Int)
  | float (value : Float)
  | string (value : String)
  | array (items : List Json)
  | object (members : List (String × Json))
deriving Inhabited

namespace Json

def nat (value : Nat) : Json := .whole (Int.ofNat value)

/-- A floating-point number; one without bound is null. -/
def ofFloat (value : Float) : Json := if value.isFinite then .float value else .null

/-- An absent value is null. -/
def orNull : Option Json → Json
  | some value => value
  | none => .null

def optionalNat (value : Option Nat) : Json := orNull (value.map nat)

def optionalString (value : Option String) : Json := orNull (value.map Json.string)

/-- The last member under a name. -/
def lastUnder (name : String) (members : List (String × Json)) : Option Json :=
  (members.reverse.find? (·.1 == name)).map Prod.snd

/-- The member of an object under a name. -/
def member? (value : Json) (name : String) : Option Json :=
  match value with
  | .object members => lastUnder name members
  | _ => none

def isNull : Json → Bool
  | .null => true
  | _ => false

/-- The number that a value holds, in binary floating point. -/
def number? : Json → Option Float
  | .whole value => some (Float.ofInt value)
  | .float value => some value
  | _ => none

/-- A member enters a list sorted by name unless its name is there. -/
def insertMember (name : String) (value : Json) :
    List (String × Json) → List (String × Json)
  | [] => [(name, value)]
  | (other, held) :: rest =>
    if name < other then (name, value) :: (other, held) :: rest
    else if name = other then (other, held) :: rest
    else (other, held) :: insertMember name value rest

mutual

/-- The value with the members of its objects sorted by name, each name once. -/
def sorted : Json → Json
  | .array items => .array (sortedItems items)
  | .object members => .object (sortedMembers members)
  | value => value

def sortedItems : List Json → List Json
  | [] => []
  | item :: rest => sorted item :: sortedItems rest

def sortedMembers : List (String × Json) → List (String × Json)
  | [] => []
  | (name, value) :: rest => insertMember name (sorted value) (sortedMembers rest)

end

end Json

end EcmaSyntax
