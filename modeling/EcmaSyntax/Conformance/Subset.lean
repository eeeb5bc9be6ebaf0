import EcmaSyntax.Json.Writer

namespace EcmaSyntax

namespace Json

/-- Two values that hold no others are the same; numbers are compared in binary floating
point. -/
def sameLeaf : Json → Json → Bool
  | .null, .null => true
  | .bool first, .bool second => first == second
  | .string first, .string second => first == second
  | first, second =>
    match first.number?, second.number? with
    | some first, some second => first == second
    | _, _ => false

/-- The message for two values of which one should be the other. -/
def differMessage (expected actual : Json) (path : String) : String :=
  path ++ ": expected " ++ expected.write ++ ", got " ++ actual.write

mutual

/-- The first place where a value is not as expected, with the path to it. Objects may have
more members than expected, and a member that is missing is null; lists have to agree item
by item. -/
def mismatch? : Json → Json → String → Option String
  | .object expected, .object actual, path => membersMismatch? expected actual path
  | .array expected, .array actual, path =>
    if expected.length = actual.length then itemsMismatch? expected actual path 0
    else
      some (path ++ ": expected " ++ toString expected.length ++ " elements, got " ++
        toString actual.length)
  | expected, actual, path =>
    if sameLeaf expected actual then none else some (differMessage expected actual path)

def membersMismatch? :
    List (String × Json) → List (String × Json) → String → Option String
  | [], _, _ => none
  | (name, expected) :: rest, actual, path =>
    let child := path ++ "." ++ name
    let found :=
      match lastUnder name actual with
      | some held => mismatch? expected held child
      | none => if expected.isNull then none else some (child ++ ": missing")
    match found with
    | some message => some message
    | none => membersMismatch? rest actual path

def itemsMismatch? : List Json → List Json → String → Nat → Option String
  | expected :: rest, actual :: others, path, index =>
    match mismatch? expected actual (path ++ "[" ++ toString index ++ "]") with
    | some message => some message
    | none => itemsMismatch? rest others path (index + 1)
  | _, _, _, _ => none

end

/-- The first place where a value is not as expected, the members of objects taken by name. -/
def subsetMismatch? (expected actual : Json) (path : String) : Option String :=
  mismatch? expected.sorted actual.sorted path

end Json

end EcmaSyntax
