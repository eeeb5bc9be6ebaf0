import EcmaSyntax.Conformance.Subset
import EcmaSyntax.Grammar.Program
import EcmaSyntax.Json.Reader
import EcmaSyntax.Text.Quoted
import EcmaSyntax.Tree.Json

namespace EcmaSyntax

namespace Conformance

/-- A case is a directory of files, which has a name within its category. -/
structure Case where
  category : String
  name : String
  files : List (String × String)

/-- The outcome of a case, a failure if it did not pass. -/
structure Outcome where
  category : String
  name : String
  failure : Option String

namespace Case

/-- The content of a file; of several under one name the last counts. -/
def file? (case : Case) (name : String) : Option String :=
  (case.files.reverse.find? fun file => file.1 == name).map Prod.snd

/-- The case comes before another one, by category and then by name. -/
def precedes (first second : Case) : Bool :=
  first.category < second.category ||
    (first.category == second.category && first.name < second.name)

/-- A case enters a sorted list; the files of cases under one name come together. -/
def insert (case : Case) : List Case → List Case
  | [] => [case]
  | other :: rest =>
    if case.precedes other then case :: other :: rest
    else if other.precedes case then other :: insert case rest
    else { other with files := other.files ++ case.files } :: rest

/-- The cases that have a text to parse, sorted, each once. -/
def discover (cases : List Case) : List Case :=
  (cases.foldl (fun found case => case.insert found) []).filter fun case =>
    (case.file? "actual.js").isSome

end Case

/-- What a case asks of a parse: its options, and an error if one is expected. -/
structure Expectation where
  options : Options := {}
  throws : Option String := none

/-- The names of an object are not repeated, as far as they are known. -/
def namesOnce (known : List String) (members : List (String × Json)) : Bool :=
  known.all fun name => (members.filter fun member => member.1 == name).length ≤ 1

/-- In the options of a case an empty object is nothing, as null is. -/
def isNothing : Json → Bool
  | .null => true
  | .object [] => true
  | _ => false

/-- The expectation that an object sets. -/
def Expectation.ofJson? (value : Json) : Option Expectation := do
  let .object members := value | none
  if !namesOnce ("throws" :: Options.fieldNames) members then none
  let options ← Options.ofJsonWith? isNothing value
  match value.member? "throws" with
  | none => return { options }
  | some .null => return { options }
  | some (.string message) => return { options, throws := some message }
  | some _ => none

/-- The expectation of a case, which has no options unless it has a file for them. -/
def Case.expectation (case : Case) : Except String Expectation :=
  match case.file? "options.json" with
  | none => .ok {}
  | some text =>
    match (Json.read? Json.depthLimit text).bind Expectation.ofJson? with
    | some expectation => .ok expectation
    | none => .error "options.json:"

/-- The tree of a parse is as a case expects it. -/
def Case.checkTree (case : Case) (root : String) (file : File) : Except String Unit := do
  let some text := case.file? "expected.json"
    | throw (root ++ "/" ++ case.category ++ "/" ++ case.name ++
        "/expected.json: No such file or directory (os error 2)")
  let some expected := Json.read? Json.depthLimit text | throw "expected.json:"
  match Json.subsetMismatch? expected (file.toJson .ofFloat true) "$" with
  | some message => throw message
  | none => return

/-- A case passes, or fails with a message. The cases stand in a directory of the given
name. -/
def Case.check (case : Case) (root : String) : Except String Unit := do
  let expectation ← case.expectation
  let result := parse ((case.file? "actual.js").getD "") expectation.options
  match expectation.throws, result with
  | some message, .error failure =>
    if failure.message != message then
      throw ("expected error " ++ Quoted.quote message ++ ", got " ++
        Quoted.quote failure.message)
  | some message, .ok _ =>
    throw ("expected error " ++ Quoted.quote message ++ ", but parsing succeeded")
  | none, .error failure => throw ("unexpected error: " ++ failure.message)
  | none, .ok file => case.checkTree root file

/-- The outcome of a case. -/
def Case.run (case : Case) (root : String) : Outcome :=
  let failure :=
    match case.check root with
    | .ok _ => none
    | .error message => some message
  { category := case.category, name := case.name, failure }

/-- The outcomes of a suite, sorted. -/
def run (root : String) (cases : List Case) : List Outcome :=
  (Case.discover cases).map fun case => case.run root

end Conformance

end EcmaSyntax
