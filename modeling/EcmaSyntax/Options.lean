import EcmaSyntax.Json.Basic
import EcmaSyntax.Tree.Node

namespace EcmaSyntax

/-- A dialect extends the grammar: with types, or with markup. -/
inductive Dialect where
  | flow
  | jsx
deriving DecidableEq, Inhabited, Repr

namespace Dialect

/-- The name under which a dialect is chosen. -/
def name : Dialect → String
  | .flow => "flow"
  | .jsx => "jsx"

/-- The dialect of a name; other names stand for rules that always hold. -/
def ofName? (name : String) : Option Dialect :=
  if name = "flow" then some .flow else if name = "jsx" then some .jsx else none

end Dialect

/-- The options of a parse. -/
structure Options where
  sourceType : SourceType := .script
  /-- A return may stand outside of a function. -/
  allowReturn : Bool := false
  /-- An import or export may stand anywhere, also in a script. -/
  allowImportExport : Bool := false
  /-- The word for the parent class may stand outside of a method. -/
  allowSuper : Bool := false
  /-- A module is strict code. -/
  strictMode : Bool := true
  /-- The dialects, each once, in the order in which they were chosen. -/
  dialects : List Dialect := []
deriving DecidableEq, Inhabited, Repr

namespace Options

/-- A dialect is chosen. -/
def hasDialect (options : Options) (dialect : Dialect) : Bool :=
  options.dialects.contains dialect

/-- The options with one more dialect, unless it is chosen. -/
def withDialect (options : Options) (dialect : Dialect) : Options :=
  if options.hasDialect dialect then options
  else { options with dialects := options.dialects ++ [dialect] }

/-- The code is strict from its start. -/
def startsStrict (options : Options) : Bool :=
  options.strictMode && options.sourceType == .module

/-- A mark that an object sets, or the given value if it does not speak of it. -/
def readFlag? (value : Json) (name : String) (usual : Bool) : Option Bool :=
  match value.member? name with
  | none => some usual
  | some (.bool flag) => some flag
  | some _ => none

/-- The kind of code that a word names. -/
def readSourceWord? (word : String) : Option SourceType :=
  if word = "script" then some .script else if word = "module" then some .module else none

/-- The kind of code that an object sets, as a word or as a word that holds nothing. -/
def readSourceType? (isNothing : Json → Bool) (value : Json) : Option SourceType :=
  match value.member? "sourceType" with
  | none => some .script
  | some (.string word) => readSourceWord? word
  | some (.object [(word, held)]) => if isNothing held then readSourceWord? word else none
  | some _ => none

/-- The names in a list that holds nothing else. -/
def readNames? : List Json → Option (List String)
  | [] => some []
  | .string name :: rest => (readNames? rest).map (name :: ·)
  | _ :: _ => none

/-- The dialects that an object chooses. -/
def readDialects? (value : Json) : Option (List Dialect) :=
  match value.member? "plugins" with
  | none => some []
  | some (.array items) =>
    (readNames? items).map fun names => (names.filterMap Dialect.ofName?).eraseDups
  | some _ => none

/-- The options that an object sets; a field of the wrong kind spoils all of them. It is
given which values are nothing. -/
def ofJsonWith? (isNothing : Json → Bool) (value : Json) : Option Options :=
  match value with
  | .object _ => do
    return {
      sourceType := ← readSourceType? isNothing value
      allowReturn := ← readFlag? value "allowReturnOutsideFunction" false
      allowImportExport := ← readFlag? value "allowImportExportEverywhere" false
      allowSuper := ← readFlag? value "allowSuperOutsideMethod" false
      strictMode := ← readFlag? value "strictMode" true
      dialects := ← readDialects? value }
  | _ => none

/-- The options that an object sets, where only null is nothing. -/
def ofJson? (value : Json) : Option Options := ofJsonWith? Json.isNull value

/-- The names of the fields that an object may set. -/
def fieldNames : List String :=
  ["sourceType", "allowReturnOutsideFunction", "allowImportExportEverywhere",
    "allowSuperOutsideMethod", "strictMode", "plugins"]

/-- The options as an object that sets every field. -/
def toJson (options : Options) : Json :=
  .object [("sourceType", .string options.sourceType.text),
    ("allowReturnOutsideFunction", .bool options.allowReturn),
    ("allowImportExportEverywhere", .bool options.allowImportExport),
    ("allowSuperOutsideMethod", .bool options.allowSuper),
    ("strictMode", .bool options.strictMode),
    ("plugins", .array (options.dialects.map fun dialect => .string dialect.name))]

end Options

end EcmaSyntax
