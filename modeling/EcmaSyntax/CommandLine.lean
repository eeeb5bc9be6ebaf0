import EcmaSyntax.Grammar.Program
import EcmaSyntax.Json.Writer
import EcmaSyntax.Json.Reader
import EcmaSyntax.Tree.Json

namespace EcmaSyntax

/-- A command is what the arguments of the program ask for. -/
structure Command where
  /-- The files to parse, in order. -/
  files : List String := []
  /-- The kind of code, in place of the one that the options set. -/
  sourceType : Option SourceType := none
  /-- The names of dialects to choose in addition. -/
  dialects : List String := []
  /-- The file that holds the options. -/
  optionsFile : Option String := none
  /-- The trees are printed with their tokens. -/
  withTokens : Bool := false
  /-- The trees are printed without blanks. -/
  compact : Bool := false
  /-- The progress is told. -/
  verbose : Bool := false
deriving Inhabited

namespace Command

/-- How the program is used. -/
def usage : String :=
  "Usage: ecmasyntax [--source-type script|module] [--plugins NAME,...] [--options JSON]\n" ++
    "         [--tokens] [--compact] [--verbose] FILE..."

/-- The arguments that take a value. -/
def valued : List String := ["--source-type", "--plugins", "--options"]

/-- An argument may hold its value after an equals sign, as if it were the next argument. -/
def separateValue (argument : String) : List String :=
  match argument.splitOn "=" with
  | name :: first :: rest =>
    if valued.contains name then [name, "=".intercalate (first :: rest)] else [argument]
  | _ => [argument]

/-- The command after an argument that takes a value. -/
def withValue (command : Command) (name value : String) : Except String Command :=
  match name with
  | "--source-type" =>
    match Options.readSourceWord? value with
    | some sourceType => .ok { command with sourceType := some sourceType }
    | none => .error ("invalid value '" ++ value ++ "' for '--source-type'")
  | "--plugins" => .ok { command with dialects := command.dialects ++ value.splitOn "," }
  | _ => .ok { command with optionsFile := some value }

/-- The command after an argument that stands alone, which is a file unless it is a word of
the program. -/
def withWord (command : Command) (word : String) : Except String Command :=
  match word with
  | "--tokens" => .ok { command with withTokens := true }
  | "--compact" => .ok { command with compact := true }
  | "--verbose" | "-v" => .ok { command with verbose := true }
  | _ =>
    if word.startsWith "-" && word != "-" then .error ("unexpected argument '" ++ word ++ "'")
    else .ok { command with files := command.files ++ [word] }

/-- The arguments are taken in turn; after two dashes all of them are files. -/
def take : List String → Command → Except String Command
  | [], command => .ok command
  | "--" :: rest, command => .ok { command with files := command.files ++ rest }
  | [name], command =>
    if valued.contains name then .error ("a value is required for '" ++ name ++ "'")
    else command.withWord name
  | name :: value :: rest, command =>
    if valued.contains name then do take rest (← command.withValue name value)
    else do take (value :: rest) (← command.withWord name)

/-- The command that the arguments give; it names a file. -/
def ofArguments (arguments : List String) : Except String Command := do
  let (named, others) := arguments.span (· != "--")
  let command ← take (named.flatMap separateValue ++ others) {}
  if command.files.isEmpty then throw "no file is given"
  return command

/-- The names of dialects that no dialect has. -/
def unknownDialects (command : Command) : List String :=
  command.dialects.filter fun name => (Dialect.ofName? name).isNone

/-- The options of the command, given the text of the file for them if it names one. -/
def options? (command : Command) (text : Option String) : Option Options := do
  let read ←
    match text with
    | some text => (Json.read? Json.depthLimit text).bind Options.ofJson?
    | none => some {}
  let typed :=
    match command.sourceType with
    | some sourceType => { read with sourceType := sourceType }
    | none => read
  return (command.dialects.filterMap Dialect.ofName?).foldl Options.withDialect typed

/-- What is printed for a file. -/
def render (command : Command) (file : File) : String :=
  let tree := (file.toJson .ofFloat command.withTokens).sorted
  if command.compact then tree.write else tree.layOut

/-- What is told of a failure in a file: its message, and the line in which it lies. -/
def explain (path text : String) (failure : Failure) : String :=
  let lines := (LineEnding.normalize text).splitOn "\n"
  match failure.loc? with
  | some loc =>
    path ++ ": " ++ failure.message ++ "\n  " ++ (lines[loc.line - 1]?).getD ""
  | none => path ++ ": " ++ failure.message

end Command

end EcmaSyntax
