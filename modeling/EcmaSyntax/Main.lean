import EcmaSyntax.CommandLine

namespace EcmaSyntax

/-- The text of a file, or the reason for which it cannot be read. -/
def readText (path : String) : IO (Except String String) := do
  try return .ok (← IO.FS.readFile path)
  catch problem => return .error ("reading " ++ path ++ ": " ++ toString problem)

/-- The options of a command, or the reason for which there are none. -/
def readOptions (command : Command) : IO (Except String Options) := do
  match command.optionsFile with
  | none => return (command.options? none).elim (.error "invalid options") .ok
  | some path =>
    match ← readText path with
    | .error problem => return .error problem
    | .ok text =>
      return (command.options? (some text)).elim (.error ("invalid options in " ++ path)) .ok

/-- A file is parsed, and its tree or the failure is printed. -/
def printTree (command : Command) (options : Options) (path : String) : IO Bool := do
  match ← readText path with
  | .error problem =>
    IO.eprintln problem
    return false
  | .ok text =>
    match parse text options with
    | .ok file =>
      if command.verbose then
        IO.eprintln (path ++ ": " ++ toString file.statements.length ++ " statements")
      IO.println (command.render file)
      return true
    | .error failure =>
      IO.eprintln (Command.explain path text failure)
      return false

/-- A command is run; the result is the exit code. -/
def run (command : Command) : IO UInt32 := do
  for name in command.unknownDialects do
    IO.eprintln ("ignoring unknown plugin " ++ name)
  match ← readOptions command with
  | .error problem =>
    IO.eprintln problem
    return 2
  | .ok options =>
    let printed ← command.files.mapM (printTree command options)
    return if printed.all id then 0 else 1

end EcmaSyntax

/-- The program ends with code 1 if a file has no tree, and with code 2 if it is used wrongly. -/
def main (arguments : List String) : IO UInt32 := do
  match EcmaSyntax.Command.ofArguments arguments with
  | .ok command => EcmaSyntax.run command
  | .error problem =>
    IO.eprintln (problem ++ "\n\n" ++ EcmaSyntax.Command.usage)
    return 2
