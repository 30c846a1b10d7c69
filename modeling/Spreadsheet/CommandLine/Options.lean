/-! What the command line asks for. -/

namespace Spreadsheet.CommandLine

structure Options where
  /-- A script to load. -/
  script : Option String := none
  /-- A formula to evaluate. -/
  command : Option String := none
  /-- A file of settings. -/
  settings : Option String := none
  verbose : Bool := false
  deriving DecidableEq, Repr

/-- Why the arguments ask for nothing that can be done. -/
inductive Misuse where
  | help
  | missingFormula
  | missingPath
  | unknownOption (argument : String)
  | extraArgument (argument : String)
  /-- Neither a script nor a formula. -/
  | nothingToDo
  deriving DecidableEq, Repr

def usage : List String :=
  ["Usage: gridcalc [OPTIONS] [FILE]",
    "",
    "Arguments:",
    "  [FILE]                    Script of 'CELL: value' lines to load",
    "",
    "Options:",
    "  -c, --command <FORMULA>   Evaluate a formula and print the result",
    "  --config <FILE>           Load settings from a TOML file",
    "  -v, --verbose             Log recalculation details to stderr",
    "  -h, --help                Print help"]

namespace Misuse

/-- The lines that are printed. -/
def lines : Misuse → List String
  | help | nothingToDo => usage
  | missingFormula => ["Error: --command requires a formula"]
  | missingPath => ["Error: --config requires a file path"]
  | unknownOption argument => ("Error: Unknown option: " ++ argument) :: usage
  | extraArgument argument => ("Error: Unexpected argument: " ++ argument) :: usage

def exitCode : Misuse → Nat
  | help => 0
  | _ => 1

end Misuse

namespace Options

/-- Read arguments on top of options; the first that makes no sense decides. -/
def readOnto (o : Options) : List String → Except Misuse Options
  | [] => .ok o
  | argument :: rest =>
    if argument = "-h" ∨ argument = "--help" then .error .help
    else if argument = "-c" ∨ argument = "--command" then
      match rest with
      | formula :: rest => readOnto { o with command := some formula } rest
      | [] => .error .missingFormula
    else if argument = "--config" then
      match rest with
      | path :: rest => readOnto { o with settings := some path } rest
      | [] => .error .missingPath
    else if argument = "-v" ∨ argument = "--verbose" then readOnto { o with verbose := true } rest
    else if argument.toList.head? = some '-' then .error (.unknownOption argument)
    else if o.script.isNone then readOnto { o with script := some argument } rest
    else .error (.extraArgument argument)

/-- The options that arguments describe, which must ask for something. -/
def read (arguments : List String) : Except Misuse Options := do
  let o ← readOnto {} arguments
  if o.script.isNone && o.command.isNone then .error .nothingToDo else return o

end Options

end Spreadsheet.CommandLine
