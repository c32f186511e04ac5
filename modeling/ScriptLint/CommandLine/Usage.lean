import ScriptLint.CommandLine.Basic
import ScriptLint.Outcome

/-!
# Answers about usage

A command line that leads to no command is answered at once: with the help or the version if it
asks for that, and otherwise with what is wrong and how the program is called.
-/

namespace ScriptLint

/-- What is printed and what is told instead of running a command. -/
structure UsageAnswer where
  status : ExitStatus
  output : String := ""
  notice : String := ""
  deriving DecidableEq, Repr

namespace UsageAnswer

def version : String := "gdsmell 0.1.0\n"

def usageLine : String := "Usage: gdsmell [OPTIONS] <COMMAND>\n"

def help : String :=
  "Find code smells in GDScript files\n\n" ++ usageLine ++
    "\nCommands:\n" ++
    "  check            Analyze a GDScript file or project directory\n" ++
    "  rules            List the built-in rules\n" ++
    "  init             Generate a default configuration file\n" ++
    "  config validate  Validate a configuration file\n" ++
    "  config show      Display the effective configuration\n" ++
    "  help             Print this message\n" ++
    "\nOptions:\n" ++
    "  -v, --verbose...     Increase output verbosity\n" ++
    "  -q, --quiet          Suppress non-essential output\n" ++
    "      --color <COLOR>  Control color output [possible values: auto, always, never]\n" ++
    "      --no-config      Skip loading configuration file\n" ++
    "  -h, --help           Print help\n" ++
    "  -V, --version        Print version\n"

/-- What is wrong with a command line. -/
def complaint : UsageError → String
  | .missingCommand => "a command is required but none was given"
  | .unknownCommand => "unrecognized command"
  | .unknownArgument => "unexpected argument"
  | .repeatedOption => "an option cannot be used multiple times"
  | .unexpectedValue => "unexpected value for an option that takes none"
  | .invalidValue => "a value is missing or not one of the possible values"
  | .malformedValue => "a value cannot be read"
  | _ => "no command was given"

def ofError : UsageError → UsageAnswer
  | .helpRequested => { status := .clean, output := help }
  | .versionRequested => { status := .clean, output := version }
  | .nothingGiven => { status := .faulty, notice := help }
  | error =>
      { status := .faulty
        notice := "error: " ++ complaint error ++ "\n\n" ++ usageLine }

end UsageAnswer

end ScriptLint
