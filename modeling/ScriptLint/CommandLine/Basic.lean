import ScriptLint.Report
import ScriptLint.Settings.Discovery

/-!
# Command lines

What a command line asks for: a command with its options, and the options that every command has.
-/

namespace ScriptLint

/-- The options that every command has. -/
structure GlobalOptions where
  /-- How much is told beside the report. -/
  verbosity : Nat := 0
  /-- Whether the report is not printed. -/
  quiet : Bool := false
  color : ColorMode := .auto
  /-- Whether no settings are loaded. -/
  noConfig : Bool := false
  deriving DecidableEq, Repr

/-- The options of a check. -/
structure CheckOptions where
  path : String := "."
  config : Option String := none
  format : ReportFormat := .text
  /-- The file that the report is written to instead of being printed. -/
  output : Option String := none
  maxLineLength : Option Nat := none
  disable : List String := []
  exclude : List String := []
  failOnWarning : Bool := false
  deriving DecidableEq, Repr

/-- How settings are shown. -/
inductive SettingsFormat where
  | text
  | json
  deriving DecidableEq, Repr

inductive Command where
  /-- Checks files and reports what is found. -/
  | check (options : CheckOptions)
  /-- Lists all rules. -/
  | rules
  /-- Writes a settings file. -/
  | createConfig (output : String) (force : Bool)
  /-- Tells whether settings can be loaded. -/
  | validateConfig (config : Option String)
  /-- Prints the settings. -/
  | showConfig (config : Option String) (format : SettingsFormat)
  deriving DecidableEq, Repr

structure Invocation where
  options : GlobalOptions
  command : Command
  deriving DecidableEq, Repr

/-- Why a command line leads to no command. -/
inductive UsageError where
  | helpRequested
  | versionRequested
  /-- There is nothing where a command is needed. -/
  | nothingGiven
  /-- There are options but no command. -/
  | missingCommand
  | unknownCommand
  | unknownArgument
  /-- An option that can be given once is given again. -/
  | repeatedOption
  /-- A value is attached to an option that takes none. -/
  | unexpectedValue
  /-- A value is missing, or it is empty, or it is none of the possible ones. -/
  | invalidValue
  /-- A value cannot be read. -/
  | malformedValue
  deriving DecidableEq, Repr

end ScriptLint
