import ScriptLint.CommandLine.Grammar
import ScriptLint.Text.Cut
import ScriptLint.Text.Digits

/-!
# Command lines as commands

The options that every command has can stand on each level of a command line. Where levels disagree,
the innermost one that says anything decides.
-/

namespace ScriptLint

/-- What is said about the options that every command has. -/
structure GlobalDraft where
  verbosity : Nat := 0
  quiet : Bool := false
  color : Option ColorMode := none
  noConfig : Bool := false
  deriving DecidableEq, Repr

namespace GlobalDraft

/-- Whether nothing is said. -/
def isSilent (draft : GlobalDraft) : Bool :=
  draft == {}

/-- What two levels say together. -/
def within (inner outer : GlobalDraft) : GlobalDraft where
  verbosity := if inner.verbosity = 0 then outer.verbosity else inner.verbosity
  quiet := inner.quiet || outer.quiet
  color := inner.color.or outer.color
  noConfig := inner.noConfig || outer.noConfig

def toOptions (draft : GlobalDraft) : GlobalOptions where
  verbosity := draft.verbosity
  quiet := draft.quiet
  color := draft.color.getD .auto
  noConfig := draft.noConfig

end GlobalDraft

/-- What is said on one level. -/
structure Draft (α : Type) where
  globals : GlobalDraft := {}
  own : α

/-- What is said about the options of a check. -/
structure CheckDraft where
  path : Option String := none
  config : Option String := none
  format : Option ReportFormat := none
  output : Option String := none
  maxLineLength : Option Nat := none
  disable : List String := []
  exclude : List String := []
  failOnWarning : Bool := false
  deriving DecidableEq, Repr

namespace CheckDraft

def toOptions (draft : CheckDraft) : CheckOptions where
  path := draft.path.getD "."
  config := draft.config
  format := draft.format.getD .text
  output := draft.output
  maxLineLength := draft.maxLineLength
  disable := draft.disable
  exclude := draft.exclude
  failOnWarning := draft.failOnWarning

end CheckDraft

/-- What is said about the settings file to be written. -/
structure CreateDraft where
  output : Option String := none
  force : Bool := false
  deriving DecidableEq, Repr

/-- What is said about the settings to be shown. -/
structure ShowDraft where
  config : Option String := none
  format : Option SettingsFormat := none
  deriving DecidableEq, Repr

namespace CommandLine

/-! ## Values -/

/-- How often verbosity counts at most. -/
def maxVerbosity : Nat := 255

def readPath (value : String) : Except UsageError String :=
  if value = "" then .error .invalidValue else .ok value

def readColor (value : String) : Except UsageError ColorMode :=
  if value = "auto" then .ok .auto
  else if value = "always" then .ok .always
  else if value = "never" then .ok .never
  else .error .invalidValue

def readFormat (value : String) : Except UsageError ReportFormat :=
  match ReportFormat.ofName? value with
  | some format => .ok format
  | none => .error .malformedValue

def readSettingsFormat (value : String) : Except UsageError SettingsFormat :=
  if value = "text" then .ok .text
  else if value = "json" then .ok .json
  else .error .invalidValue

/-- A number in digits, possibly after a plus sign. -/
def readNumber (value : String) : Except UsageError Nat :=
  let digits :=
    match value.toList with
    | '+' :: rest => rest
    | rest => rest
  if !digits.isEmpty && digits.all Char.isDigit && valueOfDigits digits ≤ Settings.maxNumber then
    .ok (valueOfDigits digits)
  else .error .malformedValue

/-- The values in a list of values with commas between them. -/
def readList (value : String) : List String :=
  (cutAt ',' value.toList).map String.ofList

/-! ## Options -/

/-- Reads a value for something that is said at most once. -/
def once {β : Type} (known : Option β) (read : String → Except UsageError β) (value : String) :
    Except UsageError β :=
  if known.isSome then .error .repeatedOption else read value

/-- Sets a mark that is set at most once. -/
def mark {β : Type} (isSet : Bool) (result : β) : Except UsageError β :=
  if isSet then .error .repeatedOption else .ok result

/-- Changes what is said about the options that every command has. -/
def storeGlobal {α : Type} (store : Store GlobalDraft) : Store (Draft α) :=
  fun value draft => (store value draft.globals).map fun globals => { draft with globals }

/-- Changes what is said about the options of the command itself. -/
def storeOwn {α : Type} (store : Store α) : Store (Draft α) :=
  fun value draft => (store value draft.own).map fun own => { draft with own }

def helpOption (α : Type) : OptionSpec α where
  long := "help"
  short := some 'h'
  store := fun _ _ => .error .helpRequested

def versionOption (α : Type) : OptionSpec α where
  long := "version"
  short := some 'V'
  store := fun _ _ => .error .versionRequested

/-- The options that can stand on every level. -/
def globalOptions (α : Type) : List (OptionSpec (Draft α)) :=
  [{ long := "verbose", short := some 'v'
     store := storeGlobal fun _ draft =>
       .ok { draft with verbosity := min (draft.verbosity + 1) maxVerbosity } },
   { long := "quiet", short := some 'q'
     store := storeGlobal fun _ draft => mark draft.quiet { draft with quiet := true } },
   { long := "color", takesValue := true
     store := storeGlobal fun value draft =>
       (once draft.color readColor value).map fun color => { draft with color := some color } },
   { long := "no-config"
     store := storeGlobal fun _ draft => mark draft.noConfig { draft with noConfig := true } },
   helpOption (Draft α)]

def rootGrammar : Grammar (Draft Unit) where
  options := versionOption (Draft Unit) :: globalOptions Unit
  commands := ["check", "rules", "init", "config", "help"]

def checkGrammar : Grammar (Draft CheckDraft) where
  options := globalOptions CheckDraft ++
    [{ long := "config", short := some 'c', takesValue := true
       store := storeOwn fun value draft =>
         (once draft.config readPath value).map fun path => { draft with config := some path } },
     { long := "format", short := some 'f', takesValue := true
       store := storeOwn fun value draft =>
         (once draft.format readFormat value).map fun format =>
           { draft with format := some format } },
     { long := "output", short := some 'o', takesValue := true
       store := storeOwn fun value draft =>
         (once draft.output readPath value).map fun path => { draft with output := some path } },
     { long := "max-line-length", takesValue := true
       store := storeOwn fun value draft =>
         (once draft.maxLineLength readNumber value).map fun number =>
           { draft with maxLineLength := some number } },
     { long := "disable", takesValue := true
       store := storeOwn fun value draft =>
         .ok { draft with disable := draft.disable ++ readList value } },
     { long := "exclude", short := some 'x', takesValue := true
       store := storeOwn fun value draft =>
         .ok { draft with exclude := draft.exclude ++ [value] } },
     { long := "fail-on-warning"
       store := storeOwn fun _ draft =>
         mark draft.failOnWarning { draft with failOnWarning := true } }]
  word := some <| storeOwn fun value draft =>
    (readPath value).map fun path => { draft with path := some path }

def rulesGrammar : Grammar (Draft Unit) where
  options := globalOptions Unit

def createGrammar : Grammar (Draft CreateDraft) where
  options := globalOptions CreateDraft ++
    [{ long := "output", short := some 'o', takesValue := true
       store := storeOwn fun value draft =>
         (once draft.output readPath value).map fun path => { draft with output := some path } },
     { long := "force"
       store := storeOwn fun _ draft => mark draft.force { draft with force := true } }]

def configGrammar : Grammar (Draft Unit) where
  options := globalOptions Unit
  commands := ["validate", "show", "help"]

def validateGrammar : Grammar (Draft (Option String)) where
  options := globalOptions (Option String) ++
    [{ long := "config", short := some 'c', takesValue := true
       store := storeOwn fun value known => (once known readPath value).map some }]

def showGrammar : Grammar (Draft ShowDraft) where
  options := globalOptions ShowDraft ++
    [{ long := "config", short := some 'c', takesValue := true
       store := storeOwn fun value draft =>
         (once draft.config readPath value).map fun path => { draft with config := some path } },
     { long := "format", short := some 'f', takesValue := true
       store := storeOwn fun value draft =>
         (once draft.format readSettingsFormat value).map fun format =>
           { draft with format := some format } }]

/-! ## Commands -/

/-- A command and what is said with it about the options that every command has. -/
abbrev Said := GlobalDraft × Command

/-- Reads a level that no further command follows. -/
def readLast {α : Type} (grammar : Grammar (Draft α)) (start : α) (finish : α → Command)
    (arguments : List String) : Except UsageError Said :=
  match grammar.read { draft := { own := start } } arguments with
  | .error error => .error error
  | .ok (.finish draft) => .ok (draft.globals, finish draft.own)
  | .ok (.command _ _ _) => .error .unknownCommand

/-- Reads a level that a further command has to follow. What was pending before the command is
stored after the command has been read. -/
def readOuter (grammar : Grammar (Draft Unit))
    (readCommand : String → List String → Except UsageError Said) (arguments : List String) :
    Except UsageError Said :=
  match grammar.read { draft := { own := () } } arguments with
  | .error error => .error error
  | .ok (.finish draft) =>
      .error (if draft.globals.isSilent then .nothingGiven else .missingCommand)
  | .ok (.command name rest reading) =>
      match readCommand name rest with
      | .error error => .error error
      | .ok (inner, command) =>
          reading.settle.map fun reading => (inner.within reading.draft.globals, command)

/-- What a request for help leads to, given the commands that are known where it stands. The words
after it have to name a command. -/
def helpAbout (known : List (List String)) (words : List String) : UsageError :=
  if words.isEmpty || known.contains words then .helpRequested else .unknownCommand

/-- The ways to name a command below `config`. -/
def configTopics : List (List String) :=
  [["validate"], ["show"], ["help"]]

/-- The ways to name a command. -/
def rootTopics : List (List String) :=
  [["check"], ["rules"], ["init"], ["config"], ["help"]] ++
    configTopics.map fun topic => "config" :: topic

def readConfigCommand (name : String) (rest : List String) : Except UsageError Said :=
  if name = "validate" then readLast validateGrammar none .validateConfig rest
  else if name = "show" then
    readLast showGrammar {} (fun draft => .showConfig draft.config (draft.format.getD .text)) rest
  else .error (helpAbout configTopics rest)

def readRootCommand (name : String) (rest : List String) : Except UsageError Said :=
  if name = "check" then readLast checkGrammar {} (fun draft => .check draft.toOptions) rest
  else if name = "rules" then readLast rulesGrammar () (fun _ => .rules) rest
  else if name = "init" then
    readLast createGrammar {}
      (fun draft => .createConfig (draft.output.getD Settings.projectFileName) draft.force) rest
  else if name = "config" then readOuter configGrammar readConfigCommand rest
  else .error (helpAbout rootTopics rest)

end CommandLine

namespace Invocation

/-- Reads the arguments of the program. -/
def ofArguments (arguments : List String) : Except UsageError Invocation :=
  (CommandLine.readOuter CommandLine.rootGrammar CommandLine.readRootCommand arguments).map
    fun said => { options := said.1.toOptions, command := said.2 }

end Invocation

end ScriptLint
