import ScriptLint.Command.RuleList

/-!
# Commands on settings

A settings file can be created, validated and shown. A new file holds the default settings.
-/

namespace ScriptLint

namespace Settings

/-- Settings as a JSON text that ends in a line break. -/
def jsonText (settings : Settings) : String :=
  settings.toJson.render ++ "\n"

/-- The items of a list as they are shown. -/
def listText (items : List String) : String :=
  if items.isEmpty then "(none)" else ", ".intercalate items

def flagText (flag : Bool) : String :=
  if flag then "true" else "false"

end Settings

namespace LoadedSettings

/-- Settings line by line, with where they come from. -/
def lineText (loaded : LoadedSettings) : String :=
  let settings := loaded.settings
  "# Effective configuration (" ++ loaded.source.getD "built-in defaults" ++ ")\n" ++
    "max_line_length: " ++ toString settings.maxLineLength ++ "\n" ++
    "disabled_rules: " ++ Settings.listText settings.disabledRules ++ "\n" ++
    "extensions: " ++ Settings.listText settings.extensions ++ "\n" ++
    "exclude: " ++ Settings.listText settings.exclude ++ "\n" ++
    "respect_gitignore: " ++ Settings.flagText settings.respectGitignore ++ "\n" ++
    "fail_on_warning: " ++ Settings.flagText settings.failOnWarning ++ "\n"

def text (loaded : LoadedSettings) : SettingsFormat → String
  | .text => loaded.lineText
  | .json => loaded.settings.jsonText

end LoadedSettings

namespace ConfigCommand

/-- Writes the default settings to a file. An existing file is replaced only on demand. -/
def create (output : String) (force : Bool) (files : FileSystem) : Outcome :=
  if files.isPresent output && !force then
    .failed files [] (.config (.alreadyExists output))
  else
    match files.writeText output ({} : Settings).jsonText with
    | .error failed => .failed failed.files [] (.io failed.error)
    | .ok written => .printed written [] ("Created configuration file: " ++ output ++ "\n")

/-- Whether an id, with blanks around it, is that of a rule. -/
def isRuleId (id : String) : Bool :=
  RuleList.standardRules.any fun rule => sameName rule.id (trimmed id)

def unknownRule (id : String) : Notice :=
  .warning ("Unknown rule id in disabled_rules: " ++ id)
    (some "Run `gdsmell rules` to list the available rules")

/-- What is said about disabled rules that do not exist. -/
def ruleNotices (settings : Settings) : List Notice :=
  (settings.disabledRules.filter fun id => !isRuleId id).map unknownRule

/-- Tells whether settings can be loaded. -/
def validate (config : Option String) (files : FileSystem) : Outcome :=
  match Settings.loadOrDiscover files.access config with
  | .error fault => .failed files [] fault
  | .ok loaded =>
      .printed files (ruleNotices loaded.settings)
        (match loaded.source with
        | some path => "Configuration is valid: " ++ path ++ "\n"
        | none => "No configuration file found; built-in defaults are valid\n")

/-- The settings to be shown. A file that is named is loaded in any case. -/
def shown (config : Option String) (general : GlobalOptions) (files : FileSystem) :
    Except Fault LoadedSettings :=
  if general.noConfig && config.isNone then .ok { settings := {}, source := none }
  else Settings.loadOrDiscover files.access config

def display (config : Option String) (format : SettingsFormat) (general : GlobalOptions)
    (files : FileSystem) : Outcome :=
  match shown config general files with
  | .error fault => .failed files [] fault
  | .ok loaded => .printed files [] (loaded.text format)

end ConfigCommand

end ScriptLint
