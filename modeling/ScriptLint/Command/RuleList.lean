import ScriptLint.Command.Check
import ScriptLint.Text.Layout

/-!
# Listing the rules

The list shows every rule with its severity and its category, and marks the rules that the settings
disable.
-/

namespace ScriptLint

namespace RuleList

/-- The two lines on a rule. -/
def entry (settings : Settings) (rule : Rule) : String :=
  rule.id ++ "  " ++ padEnd 7 rule.severity.token ++ "  " ++ padEnd 11 rule.category.token ++
    "  " ++ rule.name ++ (if settings.disables rule.id then " (disabled)" else "") ++
    "\n      " ++ rule.description ++ "\n"

/-- The rules as they are described when no settings change them. -/
def standardRules : List Rule :=
  catalog ({} : Settings).maxLineLength

def text (settings : Settings) : String :=
  String.join (standardRules.map (entry settings))

/-- The settings that decide on the marks. -/
def settings (general : GlobalOptions) (files : FileSystem) : Settings × List Notice :=
  if general.noConfig then ({}, [])
  else
    match Settings.discover files.access with
    | .ok loaded => (loaded.settings, [])
    | .error fault => ({}, [.setback fault])

def run (general : GlobalOptions) (files : FileSystem) : Outcome :=
  let (settings, notices) := settings general files
  .printed files notices (text settings)

end RuleList

end ScriptLint
