import ScriptLint.Rule.Catalog

/-!
# Settings

What a user can choose about a run: which rules apply, which files are looked at and what counts as
a failure. Rule ids are compared without regard to case and to the blanks around them.
-/

namespace ScriptLint

/-- A text without the blanks around it. -/
def trimmed (text : String) : String :=
  String.ofList (Line.trim text.toList)

/-- An extension as it is compared with that of a file, without leading dots. -/
def bareExtension (extension : String) : String :=
  String.ofList (extension.toList.dropWhile (· == '.'))

structure Settings where
  /-- The longest line that is not reported, in characters. -/
  maxLineLength : Nat := 100
  /-- Ids of rules that do not apply. -/
  disabledRules : List String := []
  /-- Extensions of the files that are looked at in a directory. -/
  extensions : List String := ["gd"]
  /-- Patterns of the files that are left out in a directory. -/
  exclude : List String := []
  /-- Whether files that version control ignores are left out in a directory. -/
  respectGitignore : Bool := false
  /-- Whether warnings fail a run. -/
  failOnWarning : Bool := false
  deriving DecidableEq, Repr

namespace Settings

/-- The largest number that a setting can hold. -/
def maxNumber : Nat := 18446744073709551615

def disables (settings : Settings) (ruleId : String) : Bool :=
  settings.disabledRules.any fun entry => sameName (trimmed entry) ruleId

/-- The rules that apply, in the order of the catalogue. -/
def rules (settings : Settings) : List Rule :=
  (catalog settings.maxLineLength).filter fun rule => !settings.disables rule.id

/-- The findings of all rules that apply, rule by rule. -/
def checkText (settings : Settings) (path : String) (text : String) : List Finding :=
  settings.rules.flatMap fun rule => rule.check path text

/-- Why settings cannot be used. -/
inductive Defect where
  | zeroLineLength
  | emptyExtension
  deriving DecidableEq, Repr

namespace Defect

def message : Defect → String
  | zeroLineLength => "max_line_length must be greater than 0"
  | emptyExtension => "extensions must not contain empty entries"

end Defect

/-- The first defect of the settings. -/
def defect? (settings : Settings) : Option Defect :=
  if settings.maxLineLength = 0 then some .zeroLineLength
  else if settings.extensions.any fun extension => (bareExtension extension).isEmpty then
    some .emptyExtension
  else none

end Settings

end ScriptLint
