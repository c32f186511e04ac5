import ScriptLint.Json.Parser
import ScriptLint.Json.Printer
import ScriptLint.Settings
import ScriptLint.Toml.Parser

/-!
# Settings as documents

Settings are stored as a JSON object or a TOML table with one field per setting. A missing field
takes its default, an unknown field is ignored whatever its value, and a known field must occur at
most once and hold a value of its own kind. In JSON the values may also stand in an array, in the
order of the fields.
-/

namespace ScriptLint

/-- What a field of a document can mean to the settings. -/
inductive FieldValue where
  | natural (value : Nat)
  | flag (value : Bool)
  | texts (values : List String)
  | other
  deriving DecidableEq, Repr

namespace FieldValue

def ofNatural (value : Nat) : FieldValue :=
  if value ≤ Settings.maxNumber then .natural value else .other

def jsonText? : Json → Option String
  | .string text => text
  | _ => none

def ofJson : Json → FieldValue
  | .natural value => ofNatural value
  | .bool value => .flag value
  | .array items =>
      match items.mapM jsonText? with
      | some values => .texts values
      | none => .other
  | _ => .other

def tomlText? : Toml → Option String
  | .string text => some text
  | _ => none

def ofToml : Toml → FieldValue
  | .integer value => if 0 ≤ value then ofNatural value.toNat else .other
  | .boolean value => .flag value
  | .array items =>
      match items.mapM tomlText? with
      | some values => .texts values
      | none => .other
  | _ => .other

def natural? : FieldValue → Option Nat
  | .natural value => some value
  | _ => none

def flag? : FieldValue → Option Bool
  | .flag value => some value
  | _ => none

def texts? : FieldValue → Option (List String)
  | .texts values => some values
  | _ => none

end FieldValue

namespace Settings

/-- The names of the fields, in their order. -/
def fieldNames : List String :=
  ["max_line_length", "disabled_rules", "extensions", "exclude", "respect_gitignore",
   "fail_on_warning"]

/-- The value of a field that occurs at most once. -/
def field? {α : Type} (fields : List (String × FieldValue)) (name : String)
    (read : FieldValue → Option α) (default : α) : Option α :=
  match fields.filter fun entry => entry.1 == name with
  | [] => some default
  | [entry] => read entry.2
  | _ => none

/-- The settings that named fields spell. -/
def ofFields? (fields : List (String × FieldValue)) : Option Settings := do
  let base : Settings := {}
  return {
    maxLineLength := ← field? fields "max_line_length" FieldValue.natural? base.maxLineLength
    disabledRules := ← field? fields "disabled_rules" FieldValue.texts? base.disabledRules
    extensions := ← field? fields "extensions" FieldValue.texts? base.extensions
    exclude := ← field? fields "exclude" FieldValue.texts? base.exclude
    respectGitignore :=
      ← field? fields "respect_gitignore" FieldValue.flag? base.respectGitignore
    failOnWarning := ← field? fields "fail_on_warning" FieldValue.flag? base.failOnWarning }

/-- The fields of a JSON object. Every name must denote a text. -/
def fieldsOfMembers? (members : List (Option String × Json)) :
    Option (List (String × FieldValue)) :=
  members.mapM fun member => member.1.map fun name => (name, FieldValue.ofJson member.2)

/-- The settings that a JSON document spells. -/
def ofJson? : Json → Option Settings
  | .object members => (fieldsOfMembers? members).bind ofFields?
  | .array items =>
      if items.length ≤ fieldNames.length then
        ofFields? (fieldNames.zip (items.map FieldValue.ofJson))
      else none
  | _ => none

/-- The settings that a TOML document spells. -/
def ofToml? (entries : List (String × Toml)) : Option Settings :=
  ofFields? (entries.map fun entry => (entry.1, FieldValue.ofToml entry.2))

def ofTexts (values : List String) : Json :=
  .array (values.map Json.text)

/-- Settings as a JSON document. -/
def toJson (settings : Settings) : Json :=
  .object
    [Json.member "max_line_length" (.natural settings.maxLineLength),
     Json.member "disabled_rules" (ofTexts settings.disabledRules),
     Json.member "extensions" (ofTexts settings.extensions),
     Json.member "exclude" (ofTexts settings.exclude),
     Json.member "respect_gitignore" (.bool settings.respectGitignore),
     Json.member "fail_on_warning" (.bool settings.failOnWarning)]

end Settings

end ScriptLint
