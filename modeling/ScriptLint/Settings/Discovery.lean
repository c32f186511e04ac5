import ScriptLint.Fault
import ScriptLint.Path
import ScriptLint.Settings.Document

/-!
# Finding and loading settings

Settings come from a file of the project, else from a file of the user, else they are the defaults.
A file named as TOML is read as TOML, and any other file as JSON. Settings with a defect are not
loaded.
-/

namespace ScriptLint

/-- What loading settings needs to know about files. -/
structure FileAccess where
  readText : String → Except FileError String
  isPresent : String → Bool
  /-- The directory of the project, unless it cannot be told. -/
  workingDir : Option String
  /-- The directory of the user's configuration, if there is one. -/
  configDir : Option String

/-- Settings and the file they come from, if they come from one. -/
structure LoadedSettings where
  settings : Settings
  source : Option String
  deriving DecidableEq, Repr

namespace Settings

def projectFileName : String := ".gdsmell.json"

def userFileName : String := "config.json"

def isTomlPath (path : String) : Bool :=
  (Path.extension? path).any fun extension => sameName extension "toml"

/-- The settings that the text of a file spells. -/
def ofText (path text : String) : Except Fault Settings :=
  let read? := if isTomlPath path then (Toml.parse? text).bind ofToml?
    else (Json.parse? text).bind ofJson?
  match read? with
  | none => .error (.configLoad path (.malformed "not a settings document"))
  | some settings =>
      match settings.defect? with
      | some defect => .error (.config (.defect defect))
      | none => .ok settings

def load (files : FileAccess) (path : String) : Except Fault LoadedSettings :=
  match files.readText path with
  | .error error => .error (.configLoad path (.unreadable error))
  | .ok text => (ofText path text).map fun settings => { settings, source := some path }

/-- Where settings are looked for, in order. -/
def candidates (files : FileAccess) : List String :=
  (files.workingDir.map fun directory => Path.join directory projectFileName).toList ++
    (files.configDir.map fun directory => Path.join directory userFileName).toList

/-- Loads the first settings file that exists. -/
def discover (files : FileAccess) : Except Fault LoadedSettings :=
  match (candidates files).find? files.isPresent with
  | some path => load files path
  | none => .ok { settings := {}, source := none }

/-- Loads the given file, or the one that is found if none is given. -/
def loadOrDiscover (files : FileAccess) (path? : Option String) : Except Fault LoadedSettings :=
  match path? with
  | some path => load files path
  | none => discover files

end Settings

end ScriptLint
