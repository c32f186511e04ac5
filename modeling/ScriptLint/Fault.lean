import ScriptLint.Glob.Basic
import ScriptLint.Settings

/-!
# Faults

What can go wrong in a run, by cause. The wording stands here and nowhere else: a fault has a kind,
a message, sometimes a detail that tells what lies behind it, and mostly a suggestion.
-/

namespace ScriptLint

/-- Why a file cannot be read or written. -/
inductive FileError where
  | notFound
  | notDirectory
  | isDirectory
  | tooManyLinks
  | nameTooLong
  | notText
  /-- A cause that is known only by its text. -/
  | other (text : String)
  deriving DecidableEq, Repr

namespace FileError

def message : FileError → String
  | notFound => "No such file or directory (os error 2)"
  | notDirectory => "Not a directory (os error 20)"
  | isDirectory => "Is a directory (os error 21)"
  | tooManyLinks => "Too many levels of symbolic links (os error 40)"
  | nameTooLong => "File name too long (os error 36)"
  | notText => "stream did not contain valid UTF-8"
  | other text => text

end FileError

/-- Why settings cannot be loaded from a file. -/
inductive LoadProblem where
  | unreadable (error : FileError)
  | malformed (reason : String)
  deriving DecidableEq, Repr

namespace LoadProblem

def message : LoadProblem → String
  | unreadable error => error.message
  | malformed reason => reason

end LoadProblem

/-- What is wrong with the configuration. -/
inductive ConfigProblem where
  | defect (defect : Settings.Defect)
  | alreadyExists (path : String)
  /-- A problem that is known only by its text. -/
  | other (text : String)
  deriving DecidableEq, Repr

namespace ConfigProblem

def message : ConfigProblem → String
  | defect found => found.message
  | alreadyExists path =>
      "Configuration file already exists: " ++ path ++ ". Use --force to overwrite."
  | other text => text

end ConfigProblem

inductive Fault where
  /-- A path is neither a file nor a directory. -/
  | invalidPath (path : String)
  | unreadable (path : String) (error : FileError)
  | configLoad (path : String) (problem : LoadProblem)
  | config (problem : ConfigProblem)
  | invalidPattern (pattern : String) (error : GlobError)
  | io (error : FileError)
  | jsonSerialize (text : String)
  deriving DecidableEq, Repr

namespace Fault

def kind : Fault → String
  | invalidPath _ => "InvalidPath"
  | unreadable _ _ => "FileRead"
  | configLoad _ _ => "ConfigLoad"
  | config _ => "Config"
  | invalidPattern _ _ => "InvalidPattern"
  | io _ => "IO"
  | jsonSerialize _ => "JsonSerialize"

def message : Fault → String
  | invalidPath path => "Path " ++ path ++ " is not a valid file or directory"
  | unreadable path _ => "Failed to read file: " ++ path
  | configLoad path problem => "Could not load config file " ++ path ++ ": " ++ problem.message
  | config problem => "Configuration error: " ++ problem.message
  | invalidPattern pattern _ => "Invalid glob pattern: " ++ pattern
  | io error => "IO error: " ++ error.message
  | jsonSerialize text => "JSON serialization error: " ++ text

def detail? : Fault → Option String
  | unreadable _ error => some error.message
  | invalidPattern pattern error => some (error.message pattern)
  | _ => none

def suggestion? : Fault → Option String
  | invalidPath _ => some "Pass an existing .gd file or project directory"
  | unreadable _ _ => some "Check that the file exists and is UTF-8 encoded"
  | configLoad _ _ => some "Run `gdsmell config validate` to check the configuration"
  | config _ => some "Run `gdsmell config validate` to check the configuration"
  | invalidPattern _ _ => some "Exclude patterns use glob syntax, e.g. \"**/addons/**\""
  | io _ => none
  | jsonSerialize _ => none

end Fault

end ScriptLint
