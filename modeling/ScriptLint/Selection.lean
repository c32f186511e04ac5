import ScriptLint.Glob.Expression
import ScriptLint.Glob.Match
import ScriptLint.Glob.Parser
import ScriptLint.Path
import ScriptLint.Settings

/-!
# Which files are looked at

A directory may hold files of many kinds. A file is selected if it has one of the wanted extensions,
if it does not lie in a cache of generated files, and if no exclude pattern matches its path.
-/

namespace ScriptLint

/-- The directories that the engine fills with generated files. -/
def importCaches : List String :=
  [".godot", ".import"]

/-- Whether a path leads through a cache of generated files. -/
def inImportCache (path : String) : Bool :=
  (Path.components path).any fun component =>
    match component with
    | .name text => importCaches.contains text
    | _ => false

structure Selection where
  /-- Extensions without leading dots. An empty list stands for all of them. -/
  extensions : List String
  excluded : List Glob

namespace Selection

/-- Reads exclude patterns up to the first malformed one, which is returned with what is wrong. -/
def readPatterns : List String → Except (String × GlobError) (List Glob)
  | [] => .ok []
  | pattern :: rest =>
      match Glob.parse {} pattern with
      | .error error => .error (pattern, error)
      | .ok glob => (readPatterns rest).map (glob :: ·)

/-- The selection with the given extensions and exclude patterns. If patterns are malformed, the
first of them is returned; if all can be read but one is nested too deep, all of them are. -/
def ofPatterns (extensions exclude : List String) : Except (String × GlobError) Selection :=
  match readPatterns exclude with
  | .error error => .error error
  | .ok excluded =>
      match Glob.nestingError? excluded with
      | some error => .error (", ".intercalate exclude, error)
      | none =>
          .ok
            { extensions := (extensions.map bareExtension).filter fun extension => extension != ""
              excluded }

/-- The selection that settings ask for. -/
def ofSettings (settings : Settings) : Except (String × GlobError) Selection :=
  ofPatterns settings.extensions settings.exclude

def wantsExtension (selection : Selection) (path : String) : Bool :=
  selection.extensions.isEmpty || (Path.extension? path).any selection.extensions.contains

def selects (selection : Selection) (path : String) : Bool :=
  selection.wantsExtension path && !inImportCache path &&
    !selection.excluded.any fun glob => glob.isMatch path

end Selection

end ScriptLint
