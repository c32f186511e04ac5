import ScriptLint.IgnoreFile.User
import ScriptLint.Text.Order

/-!
# Walking through directories

A walk lists the files below a directory. It visits the entries of each directory in the order of
their names, whatever order they come in, and does not follow links. A walk that heeds ignore files
leaves out what they ignore: an ignored directory is not entered at all.
-/

namespace ScriptLint

namespace Entry

/-- What named parts hold, taken together in the order of their names. -/
def inNameOrder (parts : List (String × List String)) : List String :=
  (parts.mergeSort fun a b => textLe a.1.toList b.1.toList).flatMap Prod.snd

def isDirectory : Entry → Bool
  | .directory _ => true
  | _ => false

mutual

/-- The files at and below an entry. -/
def filesAt (path : String) : Entry → List String
  | .file _ => [path]
  | .directory entries => inNameOrder (filesOfEach path entries)
  | .link _ => []

/-- The files at and below each entry of a directory. -/
def filesOfEach (directory : String) : List (String × Entry) → List (String × List String)
  | [] => []
  | (name, entry) :: rest =>
      (name, filesAt (Path.join directory name) entry) :: filesOfEach directory rest

end

mutual

/-- The files at and below an entry that is itself not ignored, less what is ignored below it. -/
def keptFilesAt (files : FileSystem) (scope : IgnoreScope) (path : String) : Entry → List String
  | .file _ => [path]
  | .directory entries =>
      inNameOrder (keptFilesOfEach files (scope.enter files path) path entries)
  | .link _ => []

/-- The files at and below each entry of a directory, less what is ignored. -/
def keptFilesOfEach (files : FileSystem) (scope : IgnoreScope) (directory : String) :
    List (String × Entry) → List (String × List String)
  | [] => []
  | (name, entry) :: rest =>
      (name,
        if scope.ignores (Path.join directory name) entry.isDirectory then []
        else keptFilesAt files scope (Path.join directory name) entry) ::
        keptFilesOfEach files scope directory rest

end

end Entry

namespace FileSystem

/-- What a walk starts from. A link is followed here if it leads to a directory. -/
def walkRoot? (files : FileSystem) (root : String) : Option Entry :=
  match files.entryAt false root with
  | .error _ => none
  | .ok (.link _) =>
      match files.entryAt true root with
      | .ok (.directory entries) => some (.directory entries)
      | _ => none
  | .ok entry => some entry

/-- All files below a directory. A file is all there is below itself. -/
def walkAll (files : FileSystem) (root : String) : List String :=
  ((files.walkRoot? root).map (Entry.filesAt root)).getD []

/-- The path that stands for the standard input, below which there are no files. -/
def standardInput : String := "-"

/-- The files below a directory that are not ignored. The directory itself is never ignored. -/
def walkKept (files : FileSystem) (root : String) : List String :=
  if Path.same root standardInput then []
  else
    ((files.walkRoot? root).map
      (Entry.keptFilesAt files (IgnoreScope.outermost files) root)).getD []

end FileSystem

end ScriptLint
