import ScriptLint.Text.Cut

/-!
# Paths

A path is Unicode text, and it is shown as it was given. A path whose bytes are no such text is not
described here. What a path means is its sequence of components: empty and single-dot components
between separators mean nothing, except for a single dot at the very start of a relative path. Paths
are compared by components, so a directory sorts before any sibling whose name merely starts with
the directory's name.
-/

namespace ScriptLint

/-- One step of a path. -/
inductive Component where
  | root
  | current
  | parent
  | name (text : String)
  deriving DecidableEq, Repr

namespace Component

/-- What a component is compared by: the kinds come in the order of their declaration, and names
are compared character by character. -/
def key : Component → List Char
  | root => ['\x00']
  | current => ['\x01']
  | parent => ['\x02']
  | name text => '\x03' :: text.toList

end Component

namespace Path

/-- The texts between the separators of a path, empty ones included. -/
def parts (path : String) : List String :=
  (cutAt '/' path.toList).map String.ofList

def isAbsolute (path : String) : Bool :=
  path.toList.head? == some '/'

/-- The component that a part of a path stands for, if it stands for any. -/
def component? (part : String) : Option Component :=
  if part == "" || part == "." then none
  else if part == ".." then some .parent
  else some (.name part)

def components (path : String) : List Component :=
  match parts path with
  | [] => []
  | first :: rest =>
      let start : List Component :=
        if isAbsolute path then [.root]
        else if first == "." then [.current]
        else (component? first).toList
      start ++ rest.filterMap component?

/-- What a path is compared by. -/
def key (path : String) : List (List Char) :=
  (components path).map Component.key

/-- Whether two paths mean the same. -/
def same (a b : String) : Bool :=
  components a == components b

/-- The name that a path ends in. -/
def fileName? (path : String) : Option String :=
  match (components path).getLast? with
  | some (.name text) => some text
  | _ => none

/-- What follows the last dot of a file name. A dot at the very start does not count. -/
def extension? (path : String) : Option String :=
  match fileName? path with
  | none => none
  | some text =>
      let ending := text.toList.reverse.takeWhile (· != '.')
      match text.toList.reverse.dropWhile (· != '.') with
      | _ :: _ :: _ => some (String.ofList ending.reverse)
      | _ => none

/-- A path as seen from a directory. -/
def join (directory entry : String) : String :=
  if isAbsolute entry then entry
  else if directory == "" || directory.toList.getLast? == some '/' then directory ++ entry
  else directory ++ "/" ++ entry

end Path

end ScriptLint
