import ScriptLint.Fault
import ScriptLint.Path

/-!
# File systems

A file system is a tree of directories with files and symbolic links in it, together with the
working directory and the home directory of the user. A path is resolved by walking through the
tree from the root or from the working directory, following the links it meets. Names are texts of
Unicode characters, so a tree with other names in it is not among those that are described here.

A file is written in two steps. It is opened, which creates it or empties it, and then takes the
bytes. Some files take only so many. So a write can fail before it has changed anything, and it can
also fail after that and leave a part of the bytes behind.
-/

namespace ScriptLint

/-- What a name in a directory stands for. The entries of a directory come in no particular order.
-/
inductive Entry where
  | file (bytes : ByteArray)
  | directory (entries : List (String × Entry))
  | link (target : String)

/-- A place in the tree: the names that lead to it from the root. -/
abbrev Place := List String

/-- The directories on the way from the root to where a walk stands, innermost first, each with its
name and its entries. -/
abbrev Trail := List (String × List (String × Entry))

/-- A bound on what a file takes. -/
structure WriteLimit where
  /-- How many bytes the file takes. -/
  size : Nat
  /-- Why it takes no more. -/
  error : FileError

structure FileSystem where
  /-- The entries of the root directory. -/
  entries : List (String × Entry)
  /-- The absolute path of the working directory. -/
  workingDir : String
  /-- The absolute path of the home directory of the user. -/
  homeDir : Option String
  /-- The places where a file does not take everything, such as those on a full device. -/
  limit : Place → Option WriteLimit := fun _ => none

/-- What is left of a write that fails. -/
structure FailedWrite where
  error : FileError
  files : FileSystem

namespace Entry

/-- The entry at a place below the given entries. -/
def find? : Place → List (String × Entry) → Option Entry
  | [], entries => some (.directory entries)
  | name :: place, entries =>
      match List.lookup name entries with
      | none => none
      | some (.directory inner) => find? place inner
      | some entry => if place.isEmpty then some entry else none

/-- Gives a name a new meaning where it stands, or at the end if it is new. -/
def put (name : String) (entry : Entry) : List (String × Entry) → List (String × Entry)
  | [] => [(name, entry)]
  | old :: rest => if old.1 = name then (name, entry) :: rest else old :: put name entry rest

/-- Puts an entry at a place, with all directories that lead to it. -/
def place : Place → Entry → List (String × Entry) → List (String × Entry)
  | [], _, entries => entries
  | [name], entry, entries => put name entry entries
  | name :: next :: more, entry, entries =>
      let inner :=
        match List.lookup name entries with
        | some (.directory inner) => inner
        | _ => []
      put name (.directory (place (next :: more) entry inner)) entries

end Entry

namespace Trail

def place (trail : Trail) : Place :=
  (trail.map Prod.fst).reverse

/-- The entries of the directory where a walk stands. -/
def entries (root : List (String × Entry)) : Trail → List (String × Entry)
  | [] => root
  | (_, inner) :: _ => inner

/-- The trail that goes on to a directory, given by its place below the end of the trail. -/
def extend? (trail : Trail) : Place → List (String × Entry) → Option Trail
  | [], _ => some trail
  | name :: place, entries =>
      match List.lookup name entries with
      | some (.directory inner) => extend? ((name, inner) :: trail) place inner
      | _ => none

/-- The trail to the directory at a place. -/
def to? (place : Place) (root : List (String × Entry)) : Option Trail :=
  extend? [] place root

end Trail

namespace FileSystem

/-- How many links may be followed on the way to one place. -/
def maxLinks : Nat := 40

/-- How many bytes a name may have. -/
def maxNameSize : Nat := 255

/-- How many bytes a path may have. -/
def maxPathSize : Nat := 4095

/-- The step that a separator at the end of a path stands for. It stays where it is, but only in a
directory. -/
def stay : String := ""

/-- The steps of a path: its names, dots included, and what a separator at its end asks for. -/
def steps (path : String) : List String :=
  let named := (Path.parts path).filter (· != "")
  if path.toList.getLast? == some '/' then named ++ [stay] else named

/-- Where the steps of a path start. -/
def startOf {α : Type} (path : String) (here : List α) : List α :=
  if Path.isAbsolute path then [] else here

/-- Walks along the steps of a path. `follow` goes on at a link, given where the link is, its target
and the steps after it; it is not asked at the last step unless `followLast` is set. With
`mayCreate` the last step may lead to a place where there is nothing yet, and it must not ask for a
directory. -/
def walkSteps (root : List (String × Entry)) (followLast mayCreate : Bool)
    (follow : Trail → String → List String → Except FileError Place) (here : Trail) :
    List String → Except FileError Place
  | [] => .ok here.place
  | step :: rest =>
      if step = stay || step = "." then walkSteps root followLast mayCreate follow here rest
      else if step = ".." then walkSteps root followLast mayCreate follow here.tail rest
      else if mayCreate && rest == [stay] then .error .isDirectory
      else if maxNameSize < step.utf8ByteSize then .error .nameTooLong
      else
        match List.lookup step (here.entries root) with
        | none =>
            if mayCreate && rest.isEmpty then .ok (here.place ++ [step]) else .error .notFound
        | some (.directory inner) =>
            walkSteps root followLast mayCreate follow ((step, inner) :: here) rest
        | some (.file _) =>
            if rest.isEmpty then .ok (here.place ++ [step]) else .error .notDirectory
        | some (.link target) =>
            if rest.isEmpty && !followLast then .ok (here.place ++ [step])
            else follow here target rest

/-- Walks along the steps of a path, following at most the given number of links. -/
def walk (root : List (String × Entry)) (followLast mayCreate : Bool) :
    Nat → Trail → List String → Except FileError Place
  | 0, here, path =>
      walkSteps root followLast mayCreate (fun _ _ _ => .error .tooManyLinks) here path
  | links + 1, here, path =>
      walkSteps root followLast mayCreate
        (fun here target rest =>
          walk root followLast mayCreate links (startOf target here) (steps target ++ rest))
        here path

/-- The place of the working directory. -/
def workingPlace (files : FileSystem) : Place :=
  (Path.parts files.workingDir).filter (· != "")

/-- The place that a path leads to. -/
def resolve (files : FileSystem) (followLast mayCreate : Bool) (path : String) :
    Except FileError Place :=
  if path = "" then .error .notFound
  else if maxPathSize < path.utf8ByteSize then .error .nameTooLong
  else
    match Trail.to? (startOf path files.workingPlace) files.entries with
    | none => .error .notFound
    | some here => walk files.entries followLast mayCreate maxLinks here (steps path)

/-- What a path leads to; a link at its end is followed if `followLast` is set. -/
def entryAt (files : FileSystem) (followLast : Bool) (path : String) : Except FileError Entry :=
  match files.resolve followLast false path with
  | .error error => .error error
  | .ok place =>
      match Entry.find? place files.entries with
      | some entry => .ok entry
      | none => .error .notFound

def isFile (files : FileSystem) (path : String) : Bool :=
  match files.entryAt true path with
  | .ok (.file _) => true
  | _ => false

def isDirectory (files : FileSystem) (path : String) : Bool :=
  match files.entryAt true path with
  | .ok (.directory _) => true
  | _ => false

def isPresent (files : FileSystem) (path : String) : Bool :=
  match files.entryAt true path with
  | .ok _ => true
  | .error _ => false

def readBytes (files : FileSystem) (path : String) : Except FileError ByteArray :=
  match files.entryAt true path with
  | .ok (.file bytes) => .ok bytes
  | .ok _ => .error .isDirectory
  | .error error => .error error

/-- The text of a file. -/
def readText (files : FileSystem) (path : String) : Except FileError String :=
  match files.readBytes path with
  | .error error => .error error
  | .ok bytes =>
      match String.fromUTF8? bytes with
      | some text => .ok text
      | none => .error .notText

/-- The file system with the given bytes in the file at a place. -/
def withFile (files : FileSystem) (place : Place) (bytes : ByteArray) : FileSystem :=
  { files with entries := Entry.place place (.file bytes) files.entries }

/-- Writes the given bytes to a file. Nothing is created on the way to it. A file that takes fewer
bytes is left with those that it takes. -/
def writeBytes (files : FileSystem) (path : String) (bytes : ByteArray) :
    Except FailedWrite FileSystem :=
  match files.resolve true true path with
  | .error error => .error { error, files }
  | .ok place =>
      match Entry.find? place files.entries with
      | some (.directory _) => .error { error := .isDirectory, files }
      | _ =>
          match files.limit place with
          | none => .ok (files.withFile place bytes)
          | some limit =>
              if limit.size < bytes.size then
                .error
                  { error := limit.error
                    files := files.withFile place (bytes.extract 0 limit.size) }
              else .ok (files.withFile place bytes)

def writeText (files : FileSystem) (path text : String) : Except FailedWrite FileSystem :=
  files.writeBytes path text.toUTF8

end FileSystem

end ScriptLint
