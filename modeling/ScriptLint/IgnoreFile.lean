import ScriptLint.FileSystem.Basic
import ScriptLint.Glob.Expression
import ScriptLint.Glob.Match
import ScriptLint.Glob.Parser
import ScriptLint.Text.Line

/-!
# Ignore files

An ignore file lists patterns, one on a line, for the entries of its directory and of all
directories below it. The last pattern that matches an entry decides whether the entry is ignored
or kept. Where files disagree, the file of the inner directory decides, and each kind of ignore
file comes before the next kind in all directories.
-/

namespace ScriptLint

/-- What an ignore file says about an entry. -/
inductive Verdict where
  | ignored
  | kept
  deriving DecidableEq, Repr

/-- One pattern of an ignore file. -/
structure IgnoreRule where
  glob : Glob
  verdict : Verdict
  directoriesOnly : Bool
  deriving Repr

namespace IgnoreRule

/-- In ignore files a star stops at a separator and a stray bracket stands for itself. -/
def style : GlobStyle where
  separatorsAreLiteral := true
  strayBracketIsLiteral := true

/-- The text of a pattern without what marks it as one for directories only. A backslash before the
separator at the end goes with it. -/
def splitDirectoryMark (line : List Char) : List Char × Bool :=
  match line.reverse with
  | '/' :: '\\' :: start => (start.reverse, true)
  | '/' :: start => (start.reverse, true)
  | _ => (line, false)

/-- The text of the glob that a pattern stands for. A pattern without a separator matches in every
directory, and one that ends in a double star matches only what lies inside. -/
def globText (anchored : Bool) (line : List Char) : List Char :=
  let anyDepth := !anchored && !line.contains '/' && line != ['*', '*']
  let text := if anyDepth then ['*', '*', '/'] ++ line else line
  if ['/', '*', '*'].isSuffixOf text then text ++ ['/', '*'] else text

/-- The rule that a pattern stands for, unless it is malformed. -/
def ofPattern? (verdict : Verdict) (anchored : Bool) (line : List Char) : Option IgnoreRule :=
  let marked := splitDirectoryMark line
  match Glob.parse style (String.ofList (globText anchored marked.1)) with
  | .ok glob => some { glob, verdict, directoriesOnly := marked.2 }
  | .error _ => none

/-- Reads a pattern after its exclamation mark, if it has one. -/
def ofBody? (verdict : Verdict) : List Char → Option IgnoreRule
  | '/' :: rest => ofPattern? verdict true rest
  | line => ofPattern? verdict false line

/-- The rule on a line, if there is one. Blanks at the end do not count unless the last one is
escaped. -/
def ofLine? (line : Line) : Option IgnoreRule :=
  let text := if ['\\', ' '].isSuffixOf line then line else line.trimEnd
  match text with
  | [] => none
  | '#' :: _ => none
  | '!' :: rest => ofBody? .kept rest
  | '\\' :: '!' :: rest => ofPattern? .ignored false ('!' :: rest)
  | '\\' :: '#' :: rest => ofPattern? .ignored false ('#' :: rest)
  | line => ofBody? .ignored line

def applies (rule : IgnoreRule) (path : String) (isDirectory : Bool) : Bool :=
  (isDirectory || !rule.directoriesOnly) && rule.glob.isMatch path

end IgnoreRule

/-- The rules of an ignore file and the directory that they are about. -/
structure IgnoreFile where
  directory : String := ""
  rules : List IgnoreRule := []
  deriving Repr

namespace IgnoreFile

/-- What is left of a text after the given start. -/
def rest? (start text : List Char) : Option (List Char) :=
  if start.isPrefixOf text then some (text.drop start.length) else none

/-- A path without the current directory in front. -/
def bare (path : String) : String :=
  String.ofList ((rest? ['.', '/'] path.toList).getD path.toList)

/-- The path of an entry as seen from the directory of the file. -/
def relative (file : IgnoreFile) (path : String) : String :=
  let path := bare path
  if Path.same file.directory "." || !path.toList.contains '/' then path
  else
    match rest? file.directory.toList path.toList with
    | none => path
    | some inner => String.ofList ((rest? ['/'] inner).getD inner)

/-- What the file says about an entry: the last rule that applies decides. -/
def verdict? (file : IgnoreFile) (path : String) (isDirectory : Bool) : Option Verdict :=
  (file.rules.reverse.find? fun rule => rule.applies (file.relative path) isDirectory).map
    IgnoreRule.verdict

/-- A line without the carriage return at its end. -/
def withoutReturn (line : List UInt8) : List UInt8 :=
  if line.getLast? == some 0x0d then line.dropLast else line

/-- The lines of a file. A carriage return before a line feed belongs to the line end, and there is
no line after the last line feed. -/
def byteLines (bytes : List UInt8) : List (List UInt8) :=
  let parts := cutAt 0x0a bytes
  parts.dropLast.map withoutReturn ++ (parts.getLast?.filter fun last => !last.isEmpty).toList

/-- The lines that hold text, up to the first that does not. -/
def textLines (bytes : ByteArray) : List Line :=
  let lines := (byteLines bytes.toList).map fun line => String.fromUTF8? ⟨line.toArray⟩
  (lines.takeWhile Option.isSome).filterMap fun line? => line?.map String.toList

/-- The rules on lines. A mark of the byte order in front of the first line does not count. -/
def rulesOf : List Line → List IgnoreRule
  | [] => []
  | first :: rest =>
      (IgnoreRule.ofLine? (first.dropWhile (· == '\ufeff'))).toList ++
        rest.filterMap IgnoreRule.ofLine?

/-- The ignore file at a path. A file that cannot be read has no rules, and neither has one with a
pattern that is nested too deep. -/
def read (files : FileSystem) (directory path : String) : IgnoreFile where
  directory := bare directory
  rules :=
    match files.readBytes path with
    | .ok bytes =>
        let rules := rulesOf (textLines bytes)
        if rules.any fun rule => rule.glob.isTooDeep then [] else rules
    | .error _ => []

end IgnoreFile

/-- The ignore files of one directory, one of each kind. -/
structure IgnoreLevel where
  general : IgnoreFile
  versioned : IgnoreFile
  excluded : IgnoreFile
  deriving Repr

namespace IgnoreLevel

/-- The first line of a file, if it has one and that is text. -/
def firstLine? (files : FileSystem) (path : String) : Option Line :=
  match files.readBytes path with
  | .ok bytes => (IgnoreFile.textLines bytes).head?
  | .error _ => none

/-- The directory that a file in place of `.git` leads to. -/
def linkedDir? (files : FileSystem) (path : String) : Option String :=
  ((firstLine? files path).bind (IgnoreFile.rest? "gitdir: ".toList)).map String.ofList

/-- The directory that a linked directory shares with others. It is seen from the linked directory
if it starts with a dot. -/
def sharedDir? (files : FileSystem) (linked : String) : Option String :=
  (firstLine? files (Path.join linked "commondir")).map fun line =>
    if line.head? == some '.' then Path.join linked (String.ofList line) else String.ofList line

/-- The directory in which version control keeps what it knows about a directory. -/
def controlDir? (files : FileSystem) (directory : String) : Option String :=
  let own := Path.join directory ".git"
  if files.isFile own then (linkedDir? files own).bind (sharedDir? files) else some own

/-- The path of the file with patterns that are not versioned themselves. -/
def excludePath? (files : FileSystem) (directory : String) : Option String :=
  (controlDir? files directory).map fun control => Path.join control "info/exclude"

def read (files : FileSystem) (directory : String) : IgnoreLevel where
  general := IgnoreFile.read files directory (Path.join directory ".ignore")
  versioned := IgnoreFile.read files directory (Path.join directory ".gitignore")
  excluded :=
    ((excludePath? files directory).map (IgnoreFile.read files directory)).getD
      { directory := IgnoreFile.bare directory }

end IgnoreLevel

/-- All ignore files that have a say: those of the directories on the way to an entry, innermost
first, and the one of the user. -/
structure IgnoreScope where
  levels : List IgnoreLevel := []
  user : IgnoreFile := {}
  deriving Repr

namespace IgnoreScope

/-- The scope inside a directory. -/
def enter (files : FileSystem) (scope : IgnoreScope) (directory : String) : IgnoreScope :=
  { scope with levels := IgnoreLevel.read files directory :: scope.levels }

/-- What the files in scope say about an entry. -/
def verdict? (scope : IgnoreScope) (path : String) (isDirectory : Bool) : Option Verdict :=
  let path := IgnoreFile.bare path
  let ask (kind : IgnoreLevel → IgnoreFile) : Option Verdict :=
    scope.levels.findSome? fun level => (kind level).verdict? path isDirectory
  (ask IgnoreLevel.general).or <| (ask IgnoreLevel.versioned).or <|
    (ask IgnoreLevel.excluded).or (scope.user.verdict? path isDirectory)

def ignores (scope : IgnoreScope) (path : String) (isDirectory : Bool) : Bool :=
  scope.verdict? path isDirectory == some .ignored

end IgnoreScope

end ScriptLint
