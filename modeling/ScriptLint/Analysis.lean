import ScriptLint.FileSystem.Walk
import ScriptLint.Progress
import ScriptLint.Selection

/-!
# Analyses

An analysis checks a file, or all selected files below a directory. A file that is given directly
has to be readable. In a directory the files that cannot be read are skipped, and the others are
reported in the order in which they were listed. Every file counts as checked until it turns out
that it cannot be read.
-/

namespace ScriptLint

/-- What came of checking files. -/
structure Analysis where
  findings : List Finding := []
  /-- Why files were left out. -/
  skipped : List Fault := []
  /-- How many files were checked. -/
  filesAnalyzed : Nat := 0
  deriving DecidableEq, Repr

namespace Analysis

/-- Adds what came of one more file. -/
def add (analysis : Analysis) : Except Fault (List Finding) → Analysis
  | .ok findings => { analysis with findings := analysis.findings ++ findings }
  | .error fault =>
      { analysis with
        skipped := analysis.skipped ++ [fault]
        filesAnalyzed := analysis.filesAnalyzed - 1 }

/-- Takes together what came of files. -/
def ofOutcomes (outcomes : List (Except Fault (List Finding))) : Analysis :=
  outcomes.foldl add { filesAnalyzed := outcomes.length }

end Analysis

/-- A file and what reading it led to. -/
structure FileRead where
  path : String
  text : Except FileError String

def FileSystem.read (files : FileSystem) (path : String) : FileRead where
  path := path
  text := files.readText path

namespace Selection

/-- The selected files below a directory. -/
def filesBelow (selection : Selection) (files : FileSystem) (root : String) : List String :=
  (files.walkAll root).filter selection.selects

/-- The selected files below a directory that are not ignored. -/
def keptFilesBelow (selection : Selection) (files : FileSystem) (root : String) : List String :=
  (files.walkKept root).filter selection.selects

end Selection

namespace Settings

/-- The files that a path stands for: itself if it is one, else those selected below it. -/
def collectFiles (settings : Settings) (files : FileSystem) (path : String) :
    Except Fault (List String) :=
  if files.isFile path then .ok [path]
  else if !files.isDirectory path then .error (.invalidPath path)
  else
    match Selection.ofSettings settings with
    | .error (pattern, error) => .error (.invalidPattern pattern error)
    | .ok selection =>
        .ok (if settings.respectGitignore then selection.keptFilesBelow files path
          else selection.filesBelow files path)

/-- Checks a file, given what reading it led to. -/
def checkRead (settings : Settings) (file : FileRead) : Except Fault (List Finding) :=
  match file.text with
  | .error error => .error (.unreadable file.path error)
  | .ok text => .ok (settings.checkText file.path text)

def checkFile (settings : Settings) (files : FileSystem) (path : String) :
    Except Fault (List Finding) :=
  settings.checkRead (files.read path)

/-- Checks each of the given files and counts it as done. -/
def checkFiles (settings : Settings) (files : FileSystem) (paths : List String)
    (progress : Progress) : Analysis × Progress :=
  (Analysis.ofOutcomes (paths.map (settings.checkFile files)),
    paths.foldl (fun progress _ => progress.advance) progress)

/-- Checks what a path stands for. -/
def analyze (settings : Settings) (files : FileSystem) (path : String) : Except Fault Analysis :=
  if files.isFile path then
    (settings.checkFile files path).map fun findings => { findings, filesAnalyzed := 1 }
  else
    (settings.collectFiles files path).map fun paths =>
      (settings.checkFiles files paths { total := paths.length }).1

end Settings

end ScriptLint
