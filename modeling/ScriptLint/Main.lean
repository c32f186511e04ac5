import ScriptLint.Command

/-!
# The program

The program takes a picture of the files that a command can look at, runs the command on the
picture and then writes what the command has written there. Of the files that are checked only
those are read that the settings select. The picture limits no file: what the disk does not take
shows when it is written.
-/

namespace ScriptLint

namespace Program

/-- What a path stands for, without following a link at its end. -/
def kindOf? (path : String) : IO (Option IO.FS.FileType) := do
  let place := { (← IO.currentDir) with toString := path }
  try
    return some (← place.symlinkMetadata).type
  catch _ =>
    return none

def namesIn (path : String) : IO (List String) := do
  let place := { (← IO.currentDir) with toString := path }
  try
    return (← place.readDir).toList.map fun entry => entry.fileName
  catch _ =>
    return []

/-- The contents of a file if they are wanted. -/
def contents (wanted : String → Bool) (path : String) : IO ByteArray :=
  if wanted path then IO.FS.readBinFile path else return ByteArray.empty

/-- Where a link leads in the end. -/
def targetOf (path : String) : IO String := do
  try
    return (← IO.FS.realPath path).toString
  catch _ =>
    return ""

def pathTo (place : Place) : String :=
  "/" ++ "/".intercalate place

/-- A directory with everything below it. -/
partial def tree (wanted : String → Bool) (place : Place) : IO (List (String × Entry)) := do
  let mut entries := #[]
  for name in ← namesIn (pathTo place) do
    let inner := place ++ [name]
    match ← kindOf? (pathTo inner) with
    | some .dir => entries := entries.push (name, Entry.directory (← tree wanted inner))
    | some .symlink => entries := entries.push (name, Entry.link (← targetOf (pathTo inner)))
    | some .file => entries := entries.push (name, Entry.file (← contents wanted (pathTo inner)))
    | _ => pure ()
  return entries.toList

def put (files : FileSystem) (place : Place) (entry : Entry) : FileSystem :=
  match place, entry with
  | [], .directory entries => { files with entries }
  | _, _ => { files with entries := Entry.place place entry files.entries }

/-- Adds to a picture what stands along a path, and all that is below it if `deep` is set. -/
partial def addAlong (deep : Bool) (wanted : String → Bool) (files : FileSystem) (here : Place)
    (steps : List String) : IO FileSystem := do
  match steps with
  | [] =>
      if deep then return put files here (.directory (← tree wanted here)) else return files
  | "" :: rest | "." :: rest => addAlong deep wanted files here rest
  | ".." :: rest => addAlong deep wanted files here.dropLast rest
  | name :: rest =>
      let place := here ++ [name]
      match ← kindOf? (pathTo place) with
      | some .dir =>
          let files :=
            match Entry.find? place files.entries with
            | some _ => files
            | none => put files place (.directory [])
          addAlong deep wanted files place rest
      | some .symlink =>
          let target ← targetOf (pathTo place)
          if target == "" then return put files place (.link target)
          addAlong deep wanted (put files place (.link target)) [] (FileSystem.steps target ++ rest)
      | some .file => return put files place (.file (← contents wanted (pathTo place)))
      | _ => return files

def addPath (deep : Bool) (wanted : String → Bool) (files : FileSystem) (path : String) :
    IO FileSystem :=
  addAlong deep wanted files (FileSystem.startOf path files.workingPlace) (FileSystem.steps path)

def addFile (files : FileSystem) (path : String) : IO FileSystem :=
  addPath false (fun _ => true) files path

/-- Whether a file may tell which files are ignored. -/
def isIgnoreFile (path : String) : Bool :=
  [some ".ignore", some ".gitignore", some ".git", some "exclude"].contains (Path.fileName? path)

/-- Adds to a picture what version control keeps elsewhere about a directory and those below it. -/
partial def addControl (files : FileSystem) (directory : String) : IO FileSystem := do
  let own := Path.join directory ".git"
  let mut files := files
  if files.isFile own then
    files ← addFile files own
    if let some linked := IgnoreLevel.linkedDir? files own then
      files ← addFile files (Path.join linked "commondir")
    if let some exclude := IgnoreLevel.excludePath? files directory then
      files ← addFile files exclude
  if let .ok (.directory entries) := files.entryAt true directory then
    for (name, entry) in entries do
      if entry.isDirectory then
        files ← addControl files (Path.join directory name)
  return files

/-- The paths of single files that a command may look at, apart from those it checks. -/
def sidePaths (command : Command) (files : FileSystem) : List String :=
  let named :=
    match command with
    | .check options => options.config.toList ++ options.output.toList
    | .rules => []
    | .createConfig output _ => [output]
    | .validateConfig config => config.toList
    | .showConfig config _ => config.toList
  let ofUser :=
    match files.homeDir with
    | none => []
    | some home => [Path.join home ".gitconfig", Path.join home ".config/git/config"]
  named ++ Settings.candidates files.access ++ ofUser

/-- The picture that a command is run on. -/
def picture (invocation : Invocation) : IO FileSystem := do
  let workingDir := (← IO.currentDir).toString
  let homeDir ← IO.getEnv "HOME"
  let mut files : FileSystem := { entries := [], workingDir, homeDir }
  files ← addFile files workingDir
  if let .check options := invocation.command then
    files ← addPath true isIgnoreFile files options.path
    files ← addControl files options.path
  for path in sidePaths invocation.command files do
    files ← addFile files path
  if let some home := homeDir then
    files ← addFile files (UserIgnore.path files home)
  if let .check options := invocation.command then
    let settings := options.override (options.baseSettings invocation.options files).1
    if let .ok paths := settings.collectFiles files options.path then
      for path in paths do
        files ← addFile files path
  return files

/-- The file that a command writes. -/
def writtenPath? : Command → Option String
  | .check options => options.output
  | .createConfig output _ => some output
  | _ => none

/-- Writes to disk what a command has written to the picture. -/
def writeBack (command : Command) (outcome : Outcome) : IO Unit := do
  match writtenPath? command, outcome.status with
  | some _, .faulty => return
  | some path, _ =>
      match outcome.files.readBytes path with
      | .ok bytes => IO.FS.writeBinFile path bytes
      | .error _ => return
  | none, _ => return

/-- The outcome after everything is written, which may fail. -/
def settled (command : Command) (files : FileSystem) (outcome : Outcome) : IO Outcome := do
  try
    writeBack command outcome
    return outcome
  catch error =>
    return .failed files outcome.notices (.io (.other (toString error)))

def runArguments (arguments : List String) : IO UInt32 := do
  let stdout ← IO.getStdout
  let stderr ← IO.getStderr
  match Invocation.ofArguments arguments with
  | .error error =>
      let answer := UsageAnswer.ofError error
      stdout.putStr answer.output
      stderr.putStr answer.notice
      return answer.status.code.toUInt32
  | .ok invocation =>
      let colorsWanted := (← IO.getEnv "NO_COLOR").isNone
      let files ← picture invocation
      let outcome ← settled invocation.command files
        (invocation.run (colorsWanted && (← stdout.isTty)) files)
      stderr.putStr
        (outcome.noticeText (invocation.colorsNotices (colorsWanted && (← stderr.isTty))))
      stdout.putStr outcome.output
      return outcome.status.code.toUInt32

end Program

end ScriptLint

def main (arguments : List String) : IO UInt32 :=
  ScriptLint.Program.runArguments arguments
