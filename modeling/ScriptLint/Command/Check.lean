import ScriptLint.Analysis
import ScriptLint.CommandLine.Basic
import ScriptLint.Outcome

/-!
# Checking files

A check takes the settings that are found, or the defaults if they cannot be loaded, changes them as
the command line says and reports what the rules find. The report is printed or written to a file.
That comes last: nothing is printed or written before all else that can go wrong has gone well.
-/

namespace ScriptLint

/-- The access to files that loading settings needs. -/
def FileSystem.access (files : FileSystem) : FileAccess where
  readText := files.readText
  isPresent := files.isPresent
  workingDir := some files.workingDir
  configDir := files.homeDir.map fun home => Path.join home ".config/gdsmell"

/-- Checks what a path stands for. The files below a directory are counted as they are done, and
the count is shown no longer when all are. -/
def Settings.analyzeCounting (settings : Settings) (files : FileSystem) (path : String) :
    Except Fault (Analysis × Option Progress) :=
  if files.isFile path then
    (settings.analyze files path).map fun analysis => (analysis, none)
  else
    (settings.collectFiles files path).map fun paths =>
      let (analysis, progress) := settings.checkFiles files paths { total := paths.length }
      (analysis, some progress.finish)

namespace GlobalOptions

def isVerbose (options : GlobalOptions) : Bool :=
  decide (1 ≤ options.verbosity)

/-- An info that is given only on demand. -/
def remark (options : GlobalOptions) (message : String) : List Notice :=
  if options.isVerbose then [.info message] else []

end GlobalOptions

namespace CheckOptions

/-- The settings that a check starts from, with what there is to say about them. -/
def baseSettings (options : CheckOptions) (general : GlobalOptions) (files : FileSystem) :
    Settings × List Notice :=
  if general.noConfig then ({}, [])
  else
    match Settings.loadOrDiscover files.access options.config with
    | .ok loaded =>
        (loaded.settings,
          match loaded.source with
          | some path => general.remark ("Using config: " ++ path)
          | none => [])
    | .error fault =>
        ({}, [.setback fault, .warning "Falling back to the default configuration" none])

/-- Settings as the command line changes them. -/
def override (options : CheckOptions) (settings : Settings) : Settings :=
  { settings with
    maxLineLength := options.maxLineLength.getD settings.maxLineLength
    disabledRules :=
      settings.disabledRules ++ (options.disable.map trimmed).filter fun id => id != ""
    exclude := settings.exclude ++ options.exclude
    failOnWarning := settings.failOnWarning || options.failOnWarning }

/-- Whether the report is coloured. A file gets colours only if they are asked for. -/
def isColored (options : CheckOptions) (general : GlobalOptions) (onTerminal : Bool) : Bool :=
  general.color.isColored (onTerminal && options.output.isNone)

/-- What is said about an analysis. -/
def analysisNotices (general : GlobalOptions) (settings : Settings) (analysis : Analysis) :
    List Notice :=
  analysis.skipped.map Notice.setback ++
    general.remark ("Analyzed " ++ toString analysis.filesAnalyzed ++ " file(s) with " ++
      toString settings.rules.length ++ " rule(s)")

/-- Prints the report of an analysis, or writes it to a file. -/
def deliver (options : CheckOptions) (general : GlobalOptions) (files : FileSystem)
    (notices : List Notice) (status : ExitStatus) (text : String) : Outcome :=
  match options.output with
  | none => { status, output := if general.quiet then "" else text, notices, files }
  | some path =>
      match files.writeText path text with
      | .error failed => .failed failed.files notices (.io failed.error)
      | .ok written => { status, notices, files := written }

/-- Runs a check. `onTerminal` tells whether the output goes to a terminal that wants colours. -/
def run (options : CheckOptions) (general : GlobalOptions) (onTerminal : Bool)
    (files : FileSystem) : Outcome :=
  let (base, notices) := options.baseSettings general files
  let settings := options.override base
  match settings.defect? with
  | some defect => .failed files notices (.config (.defect defect))
  | none =>
      match settings.analyzeCounting files options.path with
      | .error fault => .failed files notices fault
      | .ok (analysis, _) =>
          options.deliver general files
            (notices ++ analysisNotices general settings analysis)
            (.ofFindings analysis.findings settings.failOnWarning)
            (report options.format (options.isColored general onTerminal) analysis.findings)

end CheckOptions

end ScriptLint
