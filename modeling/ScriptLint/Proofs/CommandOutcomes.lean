import ScriptLint.Command
import ScriptLint.Proofs.ExcludePatterns
import ScriptLint.Proofs.FileSystem.Writing
import ScriptLint.Proofs.ParallelAnalysis

/-!
# Outcomes of commands

A check fails if the settings have a defect, if what the path stands for cannot be checked, or if
the report cannot be written. Settings that cannot be loaded are not among the reasons, since the
defaults take their place. A check that does not fail leaves its report, printed or written, and
nothing else, and its status depends on the findings alone.

A check that fails prints nothing, and in most cases it changes no file. But the report is written
straight to the output file. If the file is opened and does not take all of the report, what it held
before is gone, and a part of the report stands there.

All other commands keep to the same frame, and only one of them writes a file.
-/

namespace ScriptLint

/-! ## What a path stands for -/

namespace FileSystem

variable {files : FileSystem} {path : String}

theorem isFile_of_isDirectory (h : files.isDirectory path = true) : files.isFile path = false := by
  unfold isDirectory at h
  unfold isFile
  split at h
  · next entries hentry => rw [hentry]
  · cases h

end FileSystem

namespace Settings

variable (settings : Settings) (files : FileSystem) (path : String)

/-- Why what a path stands for cannot be checked. -/
inductive FailsAt : Prop where
  /-- The path is neither a file nor a directory. -/
  | path (hfile : files.isFile path = false) (hdirectory : files.isDirectory path = false)
  /-- An exclude pattern cannot be read. It matters only below a directory. -/
  | pattern (hdirectory : files.isDirectory path = true) (pattern : String)
      (hpattern : pattern ∈ settings.exclude) (error : GlobError)
      (hmalformed : Glob.parse {} pattern = .error error)
  /-- All exclude patterns can be read, but one of them is nested too deep to be put to use. -/
  | nesting (hdirectory : files.isDirectory path = true)
      (hread : ∀ pattern ∈ settings.exclude, ∃ glob, Glob.parse {} pattern = .ok glob)
      (pattern : String) (hpattern : pattern ∈ settings.exclude) (glob : Glob)
      (hglob : Glob.parse {} pattern = .ok glob) (hrefused : glob.isRefused = true)
  /-- The file cannot be read as text. -/
  | text (hfile : files.isFile path = true) (hread : ∀ text, files.readText path ≠ .ok text)

theorem ofSettings_isOk_iff :
    (∃ selection, Selection.ofSettings settings = .ok selection) ↔
      ∀ pattern ∈ settings.exclude, Glob.isMalformed pattern = false :=
  Selection.ofPatterns_isOk_iff settings.extensions settings.exclude

variable {settings files path}

theorem analyze_of_isFile (h : files.isFile path = true) :
    settings.analyze files path =
      (settings.checkFile files path).map fun findings => { findings, filesAnalyzed := 1 } := by
  rw [analyze, if_pos h]

theorem analyze_of_isDirectory (h : files.isDirectory path = true) {selection : Selection}
    (hselection : Selection.ofSettings settings = .ok selection) :
    ∃ analysis, settings.analyze files path = .ok analysis := by
  have hfile : ¬ files.isFile path = true := by simp [FileSystem.isFile_of_isDirectory h]
  rw [analyze, if_neg hfile, collectFiles, if_neg hfile, h, hselection]
  exact ⟨_, rfl⟩

theorem analyze_of_isMalformed (hdirectory : files.isDirectory path = true) {pattern : String}
    (hpattern : pattern ∈ settings.exclude) (hmalformed : Glob.isMalformed pattern = true) :
    ∃ fault, settings.analyze files path = .error fault := by
  have hfile : ¬ files.isFile path = true := by
    simp [FileSystem.isFile_of_isDirectory hdirectory]
  rw [analyze, if_neg hfile, collectFiles, if_neg hfile, hdirectory]
  cases hselection : Selection.ofSettings settings with
  | error reason => exact ⟨_, rfl⟩
  | ok selection =>
      have hall := (ofSettings_isOk_iff settings).mp ⟨selection, hselection⟩
      rw [hall pattern hpattern] at hmalformed
      cases hmalformed

/-- A malformed pattern is one that cannot be read, unless all can be read. -/
theorem FailsAt.of_isMalformed (hdirectory : files.isDirectory path = true) {pattern : String}
    (hpattern : pattern ∈ settings.exclude) (hmalformed : Glob.isMalformed pattern = true) :
    settings.FailsAt files path := by
  by_cases hread : ∀ pattern ∈ settings.exclude, ∃ glob, Glob.parse {} pattern = .ok glob
  · obtain ⟨glob, hglob⟩ := hread pattern hpattern
    rw [Selection.isMalformed_of_parse hglob] at hmalformed
    exact .nesting hdirectory hread pattern hpattern glob hglob hmalformed
  · push Not at hread
    obtain ⟨unread, hunread, hnone⟩ := hread
    cases hparse : Glob.parse {} unread with
    | ok glob => exact absurd hparse (hnone glob)
    | error error => exact .pattern hdirectory unread hunread error hparse

/-- An analysis fails for one of the reasons. -/
theorem analyze_isOk_iff :
    (∃ analysis, settings.analyze files path = .ok analysis) ↔ ¬ settings.FailsAt files path := by
  constructor
  · rintro ⟨analysis, h⟩ hfails
    cases hfails with
    | path hfile hdirectory =>
        rw [analyze, if_neg (by simp [hfile]), collectFiles, if_neg (by simp [hfile]),
          hdirectory] at h
        cases h
    | pattern hdirectory pattern hpattern error hmalformed =>
        obtain ⟨fault, hfault⟩ :=
          analyze_of_isMalformed hdirectory hpattern (by rw [Glob.isMalformed, hmalformed])
        rw [hfault] at h
        cases h
    | nesting hdirectory _ pattern hpattern glob hglob hrefused =>
        obtain ⟨fault, hfault⟩ := analyze_of_isMalformed hdirectory hpattern
          ((Selection.isMalformed_of_parse hglob).trans hrefused)
        rw [hfault] at h
        cases h
    | text hfile hread =>
        rw [analyze_of_isFile hfile, checkFile, checkRead, FileSystem.read] at h
        cases htext : files.readText path with
        | ok text => exact hread text htext
        | error error =>
            simp only [htext] at h
            cases h
  · intro hnot
    cases hfile : files.isFile path with
    | true =>
        have hread : ∃ text, files.readText path = .ok text := by
          by_contra hnone
          exact hnot (.text hfile fun text htext => hnone ⟨text, htext⟩)
        obtain ⟨text, htext⟩ := hread
        exact ⟨_, settings.analyze_of_readText htext { total := 0 }⟩
    | false =>
        cases hdirectory : files.isDirectory path with
        | false => exact absurd (.path hfile hdirectory) hnot
        | true =>
            have hpatterns : ∀ pattern ∈ settings.exclude, Glob.isMalformed pattern = false := by
              intro pattern hpattern
              by_contra hmalformed
              exact hnot (.of_isMalformed hdirectory hpattern (by simpa using hmalformed))
            obtain ⟨selection, hselection⟩ := (ofSettings_isOk_iff settings).mpr hpatterns
            exact analyze_of_isDirectory hdirectory hselection

end Settings

/-! ## Statuses -/

/-- Some finding fails a run. -/
def HasBlocking (findings : List Finding) (failOnWarning : Bool) : Prop :=
  (∃ finding ∈ findings, finding.severity = .error) ∨
    (failOnWarning = true ∧ ∃ finding ∈ findings, finding.severity = .warning)

namespace ExitStatus

variable (findings : List Finding) (failOnWarning : Bool)

theorem ofFindings_cases :
    (HasBlocking findings failOnWarning ∧ ofFindings findings failOnWarning = .blocked) ∨
      (¬ HasBlocking findings failOnWarning ∧ ofFindings findings failOnWarning = .clean) := by
  unfold ofFindings HasBlocking
  split
  · next h => exact .inl ⟨by simpa using h, rfl⟩
  · next h => exact .inr ⟨by simpa using h, rfl⟩

theorem code_ofFindings_ne_two : (ofFindings findings failOnWarning).code ≠ 2 := by
  rcases ofFindings_cases findings failOnWarning with ⟨-, h⟩ | ⟨-, h⟩ <;> rw [h] <;> decide

theorem code_ofFindings_eq_one_iff :
    (ofFindings findings failOnWarning).code = 1 ↔ HasBlocking findings failOnWarning := by
  rcases ofFindings_cases findings failOnWarning with ⟨hblocking, h⟩ | ⟨hblocking, h⟩ <;>
    simp [h, hblocking, code]

end ExitStatus

namespace CheckOptions

section

variable (options : CheckOptions) (general : GlobalOptions) (files : FileSystem)

/-- The settings that a check starts from: those that are found, or the defaults if none are wanted
or they cannot be loaded. -/
def startingSettings : Settings :=
  if general.noConfig then {}
  else
    match Settings.loadOrDiscover files.access options.config with
    | .ok loaded => loaded.settings
    | .error _ => {}

/-- The settings of a check. -/
def effectiveSettings : Settings :=
  options.override (options.startingSettings general files)

/-- The report of a check on findings. -/
def reportText (onTerminal : Bool) (findings : List Finding) : String :=
  report options.format (options.isColored general onTerminal) findings

/-- All is well up to the report, and of the report the output file takes only the given first part.
-/
structure CutsShort (onTerminal : Bool) (path : String) (part : ByteArray) : Prop where
  noDefect : (options.effectiveSettings general files).defect? = none
  output : options.output = some path
  part : ∃ analysis,
    (options.effectiveSettings general files).analyze files options.path = .ok analysis ∧
      files.TakesPart path (options.reportText general onTerminal analysis.findings).toUTF8 part

/-- Why a check fails. -/
inductive Fails (onTerminal : Bool) : Prop where
  | defect (defect : Settings.Defect)
      (h : (options.effectiveSettings general files).defect? = some defect)
  | analysis (h : (options.effectiveSettings general files).FailsAt files options.path)
  /-- The report is to be written to a file, and the file cannot be opened. -/
  | closed (path : String) (hpath : options.output = some path) (h : ¬ files.CanOpen path)
  | cutShort (path : String) (part : ByteArray)
      (h : options.CutsShort general files onTerminal path part)

theorem baseSettings_fst :
    (options.baseSettings general files).1 = options.startingSettings general files := by
  unfold baseSettings startingSettings
  split
  · rfl
  · cases Settings.loadOrDiscover files.access options.config <;> rfl

end

variable {options : CheckOptions} {general : GlobalOptions} {files : FileSystem}
  {onTerminal : Bool}

/-- What is said about settings that could be loaded. -/
def sourceNotices (general : GlobalOptions) (loaded : LoadedSettings) : List Notice :=
  match loaded.source with
  | some path => general.remark ("Using config: " ++ path)
  | none => []

theorem baseSettings_of_noConfig (h : general.noConfig = true) :
    options.baseSettings general files = ({}, []) := by
  rw [baseSettings, if_pos h]

theorem baseSettings_of_loaded {loaded : LoadedSettings} (hwanted : general.noConfig = false)
    (h : Settings.loadOrDiscover files.access options.config = .ok loaded) :
    options.baseSettings general files = (loaded.settings, sourceNotices general loaded) := by
  rw [baseSettings, hwanted, h]
  rfl

/-- What a check does once it has its settings and what there is to say about them. -/
def runWith (options : CheckOptions) (settings : Settings) (notices : List Notice)
    (general : GlobalOptions) (onTerminal : Bool) (files : FileSystem) : Outcome :=
  match settings.defect? with
  | some defect => .failed files notices (.config (.defect defect))
  | none =>
      match settings.analyze files options.path with
      | .error fault => .failed files notices fault
      | .ok analysis =>
          options.deliver general files (notices ++ analysisNotices general settings analysis)
            (.ofFindings analysis.findings settings.failOnWarning)
            (options.reportText general onTerminal analysis.findings)

/-- A check is run with its effective settings. Counting the files changes nothing. -/
theorem run_eq_runWith (options : CheckOptions) (general : GlobalOptions) (onTerminal : Bool)
    (files : FileSystem) :
    options.run general onTerminal files =
      options.runWith (options.effectiveSettings general files)
        (options.baseSettings general files).2 general onTerminal files := by
  unfold run runWith effectiveSettings
  rw [← baseSettings_fst]
  dsimp only
  rw [← Settings.analyzeCounting_fst]
  cases (options.override (options.baseSettings general files).1).analyzeCounting files
    options.path with
  | error fault => rfl
  | ok counted => rfl

theorem run_of_defect {defect : Settings.Defect}
    (h : (options.effectiveSettings general files).defect? = some defect) :
    options.run general onTerminal files =
      .failed files (options.baseSettings general files).2 (.config (.defect defect)) := by
  rw [run_eq_runWith, runWith, h]

theorem run_of_fault (hdefect : (options.effectiveSettings general files).defect? = none)
    {fault : Fault}
    (h : (options.effectiveSettings general files).analyze files options.path = .error fault) :
    options.run general onTerminal files =
      .failed files (options.baseSettings general files).2 fault := by
  rw [run_eq_runWith, runWith, hdefect, h]

theorem run_of_analysis (general : GlobalOptions) (onTerminal : Bool) {files : FileSystem}
    (hdefect : (options.effectiveSettings general files).defect? = none)
    {analysis : Analysis}
    (h : (options.effectiveSettings general files).analyze files options.path = .ok analysis) :
    ∃ notices, options.run general onTerminal files =
      options.deliver general files notices
        (.ofFindings analysis.findings (options.effectiveSettings general files).failOnWarning)
        (options.reportText general onTerminal analysis.findings) := by
  rw [run_eq_runWith, runWith, hdefect, h]
  exact ⟨_, rfl⟩

/-- What a check that does not fail leaves behind: its report, printed or in the output file. -/
def Leaves (options : CheckOptions) (general : GlobalOptions) (files : FileSystem) (text : String)
    (outcome : Outcome) : Prop :=
  match options.output with
  | none => outcome.output = (if general.quiet then "" else text) ∧ outcome.files = files
  | some path => outcome.output = "" ∧ files.Wrote path text.toUTF8 outcome.files

section Deliver

variable (notices : List Notice) (status : ExitStatus) {text path : String}

/-- A report is delivered if the output file takes all of it. -/
theorem deliver_of_canOpen (hopen : ∀ path, options.output = some path → files.CanOpen path)
    (hall : ∀ path, options.output = some path → ∀ part, ¬ files.TakesPart path text.toUTF8 part) :
    (options.deliver general files notices status text).status = status ∧
      options.Leaves general files text
        (options.deliver general files notices status text) := by
  unfold deliver Leaves FileSystem.writeText
  cases hpath : options.output with
  | none => exact ⟨rfl, rfl, rfl⟩
  | some path =>
      have hends := files.writeEnds path text.toUTF8
      dsimp only
      generalize files.writeBytes path text.toUTF8 = result at hends ⊢
      cases hends with
      | refused error hclosed => exact absurd (hopen path hpath) hclosed
      | cutShort error hpart _ => exact absurd hpart (hall path hpath _)
      | complete _ _ hwrote => exact ⟨rfl, rfl, hwrote⟩

theorem deliver_of_closed (hpath : options.output = some path) (hclosed : ¬ files.CanOpen path) :
    ∃ fault, options.deliver general files notices status text = .failed files notices fault := by
  unfold deliver FileSystem.writeText
  obtain ⟨error, herror⟩ := FileSystem.writeBytes_of_not_canOpen hclosed text.toUTF8
  rw [hpath]
  dsimp only
  rw [herror]
  exact ⟨_, rfl⟩

/-- A report that is cut short stands in the output file as far as it goes. -/
theorem deliver_of_takesPart {part : ByteArray} (hpath : options.output = some path)
    (hpart : files.TakesPart path text.toUTF8 part) :
    ∃ fault left, files.Wrote path part left ∧
      options.deliver general files notices status text = .failed left notices fault := by
  unfold deliver FileSystem.writeText
  have hends := files.writeEnds path text.toUTF8
  rw [hpath]
  dsimp only
  generalize files.writeBytes path text.toUTF8 = result at hends ⊢
  cases hends with
  | refused error hclosed => exact absurd hpart.canOpen hclosed
  | cutShort error hpart' hwrote =>
      rw [← hpart.eq hpart'] at hwrote
      exact ⟨_, _, hwrote, rfl⟩
  | complete _ hall _ => exact absurd hpart (hall part)

end Deliver

/-- A check that fails prints nothing and leaves the files as they are, unless its report is cut
short. -/
theorem run_of_fails (h : options.Fails general files onTerminal)
    (hwhole : ∀ path part, ¬ options.CutsShort general files onTerminal path part) :
    ∃ notices fault, options.run general onTerminal files = .failed files notices fault := by
  cases hdefect : (options.effectiveSettings general files).defect? with
  | some defect => exact ⟨_, _, run_of_defect hdefect⟩
  | none =>
      cases hanalysis : (options.effectiveSettings general files).analyze files options.path with
      | error fault => exact ⟨_, _, run_of_fault hdefect hanalysis⟩
      | ok analysis =>
          -- all has gone well up to the report, so it is the output file that is to blame
          cases h with
          | defect defect hdefect' =>
              rw [hdefect] at hdefect'
              cases hdefect'
          | analysis hfails => exact absurd hfails (Settings.analyze_isOk_iff.mp ⟨_, hanalysis⟩)
          | closed path hpath hclosed =>
              obtain ⟨notices, hrun⟩ := run_of_analysis general onTerminal hdefect hanalysis
              rw [hrun]
              exact ⟨notices, deliver_of_closed notices _ hpath hclosed⟩
          | cutShort path part hpart => exact absurd hpart (hwhole path part)

theorem run_of_cutsShort {path : String} {part : ByteArray}
    (h : options.CutsShort general files onTerminal path part) :
    (options.run general onTerminal files).status = .faulty ∧
      (options.run general onTerminal files).output = "" ∧
      files.Wrote path part (options.run general onTerminal files).files := by
  obtain ⟨analysis, hanalysis, hpart⟩ := h.part
  obtain ⟨notices, hrun⟩ := run_of_analysis general onTerminal h.noDefect hanalysis
  obtain ⟨fault, left, hwrote, hdeliver⟩ := deliver_of_takesPart notices _ h.output hpart
  rw [hrun, hdeliver]
  exact ⟨rfl, rfl, hwrote⟩

/-- A check that does not fail reports what its analysis finds. -/
theorem run_of_not_fails (h : ¬ options.Fails general files onTerminal) :
    ∃ analysis,
      (options.effectiveSettings general files).analyze files options.path = .ok analysis ∧
      (options.run general onTerminal files).status =
        .ofFindings analysis.findings (options.effectiveSettings general files).failOnWarning ∧
      options.Leaves general files (options.reportText general onTerminal analysis.findings)
        (options.run general onTerminal files) := by
  have hdefect : (options.effectiveSettings general files).defect? = none := by
    cases hdefect : (options.effectiveSettings general files).defect? with
    | none => rfl
    | some defect => exact absurd (.defect defect hdefect) h
  obtain ⟨analysis, hanalysis⟩ :=
    Settings.analyze_isOk_iff.mpr fun hfails => h (.analysis hfails)
  obtain ⟨notices, hrun⟩ := run_of_analysis general onTerminal hdefect hanalysis
  refine ⟨analysis, hanalysis, ?_⟩
  rw [hrun]
  refine deliver_of_canOpen notices _ ?_ ?_
  · intro path hpath
    by_contra hclosed
    exact h (.closed path hpath hclosed)
  · intro path hpath part hpart
    exact h (.cutShort path part ⟨hdefect, hpath, analysis, hanalysis, hpart⟩)

theorem faulty_of_fails (h : options.Fails general files onTerminal) :
    (options.run general onTerminal files).status = .faulty ∧
      (options.run general onTerminal files).output = "" := by
  by_cases hwhole : ∀ path part, ¬ options.CutsShort general files onTerminal path part
  · obtain ⟨notices, fault, hrun⟩ := run_of_fails h hwhole
    rw [hrun]
    exact ⟨rfl, rfl⟩
  · push Not at hwhole
    obtain ⟨path, part, hpart⟩ := hwhole
    obtain ⟨hstatus, houtput, -⟩ := run_of_cutsShort hpart
    exact ⟨hstatus, houtput⟩

theorem code_eq_two_iff (onTerminal : Bool) :
    (options.run general onTerminal files).status.code = 2 ↔
      options.Fails general files onTerminal := by
  constructor
  · intro hcode
    by_contra hnot
    obtain ⟨analysis, -, hstatus, -⟩ := run_of_not_fails hnot
    exact ExitStatus.code_ofFindings_ne_two _ _ (hstatus ▸ hcode)
  · intro hfails
    rw [(faulty_of_fails hfails).1]
    rfl

end CheckOptions

/-! ## All commands -/

namespace ConfigCommand

/-- What is written to a settings file that is created. -/
def createdBytes : ByteArray :=
  ({} : Settings).jsonText.toUTF8

/-- The creation of a settings file does nothing, or all, or it is cut short. -/
theorem create_cases (output : String) (force : Bool) (files : FileSystem) :
    (∃ fault, create output force files = .failed files [] fault) ∨
      (∃ text written, files.Wrote output createdBytes written ∧
        create output force files = .printed written [] text) ∨
      ∃ part left fault, files.TakesPart output createdBytes part ∧
        files.Wrote output part left ∧ create output force files = .failed left [] fault := by
  unfold create FileSystem.writeText
  split
  · exact .inl ⟨_, rfl⟩
  · have hends : files.WriteEnds output createdBytes
        (files.writeBytes output ({} : Settings).jsonText.toUTF8) :=
      files.writeEnds output createdBytes
    generalize files.writeBytes output ({} : Settings).jsonText.toUTF8 = result at hends ⊢
    cases hends with
    | refused error _ => exact .inl ⟨_, rfl⟩
    | cutShort error hpart hwrote => exact .inr (.inr ⟨_, _, _, hpart, hwrote, rfl⟩)
    | complete _ _ hwrote => exact .inr (.inl ⟨_, _, hwrote, rfl⟩)

end ConfigCommand

open ConfigCommand (createdBytes)

end ScriptLint
