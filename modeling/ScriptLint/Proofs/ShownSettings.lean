import ScriptLint.Proofs.CommandOutcomes
import ScriptLint.Proofs.SettingsRoundTrip

/-!
# Shown settings

The settings that are shown are those that a check starts from: both are loaded from the file that
is named, else from the file that is found, else they are the defaults. The two part where a file is
named and yet no settings are wanted. A file that is named is always shown, but a check without
settings does not look at it.
-/

namespace ScriptLint

namespace CheckOptions

/-- The command line changes no setting. -/
structure OverridesNothing (options : CheckOptions) : Prop where
  maxLineLength : options.maxLineLength = none
  disable : options.disable = []
  exclude : options.exclude = []
  failOnWarning : options.failOnWarning = false

theorem OverridesNothing.override {options : CheckOptions} (h : options.OverridesNothing)
    (settings : Settings) : options.override settings = settings := by
  simp [CheckOptions.override, h.maxLineLength, h.disable, h.exclude, h.failOnWarning]

variable {options : CheckOptions} {general : GlobalOptions} {files : FileSystem}

/-- Without overrides a check is run with the settings it starts from. -/
theorem OverridesNothing.run (hnothing : options.OverridesNothing) {settings : Settings}
    {notices : List Notice} (h : options.baseSettings general files = (settings, notices))
    (onTerminal : Bool) :
    options.run general onTerminal files =
      options.runWith settings notices general onTerminal files := by
  rw [run_eq_runWith, effectiveSettings, ← baseSettings_fst, h, hnothing.override]

end CheckOptions

namespace ConfigCommand

variable {config : Option String} {general : GlobalOptions} {files : FileSystem}
  {loaded : LoadedSettings}

theorem display_of_shown (h : shown config general files = .ok loaded) (format : SettingsFormat) :
    display config format general files = .printed files [] (loaded.text format) := by
  rw [display, h]

theorem shown_of_noConfig (h : general.noConfig = true) :
    shown none general files = .ok { settings := {}, source := none } := by
  rw [shown, h]
  rfl

theorem shown_of_wanted (h : general.noConfig = false) :
    shown config general files = Settings.loadOrDiscover files.access config := by
  rw [shown, h]
  rfl

/-- A file that is named is loaded to be shown, whether or not settings are wanted. -/
theorem load_of_shown {path : String} (h : shown (some path) general files = .ok loaded) :
    Settings.load files.access path = .ok loaded := by
  rw [shown, Option.isNone_some, Bool.and_false] at h
  exact h

/-- A check starts from the settings that are shown, unless it is to start from none although a file
is named. -/
theorem baseSettings_of_shown (h : shown config general files = .ok loaded)
    (hunnamed : general.noConfig = true → config = none) {options : CheckOptions}
    (hconfig : options.config = config) {checking : GlobalOptions}
    (hsame : checking.noConfig = general.noConfig) :
    options.baseSettings checking files =
      (loaded.settings, CheckOptions.sourceNotices checking loaded) := by
  cases hwanted : general.noConfig with
  | true =>
      rw [hunnamed hwanted, shown_of_noConfig hwanted] at h
      cases h
      exact CheckOptions.baseSettings_of_noConfig (hsame.trans hwanted)
  | false =>
      rw [shown_of_wanted hwanted, ← hconfig] at h
      exact CheckOptions.baseSettings_of_loaded (hsame.trans hwanted) h

end ConfigCommand

/-- **What is shown is what a check uses.** Settings that are shown have no defect. If a file is
named they are those of the file, even if no settings are wanted. A check with the same options that
overrides nothing is run with what is shown and does not fall back, unless a file is named and no
settings are wanted. If none are wanted the check is run with the defaults, whatever is shown. -/
theorem shown_isUsed {config : Option String} {general : GlobalOptions} {files : FileSystem}
    {loaded : LoadedSettings} (h : ConfigCommand.shown config general files = .ok loaded) :
    (∀ format, ConfigCommand.display config format general files =
      .printed files [] (loaded.text format)) ∧
    loaded.settings.defect? = none ∧
    (∀ path, config = some path → Settings.load files.access path = .ok loaded) ∧
    ∀ (options : CheckOptions) (checking : GlobalOptions) (onTerminal : Bool),
      options.config = config → options.OverridesNothing →
      checking.noConfig = general.noConfig →
      ((general.noConfig = true → config = none) →
        Invocation.run ⟨checking, .check options⟩ onTerminal files =
          options.runWith loaded.settings (CheckOptions.sourceNotices checking loaded) checking
            onTerminal files) ∧
      (general.noConfig = true →
        Invocation.run ⟨checking, .check options⟩ onTerminal files =
          options.runWith {} [] checking onTerminal files) := by
  refine ⟨ConfigCommand.display_of_shown h, (ConfigCommand.valid_of_shown h).noDefect, ?_, ?_⟩
  · rintro path rfl
    exact ConfigCommand.load_of_shown h
  · intro options checking onTerminal hconfig hnothing hsame
    constructor
    · intro hunnamed
      exact hnothing.run (ConfigCommand.baseSettings_of_shown h hunnamed hconfig hsame) onTerminal
    · intro hunwanted
      exact hnothing.run (CheckOptions.baseSettings_of_noConfig (hsame.trans hunwanted)) onTerminal

/-- Settings under which a line of six characters fails a check. -/
def strictSettings : Settings where
  maxLineLength := 5
  failOnWarning := true

/-- A project with these settings, and a file with such a line. -/
def strictProject : FileSystem where
  entries :=
    [("w", .directory
       [("a.gd", .file "pass  ".toUTF8),
        (".gdsmell.json",
          .file "\x7b\"max_line_length\": 5, \"fail_on_warning\": true\x7d".toUTF8)])]
  workingDir := "/w"
  homeDir := none

/-- Settings that are found are shown and used. A file that is named is shown though no settings are
wanted, and it is not used then. -/
theorem shown_isUsed_found :
    (ConfigCommand.shown none {} strictProject =
        .ok { settings := strictSettings, source := some "/w/.gdsmell.json" } ∧
      CheckOptions.OverridesNothing { path := "a.gd" } ∧
      Invocation.run ⟨{ verbosity := 1 }, .check { path := "a.gd" }⟩ false strictProject =
        CheckOptions.runWith { path := "a.gd" } strictSettings
          [.info "Using config: /w/.gdsmell.json"] { verbosity := 1 } false strictProject) ∧
    let named : CheckOptions := { path := "a.gd", config := some ".gdsmell.json" }
    ConfigCommand.shown (some ".gdsmell.json") { noConfig := true } strictProject =
        .ok { settings := strictSettings, source := some ".gdsmell.json" } ∧
      Settings.load strictProject.access ".gdsmell.json" =
        .ok { settings := strictSettings, source := some ".gdsmell.json" } ∧
      Invocation.run ⟨{ noConfig := true }, .check named⟩ false strictProject =
        named.runWith {} [] { noConfig := true } false strictProject := by
  have hfound : ConfigCommand.shown none {} strictProject =
      .ok { settings := strictSettings, source := some "/w/.gdsmell.json" } := by decide +kernel
  have hnamed : ConfigCommand.shown (some ".gdsmell.json") { noConfig := true } strictProject =
      .ok { settings := strictSettings, source := some ".gdsmell.json" } := by decide +kernel
  have hnothing : CheckOptions.OverridesNothing { path := "a.gd" } := ⟨rfl, rfl, rfl, rfl⟩
  obtain ⟨-, -, -, hused⟩ := shown_isUsed hfound
  obtain ⟨-, -, hloaded, hunused⟩ := shown_isUsed hnamed
  refine ⟨⟨hfound, hnothing, (hused _ { verbosity := 1 } false rfl hnothing rfl).1 nofun⟩, ?_⟩
  intro named
  exact ⟨hnamed, hloaded _ rfl,
    (hunused named { noConfig := true } false rfl ⟨rfl, rfl, rfl, rfl⟩ rfl).2 rfl⟩

/-- A file that is named is shown though no settings are wanted. A check with the same options does
not use it: the status is not the one that the shown settings lead to. -/
theorem shown_isUsed_fails :
    let general : GlobalOptions := { noConfig := true }
    let options : CheckOptions := { path := "a.gd", config := some ".gdsmell.json" }
    ConfigCommand.shown (some ".gdsmell.json") general strictProject =
        .ok { settings := strictSettings, source := some ".gdsmell.json" } ∧
      options.OverridesNothing ∧
      (Invocation.run ⟨general, .check options⟩ false strictProject).status.code = 0 ∧
      ∀ notices, (options.runWith strictSettings notices general false
        strictProject).status.code = 1 := by
  refine ⟨by decide +kernel, ⟨rfl, rfl, rfl, rfl⟩, by decide +kernel, ?_⟩
  intro notices
  rfl

end ScriptLint
