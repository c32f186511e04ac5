import ScriptLint.Proofs.CommandOutcomes
import ScriptLint.Proofs.SettingsRoundTrip

/-!
# Created settings

The file that is created for the default settings holds them as JSON, whatever its name is. The name
decides how a file is read, so under most names the defaults are read back, and under a name of TOML
nothing is.
-/

namespace ScriptLint

/-! ## Settings written as JSON are no TOML -/

namespace Toml

/-- No statement begins with an opening brace. -/
theorem statement?_brace (draft : Draft) (rest : List Char) :
    statement? draft ('\x7b' :: rest) = none := by
  have hkey : key? ('\x7b' :: rest) = none := rfl
  simp [statement?, hkey]

theorem parse?_of_brace {text : String} {rest : List Char} (h : text.toList = '\x7b' :: rest) :
    parse? text = none := by
  have hvisible : nextVisible? ('\x7b' :: rest) = some ('\x7b' :: rest) := rfl
  have hbare : ¬ ('\x7b' :: rest).head? = some '\ufeff' := by simp
  simp only [parse?, h, if_neg hbare, statementsFrom, hvisible, statement?_brace,
    Option.map_none]

end Toml

namespace Settings

theorem toList_jsonText (settings : Settings) :
    ∃ rest, settings.jsonText.toList = '\x7b' :: rest := by
  rw [jsonText, Json.render, String.toList_append, String.toList_ofList, toJson, Json.member,
    Json.pretty]
  exact ⟨_, rfl⟩

/-- What loading a file says that spells no settings. -/
def noDocument (path : String) : Fault :=
  .configLoad path (.malformed "not a settings document")

theorem load_toml {settings : Settings} {files : FileSystem} {path : String}
    (hpath : isTomlPath path = true) (hstored : files.readText path = .ok settings.jsonText) :
    load files.access path = .error (noDocument path) := by
  have hread : files.access.readText path = .ok settings.jsonText := hstored
  obtain ⟨rest, hrest⟩ := toList_jsonText settings
  simp only [load, hread, ofText, if_pos hpath, Toml.parse?_of_brace hrest, Option.bind_none]
  rfl

end Settings

/-! ## After a settings file is created -/

namespace ConfigCommand

variable {output : String} {force : Bool} {files : FileSystem}

/-- A file that is created is read back, even where it replaces another one. -/
theorem readText_of_create (h : (create output force files).status.code = 0) :
    (create output force files).files.readText output = .ok ({} : Settings).jsonText := by
  rcases create_cases output force files with
    ⟨fault, hcreate⟩ | ⟨text, written, hwrote, hcreate⟩ | ⟨part, left, fault, -, -, hcreate⟩
  · rw [hcreate] at h
    cases h
  · rw [hcreate]
    exact FileSystem.readText_of_entryAt hwrote.content
  · rw [hcreate] at h
    cases h

theorem validate_of_load {path : String}
    (h : Settings.load files.access path = .ok { settings := {}, source := some path }) :
    validate (some path) files =
      .printed files [] ("Configuration is valid: " ++ path ++ "\n") := by
  rw [validate, Settings.loadOrDiscover, h]
  rfl

theorem validate_of_error {path : String} {fault : Fault}
    (h : Settings.load files.access path = .error fault) :
    validate (some path) files = .failed files [] fault := by
  rw [validate, Settings.loadOrDiscover, h]

end ConfigCommand

namespace CheckOptions

variable {options : CheckOptions} {general : GlobalOptions} {files : FileSystem} {path : String}

theorem baseSettings_of_load {settings : Settings} (hconfig : options.config = some path)
    (hwanted : general.noConfig = false)
    (h : Settings.load files.access path = .ok { settings, source := some path }) :
    options.baseSettings general files =
      (settings, general.remark ("Using config: " ++ path)) := by
  rw [baseSettings, hwanted, hconfig, Settings.loadOrDiscover, h]
  rfl

theorem baseSettings_of_error {fault : Fault} (hconfig : options.config = some path)
    (hwanted : general.noConfig = false) (h : Settings.load files.access path = .error fault) :
    options.baseSettings general files =
      ({}, [.setback fault, .warning "Falling back to the default configuration" none]) := by
  rw [baseSettings, hwanted, hconfig, Settings.loadOrDiscover, h]
  rfl

end CheckOptions

/-- **A settings file that is created can be loaded, unless it is named as TOML.** Whatever was
there before, the file holds the defaults as JSON. Under most names they are loaded from it, it is
valid, and a check uses them without a word of falling back. Under a name of TOML the file cannot be
loaded, it is not valid, and a check falls back to the defaults. -/
theorem create_thenLoad (output : String) (force : Bool) (files written : FileSystem)
    (h : (ConfigCommand.create output force files).status.code = 0)
    (hwritten : (ConfigCommand.create output force files).files = written) :
    written.readText output = .ok ({} : Settings).jsonText ∧
    (Settings.isTomlPath output = false →
      Settings.load written.access output = .ok { settings := {}, source := some output } ∧
      ConfigCommand.validate (some output) written =
        .printed written [] ("Configuration is valid: " ++ output ++ "\n") ∧
      ∀ (options : CheckOptions) (general : GlobalOptions), options.config = some output →
        general.noConfig = false → options.baseSettings general written =
          ({}, general.remark ("Using config: " ++ output))) ∧
    (Settings.isTomlPath output = true →
      Settings.load written.access output = .error (Settings.noDocument output) ∧
      ConfigCommand.validate (some output) written =
        .failed written [] (Settings.noDocument output) ∧
      ∀ (options : CheckOptions) (general : GlobalOptions), options.config = some output →
        general.noConfig = false → options.baseSettings general written =
          ({}, [.setback (Settings.noDocument output),
            .warning "Falling back to the default configuration" none])) := by
  have hread : written.readText output = .ok ({} : Settings).jsonText := by
    rw [← hwritten]
    exact ConfigCommand.readText_of_create h
  refine ⟨hread, ?_, ?_⟩
  · intro hjson
    have hload := Settings.load_stored Settings.valid_default hjson hread
    exact ⟨hload, ConfigCommand.validate_of_load hload, fun options general hconfig hwanted =>
      CheckOptions.baseSettings_of_load hconfig hwanted hload⟩
  · intro htoml
    have hload := Settings.load_toml htoml hread
    exact ⟨hload, ConfigCommand.validate_of_error hload, fun options general hconfig hwanted =>
      CheckOptions.baseSettings_of_error hconfig hwanted hload⟩

theorem create_thenLoad_replaced :
    let files : FileSystem :=
      { entries := [("c.json", .file "old".toUTF8)], workingDir := "/", homeDir := none }
    let created := ConfigCommand.create "c.json" true files
    created.status.code = 0 ∧
      Settings.load created.files.access "c.json" =
        .ok { settings := {}, source := some "c.json" } ∧
      ConfigCommand.validate (some "c.json") created.files =
        .printed created.files [] "Configuration is valid: c.json\n" := by
  intro files created
  have hcode : created.status.code = 0 := by decide +kernel
  obtain ⟨-, hjson, -⟩ := create_thenLoad "c.json" true files created.files hcode rfl
  obtain ⟨hload, hvalid, -⟩ := hjson (by decide)
  exact ⟨hcode, hload, hvalid⟩

/-- A file that has just been created is not valid if it is named as TOML. -/
theorem create_thenLoad_fails :
    let files : FileSystem := { entries := [], workingDir := "/", homeDir := none }
    let created := ConfigCommand.create "c.toml" false files
    created.status.code = 0 ∧
      Settings.load created.files.access "c.toml" = .error (Settings.noDocument "c.toml") ∧
      (ConfigCommand.validate (some "c.toml") created.files).status.code = 2 := by
  intro files created
  have hcode : created.status.code = 0 := by decide +kernel
  have hload := Settings.load_toml (by decide) (ConfigCommand.readText_of_create hcode)
  refine ⟨hcode, hload, ?_⟩
  rw [ConfigCommand.validate_of_error hload]
  rfl

end ScriptLint
