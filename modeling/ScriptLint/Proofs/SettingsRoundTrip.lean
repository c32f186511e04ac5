import ScriptLint.Command.Config
import ScriptLint.Proofs.Json.RoundTrip

/-!
# Settings read back

Settings that are shown as JSON can be stored in a file and loaded from it again. Every text in
them comes back character by character, and so does every number that a setting can hold. Since
only settings without a defect are ever loaded, whatever is shown can be stored, and showing the
stored settings prints the same text.
-/

namespace ScriptLint

namespace Settings

/-- Settings that can be used: they have no defect, and the line length is a number that a setting
can hold. -/
structure Valid (settings : Settings) : Prop where
  noDefect : settings.defect? = none
  inRange : settings.maxLineLength ≤ maxNumber

/-! ## Fields read back -/

theorem ofJson_natural {value : Nat} (h : value ≤ maxNumber) :
    FieldValue.ofJson (.natural value) = .natural value := by
  rw [FieldValue.ofJson, FieldValue.ofNatural, if_pos h]

theorem mapM_jsonText? (values : List String) :
    (values.map Json.text).mapM FieldValue.jsonText? = some values := by
  apply Json.mapM_map_of_readBack
  intro value
  rfl

theorem ofJson_ofTexts (values : List String) :
    FieldValue.ofJson (ofTexts values) = .texts values := by
  rw [ofTexts, FieldValue.ofJson, mapM_jsonText?]

theorem ofJson_bool (value : Bool) : FieldValue.ofJson (.bool value) = .flag value := rfl

/-- The fields that spell the settings. -/
def fields (settings : Settings) : List (String × FieldValue) :=
  [("max_line_length", .natural settings.maxLineLength),
   ("disabled_rules", .texts settings.disabledRules),
   ("extensions", .texts settings.extensions),
   ("exclude", .texts settings.exclude),
   ("respect_gitignore", .flag settings.respectGitignore),
   ("fail_on_warning", .flag settings.failOnWarning)]

theorem ofFields?_fields (settings : Settings) : ofFields? settings.fields = some settings := by
  simp [ofFields?, fields, field?, FieldValue.natural?, FieldValue.texts?, FieldValue.flag?]

/-- Settings are read back from their document, whether or not they have a defect. -/
theorem ofJson?_toJson {settings : Settings} (h : settings.maxLineLength ≤ maxNumber) :
    ofJson? settings.toJson = some settings := by
  rw [← ofFields?_fields settings]
  simp [toJson, ofJson?, fieldsOfMembers?, Json.member, ofJson_natural h, ofJson_ofTexts,
    ofJson_bool, fields]

theorem plain_ofTexts (values : List String) : (ofTexts values).Plain := by
  apply Json.Plain.array
  intro item hitem
  obtain ⟨text, -, rfl⟩ := List.mem_map.mp hitem
  exact .string (some text)

theorem plain_toJson (settings : Settings) : settings.toJson.Plain := by
  apply Json.Plain.object
  simp only [Json.member, List.forall_mem_cons]
  exact ⟨.natural _, plain_ofTexts _, plain_ofTexts _, plain_ofTexts _, .bool _, .bool _,
    List.forall_mem_nil _⟩

theorem parse?_jsonText (settings : Settings) :
    Json.parse? settings.jsonText = some settings.toJson := by
  have hbreak : ∀ c ∈ ['\n'], Json.isJsonBlank c = true := List.forall_mem_singleton.mpr rfl
  rw [← Json.parse?_pretty (plain_toJson settings) hbreak, jsonText, Json.render,
    String.ofList_append]

theorem ofText_jsonText {settings : Settings} (valid : settings.Valid) {path : String}
    (hpath : isTomlPath path = false) : ofText path settings.jsonText = .ok settings := by
  have hread : (Json.parse? settings.jsonText).bind ofJson? = some settings := by
    rw [parse?_jsonText, Option.bind_some, ofJson?_toJson valid.inRange]
  simp [ofText, hpath, hread, valid.noDefect]

theorem load_stored {files : FileSystem} {path : String} {settings : Settings}
    (valid : settings.Valid) (hpath : isTomlPath path = false)
    (hstored : files.readText path = .ok settings.jsonText) :
    load files.access path = .ok { settings, source := some path } := by
  have hread : files.access.readText path = .ok settings.jsonText := hstored
  rw [load, hread]
  simp only [ofText_jsonText valid hpath]
  rfl

/-! ## Loaded settings are valid -/

theorem valid_default : ({} : Settings).Valid :=
  ⟨by decide, by decide⟩

/-- The value of a field comes from a field of that name, unless it is the default. -/
theorem field?_cases {α : Type} {fields : List (String × FieldValue)} {name : String}
    {read : FieldValue → Option α} {default value : α}
    (h : field? fields name read default = some value) :
    value = default ∨ ∃ entry ∈ fields, read entry.2 = some value := by
  unfold field? at h
  split at h
  · exact .inl (Option.some.inj h).symm
  · next entry hentry =>
      have hmem : entry ∈ fields.filter fun entry => entry.1 == name := by simp [hentry]
      exact .inr ⟨entry, (List.mem_filter.mp hmem).1, h⟩
  · cases h

/-- A number in a field is one that a setting can hold. -/
def FieldsInRange (fields : List (String × FieldValue)) : Prop :=
  ∀ entry ∈ fields, ∀ value, entry.2.natural? = some value → value ≤ maxNumber

theorem natural?_ofNatural {number value : Nat}
    (h : (FieldValue.ofNatural number).natural? = some value) : value ≤ maxNumber := by
  unfold FieldValue.ofNatural at h
  split at h
  · next hrange =>
      obtain rfl : number = value := Option.some.inj h
      exact hrange
  · cases h

theorem natural?_ofJson {json : Json} {value : Nat}
    (h : (FieldValue.ofJson json).natural? = some value) : value ≤ maxNumber := by
  unfold FieldValue.ofJson at h
  split at h
  · exact natural?_ofNatural h
  · cases h
  · split at h <;> cases h
  · cases h

theorem natural?_ofToml {toml : Toml} {value : Nat}
    (h : (FieldValue.ofToml toml).natural? = some value) : value ≤ maxNumber := by
  unfold FieldValue.ofToml at h
  split at h
  · split at h
    · exact natural?_ofNatural h
    · cases h
  · cases h
  · split at h <;> cases h
  · cases h

theorem ofFields?_inRange {fields : List (String × FieldValue)} {settings : Settings}
    (hrange : FieldsInRange fields) (h : ofFields? fields = some settings) :
    settings.maxLineLength ≤ maxNumber := by
  simp only [ofFields?, Option.bind_eq_bind, Option.bind_eq_some_iff] at h
  obtain ⟨value, hvalue, _, -, _, -, _, -, _, -, _, -, h⟩ := h
  cases h
  rcases field?_cases hvalue with hdefault | ⟨entry, hentry, hread⟩
  · rw [hdefault]
    exact Settings.valid_default.inRange
  · exact hrange entry hentry value hread

theorem fieldsOfMembers?_inRange {members : List (Option String × Json)}
    {fields : List (String × FieldValue)} (h : fieldsOfMembers? members = some fields) :
    FieldsInRange fields := by
  rw [fieldsOfMembers?] at h
  induction members generalizing fields with
  | nil =>
      cases h
      exact List.forall_mem_nil _
  | cons member members ih =>
      simp only [List.mapM_cons, Option.bind_eq_bind, Option.bind_eq_some_iff,
        Option.map_eq_some_iff] at h
      obtain ⟨entry, ⟨name, -, rfl⟩, rest, hrest, h⟩ := h
      cases h
      exact List.forall_mem_cons.mpr ⟨fun value => natural?_ofJson, ih hrest⟩

theorem ofJson?_inRange {json : Json} {settings : Settings} (h : ofJson? json = some settings) :
    settings.maxLineLength ≤ maxNumber := by
  unfold ofJson? at h
  split at h
  · obtain ⟨fields, hfields, h⟩ := Option.bind_eq_some_iff.mp h
    exact ofFields?_inRange (fieldsOfMembers?_inRange hfields) h
  · next items =>
      split at h
      · refine ofFields?_inRange ?_ h
        intro entry hentry value hvalue
        obtain ⟨json, -, hjson⟩ := List.mem_map.mp (List.of_mem_zip hentry).2
        rw [← hjson] at hvalue
        exact natural?_ofJson hvalue
      · cases h
  · cases h

theorem ofToml?_inRange {entries : List (String × Toml)} {settings : Settings}
    (h : ofToml? entries = some settings) : settings.maxLineLength ≤ maxNumber := by
  refine ofFields?_inRange ?_ h
  intro field hfield value hvalue
  obtain ⟨entry, -, rfl⟩ := List.mem_map.mp hfield
  exact natural?_ofToml hvalue

theorem valid_of_ofText {path text : String} {settings : Settings}
    (h : ofText path text = .ok settings) : settings.Valid := by
  simp only [ofText] at h
  split at h
  · cases h
  · next found hfound =>
      split at h
      · cases h
      · next hdefect =>
          cases h
          refine ⟨hdefect, ?_⟩
          split at hfound
          · obtain ⟨entries, -, hread⟩ := Option.bind_eq_some_iff.mp hfound
            exact ofToml?_inRange hread
          · obtain ⟨json, -, hread⟩ := Option.bind_eq_some_iff.mp hfound
            exact ofJson?_inRange hread

theorem valid_of_load {files : FileAccess} {path : String} {loaded : LoadedSettings}
    (h : load files path = .ok loaded) : loaded.settings.Valid := by
  unfold load at h
  split at h
  · cases h
  · next text _ =>
      cases hread : ofText path text with
      | error fault => rw [hread] at h; cases h
      | ok settings =>
          rw [hread] at h
          cases h
          exact valid_of_ofText hread

theorem valid_of_loadOrDiscover {files : FileAccess} {path? : Option String}
    {loaded : LoadedSettings} (h : loadOrDiscover files path? = .ok loaded) :
    loaded.settings.Valid := by
  cases path? with
  | some path => exact valid_of_load h
  | none =>
      simp only [loadOrDiscover, discover] at h
      split at h
      · exact valid_of_load h
      · cases h
        exact valid_default

end Settings

/-- Settings that are shown can be used. -/
theorem ConfigCommand.valid_of_shown {config : Option String} {general : GlobalOptions}
    {files : FileSystem} {loaded : LoadedSettings} (h : shown config general files = .ok loaded) :
    loaded.settings.Valid := by
  unfold shown at h
  split at h
  · cases h
    exact Settings.valid_default
  · exact Settings.valid_of_loadOrDiscover h

/-! ## Showing, storing and showing again -/

/-- The text of a file whose bytes encode it. -/
theorem FileSystem.readText_of_entryAt {files : FileSystem} {path text : String}
    (h : files.entryAt true path = .ok (.file text.toUTF8)) : files.readText path = .ok text := by
  have hdecoded : String.fromUTF8? text.toUTF8 = some text := dif_pos text.isValidUTF8
  rw [readText, readBytes, h]
  simp only [hdecoded]

/-- A file that is named is shown, if it can be loaded. -/
theorem ConfigCommand.shown_of_load {files : FileSystem} {path : String} {loaded : LoadedSettings}
    (h : Settings.load files.access path = .ok loaded) (general : GlobalOptions) :
    shown (some path) general files = .ok loaded := by
  simpa [shown, Settings.loadOrDiscover] using h

/-- **Settings shown as JSON are read back.** In a file not named as TOML, the text that shows
usable settings spells these settings. So whatever is shown can be stored in such a file, and
showing that file prints the same text again, under any options and whatever else the file system
holds by then. -/
theorem shown_readBack {path : String} (hpath : Settings.isTomlPath path = false) :
    (∀ loaded : LoadedSettings, loaded.settings.Valid →
      Settings.ofText path (loaded.text .json) = .ok loaded.settings) ∧
    ∀ (config : Option String) (general again : GlobalOptions) (files stored : FileSystem)
      (loaded : LoadedSettings), ConfigCommand.shown config general files = .ok loaded →
      stored.readText path = .ok (ConfigCommand.display config .json general files).output →
        Settings.load stored.access path = .ok { loaded with source := some path } ∧
        ConfigCommand.display (some path) .json again stored =
          .printed stored [] (ConfigCommand.display config .json general files).output := by
  constructor
  · intro loaded valid
    exact Settings.ofText_jsonText valid hpath
  · intro config general again files stored loaded hshown hstored
    -- where the shown settings come from is not part of their text
    have hprinted : ConfigCommand.display config .json general files =
        .printed files [] loaded.settings.jsonText := by
      rw [ConfigCommand.display, hshown]
      rfl
    rw [hprinted] at hstored ⊢
    have hload : Settings.load stored.access path = .ok { loaded with source := some path } :=
      Settings.load_stored (ConfigCommand.valid_of_shown hshown) hpath hstored
    refine ⟨hload, ?_⟩
    rw [ConfigCommand.display, ConfigCommand.shown_of_load hload again]
    rfl

/-- Settings whose texts hold quotation marks, backslashes, control characters and characters of
any size, with the largest line length. -/
def oddSettings : Settings where
  maxLineLength := Settings.maxNumber
  disabledRules := ["P001", " \x22\\\n\t\x00\x1f\x7f/é😀"]
  extensions := ["gd"]
  exclude := []
  failOnWarning := true

/-- A working directory with one file that holds the settings, as they are shown. -/
def storing (name : String) (settings : Settings) : FileSystem where
  entries := [("w", .directory [(name, .file settings.jsonText.toUTF8)])]
  workingDir := "/w"
  homeDir := none

/-- Settings of one project are shown, kept under another name in another and shown again. -/
theorem shown_readBack_odd :
    Settings.isTomlPath "toml" = false ∧ oddSettings.Valid ∧
      Settings.ofText "toml" oddSettings.jsonText = .ok oddSettings ∧
      ConfigCommand.display (some "toml") .json {} (storing "toml" oddSettings) =
        .printed (storing "toml" oddSettings) []
          (ConfigCommand.display (some "a.json") .json {}
            (storing "a.json" oddSettings)).output := by
  have hpath : Settings.isTomlPath "toml" = false := by decide
  have valid : oddSettings.Valid := ⟨by decide +kernel, by decide⟩
  have hfirst : (storing "a.json" oddSettings).readText "a.json" = .ok oddSettings.jsonText :=
    FileSystem.readText_of_entryAt rfl
  have hkept : (storing "toml" oddSettings).readText "toml" = .ok oddSettings.jsonText :=
    FileSystem.readText_of_entryAt rfl
  have hshown : ConfigCommand.shown (some "a.json") {} (storing "a.json" oddSettings) =
      .ok ⟨oddSettings, some "a.json"⟩ :=
    ConfigCommand.shown_of_load (Settings.load_stored valid (by decide) hfirst) {}
  have hstored : (storing "toml" oddSettings).readText "toml" =
      .ok (ConfigCommand.display (some "a.json") .json {}
        (storing "a.json" oddSettings)).output := by
    rw [ConfigCommand.display, hshown]
    exact hkept
  obtain ⟨hread, hshow⟩ := shown_readBack hpath
  exact ⟨hpath, valid, hread ⟨oddSettings, none⟩ valid, (hshow _ {} {} _ _ _ hshown hstored).2⟩

end ScriptLint
