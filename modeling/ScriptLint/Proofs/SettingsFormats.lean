import ScriptLint.Proofs.SettingsRoundTrip
import ScriptLint.Proofs.Toml.Assignments

/-!
# Settings in either format

Settings can be stored as a JSON object or as a TOML document, and the name of the file says which
of the two it is. The same fields mean the same in both: a TOML document with one line for each
field, whose value is written as JSON writes it without blanks, spells the settings that the JSON
object with these fields spells. The order of the fields does not matter in either of them.

Two limits come from TOML. Its numbers go up to the largest signed number of 64 bits, and a
deletion mark may not stand unescaped in a string.
-/

namespace ScriptLint

/-! ## Fields -/

/-- The largest signed number of 64 bits, `2 ^ 63 - 1`. -/
def maxSigned : Nat := 9223372036854775807

namespace FieldValue

/-- How a field is spelled in JSON. -/
def toJson : FieldValue → Json
  | .natural value => .natural value
  | .flag value => .bool value
  | .texts values => Settings.ofTexts values
  | .other => .null

/-- What TOML reads where JSON spells the field. -/
def toToml : FieldValue → Toml
  | .natural value => .integer value
  | .flag value => .boolean value
  | .texts values => .array (values.map .string)
  | .other => .table []

/-- A field that both formats can spell. -/
def IsPortable : FieldValue → Prop
  | .natural value => value ≤ maxSigned
  | .flag _ => True
  | .texts values => ∀ text ∈ values, '\x7f' ∉ text.toList
  | .other => False

theorem plain_toJson (value : FieldValue) : value.toJson.Plain := by
  cases value with
  | natural value => exact .natural value
  | flag value => exact .bool value
  | texts values => exact Settings.plain_ofTexts values
  | other => exact .null

theorem ofJson_toJson {value : FieldValue} (portable : value.IsPortable) :
    ofJson value.toJson = value := by
  cases value with
  | natural value =>
      exact Settings.ofJson_natural (Nat.le_trans portable (by decide))
  | flag value => rfl
  | texts values => exact Settings.ofJson_ofTexts values
  | other => exact portable.elim

theorem ofToml_toToml {value : FieldValue} (portable : value.IsPortable) :
    ofToml value.toToml = value := by
  cases value with
  | natural value =>
      have hmax : value ≤ Settings.maxNumber := Nat.le_trans portable (by decide)
      simp [toToml, ofToml, ofNatural, hmax]
  | flag value => rfl
  | texts values =>
      have hread : (values.map Toml.string).mapM tomlText? = some values := by
        apply Json.mapM_map_of_readBack
        intro value
        rfl
      rw [toToml, ofToml, hread]
  | other => exact portable.elim

/-- **TOML reads the JSON text of a field.** -/
theorem isLiteral_compact {value : FieldValue} (portable : value.IsPortable) :
    Toml.IsLiteral (Json.compact value.toJson) value.toToml := by
  cases value with
  | natural value =>
      have hdigits : Json.compact (.natural value) = Nat.toDigits 10 value :=
        List.append_nil _
      rw [toJson, hdigits]
      exact Toml.isLiteral_natural (Nat.lt_of_le_of_lt portable (by decide))
  | flag value => exact Toml.isLiteral_boolean value
  | texts values => exact Toml.isLiteral_texts portable
  | other => exact portable.elim

end FieldValue

namespace Settings

/-! ## The order of the fields -/

/-- The value of a field does not depend on where the field stands. -/
theorem field?_perm {α : Type} {fields others : List (String × FieldValue)}
    (h : fields.Perm others) (name : String) (read : FieldValue → Option α) (default : α) :
    field? fields name read default = field? others name read default := by
  have hfound := h.filter fun entry => entry.1 == name
  have hlength := hfound.length_eq
  unfold field?
  generalize fields.filter (fun entry => entry.1 == name) = found at hfound hlength ⊢
  generalize others.filter (fun entry => entry.1 == name) = again at hfound hlength ⊢
  -- the number of fields of the name is the same, and only a single one is looked at
  match found, again with
  | [], [] => rfl
  | [first], [second] => rw [List.singleton_perm_singleton.mp hfound]
  | _ :: _ :: _, _ :: _ :: _ => rfl

/-- Settings do not depend on the order of the fields that spell them. -/
theorem ofFields?_perm {fields others : List (String × FieldValue)} (h : fields.Perm others) :
    ofFields? fields = ofFields? others := by
  simp only [ofFields?, field?_perm h]

/-! ## Documents -/

/-- The JSON object with the given fields. -/
def jsonObject (fields : List (String × FieldValue)) : Json :=
  .object (fields.map fun field => Json.member field.1 field.2.toJson)

/-- The line of a TOML document that holds a field. -/
def tomlLine (field : String × FieldValue) : List Char :=
  field.1.toList ++ " = ".toList ++ Json.compact field.2.toJson

/-- The TOML document with one line for each of the given fields. -/
def tomlText (lineBreak ending : List Char) (fields : List (String × FieldValue)) : String :=
  String.ofList (lineBreak.intercalate (fields.map tomlLine) ++ ending)

theorem plain_jsonObject (fields : List (String × FieldValue)) : (jsonObject fields).Plain := by
  apply Json.Plain.object
  intro member hmember
  obtain ⟨field, -, rfl⟩ := List.mem_map.mp hmember
  exact field.2.plain_toJson

theorem ofJson?_jsonObject {fields : List (String × FieldValue)}
    (portable : ∀ field ∈ fields, field.2.IsPortable) :
    ofJson? (jsonObject fields) = ofFields? fields := by
  have hfields : fieldsOfMembers? (fields.map fun field =>
      Json.member field.1 field.2.toJson) = some fields := by
    induction fields with
    | nil => rfl
    | cons field fields ih =>
        obtain ⟨hfield, hfields⟩ := List.forall_mem_cons.mp portable
        rw [fieldsOfMembers?] at ih ⊢
        rw [List.map_cons, List.mapM_cons, ih hfields]
        simp [Json.member, FieldValue.ofJson_toJson hfield]
  rw [jsonObject, ofJson?, hfields, Option.bind_some]

/-- What TOML reads from the line of a field. -/
def assignment (field : String × FieldValue) : Toml.Assignment where
  key := field.1
  literal := Json.compact field.2.toJson
  value := field.2.toToml

theorem parse?_tomlText {lineBreak ending : List Char} (hbreak : lineBreak ∈ Toml.lineBreaks)
    (hending : ending ∈ [] :: Toml.lineBreaks) {fields : List (String × FieldValue)}
    (wellFormed : ∀ field ∈ fields, (assignment field).WellFormed)
    (hnames : (fields.map Prod.fst).Nodup) :
    Toml.parse? (tomlText lineBreak ending fields) =
      some (fields.map fun field => (field.1, field.2.toToml)) := by
  have hlines : (fields.map assignment).map Toml.Assignment.line = fields.map tomlLine := by
    rw [List.map_map]
    apply List.map_congr_left
    intro field _
    simp [tomlLine, assignment, Toml.Assignment.line]
  have hread := Toml.Assignment.parse?_document hbreak hending
    (List.forall_mem_map.mpr wellFormed) (by simpa [Function.comp_def, assignment] using hnames)
  rw [Toml.Assignment.document, hlines, List.map_map] at hread
  exact hread

/-- Every name of a field can stand in TOML without quotation marks. -/
theorem bare_fieldNames : ∀ name ∈ fieldNames,
    name.toList ≠ [] ∧ ∀ c ∈ name.toList, Toml.isBareKeyChar c = true := by
  have hall : (fieldNames.all fun name =>
      !name.toList.isEmpty && name.toList.all Toml.isBareKeyChar) = true := by decide
  simpa using hall

/-- Settings that both formats can spell. -/
structure IsPortable (settings : Settings) : Prop where
  lineLength : settings.maxLineLength ≤ maxSigned
  texts : ∀ text ∈ settings.disabledRules ++ settings.extensions ++ settings.exclude,
    '\x7f' ∉ text.toList

theorem IsPortable.fields {settings : Settings} (portable : settings.IsPortable) :
    ∀ field ∈ settings.fields, field.2.IsPortable := by
  have htexts := portable.texts
  simp only [List.forall_mem_append] at htexts
  obtain ⟨⟨hdisabled, hextensions⟩, hexclude⟩ := htexts
  simp only [Settings.fields, List.forall_mem_cons]
  exact ⟨portable.lineLength, hdisabled, hextensions, hexclude, trivial, trivial,
    List.forall_mem_nil _⟩

section AnyOrder

variable {settings : Settings} {fields : List (String × FieldValue)}

/-- The fields of a TOML document are read in any order. -/
theorem ofToml?_tomlText (portable : settings.IsPortable) (horder : fields.Perm settings.fields)
    {lineBreak ending : List Char} (hbreak : lineBreak ∈ Toml.lineBreaks)
    (hending : ending ∈ [] :: Toml.lineBreaks) :
    (Toml.parse? (tomlText lineBreak ending fields)).bind ofToml? = some settings := by
  have hportable : ∀ field ∈ fields, field.2.IsPortable := by
    intro field hfield
    exact portable.fields field (horder.mem_iff.mp hfield)
  have hnames : (fields.map Prod.fst).Perm fieldNames := horder.map Prod.fst
  have wellFormed : ∀ field ∈ fields, (assignment field).WellFormed := by
    intro field hfield
    obtain ⟨hnamed, hbare⟩ :=
      bare_fieldNames field.1 (hnames.mem_iff.mp (List.mem_map_of_mem hfield))
    exact ⟨hnamed, hbare, FieldValue.isLiteral_compact (hportable field hfield)⟩
  have hnodup : (fields.map Prod.fst).Nodup := hnames.nodup_iff.mpr (by decide)
  have hmeant : (fields.map fun field => (field.1, field.2.toToml)).map
      (fun entry => (entry.1, FieldValue.ofToml entry.2)) = fields := by
    rw [List.map_map]
    refine (List.map_congr_left ?_).trans (List.map_id' fields)
    intro field hfield
    simp [FieldValue.ofToml_toToml (hportable field hfield)]
  rw [parse?_tomlText hbreak hending wellFormed hnodup, Option.bind_some, ofToml?, hmeant,
    ofFields?_perm horder, ofFields?_fields]

/-- The members of a JSON object are read in any order. -/
theorem ofJson?_jsonObject_perm (portable : settings.IsPortable)
    (horder : fields.Perm settings.fields) : ofJson? (jsonObject fields) = some settings := by
  have hportable : ∀ field ∈ fields, field.2.IsPortable := by
    intro field hfield
    exact portable.fields field (horder.mem_iff.mp hfield)
  rw [ofJson?_jsonObject hportable, ofFields?_perm horder, ofFields?_fields]

end AnyOrder

/-- The settings if they can be used, and their first defect otherwise. -/
def checked (settings : Settings) : Except Fault Settings :=
  match settings.defect? with
  | some defect => .error (.config (.defect defect))
  | none => .ok settings

theorem ofText_toml {path text : String} {settings : Settings} (hpath : isTomlPath path = true)
    (h : (Toml.parse? text).bind ofToml? = some settings) :
    ofText path text = settings.checked := by
  simp only [ofText, hpath, if_true, h]
  rfl

theorem ofText_json {path text : String} {settings : Settings} (hpath : isTomlPath path = false)
    (h : (Json.parse? text).bind ofJson? = some settings) :
    ofText path text = settings.checked := by
  simp only [ofText, hpath, Bool.false_eq_true, if_false, h]
  rfl

theorem map_settings_load {files : FileAccess} {path text : String}
    (h : files.readText path = .ok text) :
    (load files path).map LoadedSettings.settings = ofText path text := by
  rw [load, h]
  change ((ofText path text).map _).map _ = _
  cases ofText path text <;> rfl

/-- **TOML and JSON files mean the same.** Let the fields of some settings stand in any order, one a
line, in a file named as TOML, each with its value as JSON writes it without blanks. Let a file
named otherwise hold the JSON object with the same fields, again in any order. Both are loaded with
the same result: the settings, or the defect that they have. The object need not be written without
blanks; any JSON text of it will do. -/
theorem load_sameInBothFormats {settings : Settings} (portable : settings.IsPortable)
    {tomlFields jsonFields : List (String × FieldValue)}
    (htoml : tomlFields.Perm settings.fields) (hjson : jsonFields.Perm settings.fields)
    {lineBreak ending : List Char} (hbreak : lineBreak ∈ Toml.lineBreaks)
    (hending : ending ∈ [] :: Toml.lineBreaks) {tomlPath jsonPath : String}
    (htomlPath : isTomlPath tomlPath = true) (hjsonPath : isTomlPath jsonPath = false) :
    (∀ tomlFiles jsonFiles : FileAccess,
      tomlFiles.readText tomlPath = .ok (tomlText lineBreak ending tomlFields) →
      jsonFiles.readText jsonPath = .ok (Json.renderCompact (jsonObject jsonFields)) →
        (load tomlFiles tomlPath).map LoadedSettings.settings =
          (load jsonFiles jsonPath).map LoadedSettings.settings) ∧
    ofText tomlPath (tomlText lineBreak ending tomlFields) = settings.checked ∧
    ∀ text, Json.parse? text = some (jsonObject jsonFields) →
      ofText jsonPath text = settings.checked := by
  have hread : ofText tomlPath (tomlText lineBreak ending tomlFields) = settings.checked :=
    ofText_toml htomlPath (ofToml?_tomlText portable htoml hbreak hending)
  have hany : ∀ text, Json.parse? text = some (jsonObject jsonFields) →
      ofText jsonPath text = settings.checked := by
    intro text htext
    apply ofText_json hjsonPath
    rw [htext, Option.bind_some, ofJson?_jsonObject_perm portable hjson]
  refine ⟨?_, hread, hany⟩
  intro tomlFiles jsonFiles htomlFile hjsonFile
  have hcompact := hany _ (Json.parse?_renderCompact (plain_jsonObject jsonFields))
  rw [map_settings_load htomlFile, map_settings_load hjsonFile, hread]
  exact hcompact.symm

/-- The largest line length that TOML can hold, and texts with quotation marks, backslashes, control
characters and characters of any size. -/
def portableSettings : Settings where
  maxLineLength := maxSigned
  disabledRules := ["", " \x22\\\n\t\x00\x1f/é😀"]
  extensions := ["gd"]
  exclude := []
  respectGitignore := true

/-- Files that all hold the same text. -/
def holding (text : String) : FileAccess where
  readText _ := .ok text
  isPresent _ := true
  workingDir := none
  configDir := none

/-- The last field comes first, each line but the last ends in two characters, and letters of the
extension are capital. -/
theorem load_sameInBothFormats_reversed :
    (load (holding (tomlText ['\r', '\n'] [] portableSettings.fields.reverse))
        "conf/lint.Toml").map LoadedSettings.settings = .ok portableSettings ∧
      (load (holding (Json.renderCompact (jsonObject portableSettings.fields)))
        "toml").map LoadedSettings.settings = .ok portableSettings := by
  have portable : portableSettings.IsPortable := ⟨by decide, by decide⟩
  have htomlPath : isTomlPath "conf/lint.Toml" = true := by decide
  have hjsonPath : isTomlPath "toml" = false := by decide
  have hbreak : ['\r', '\n'] ∈ Toml.lineBreaks := by decide
  have hending : [] ∈ [] :: Toml.lineBreaks := List.mem_cons_self
  have hchecked : portableSettings.checked = .ok portableSettings := rfl
  obtain ⟨hsame, hread, -⟩ := load_sameInBothFormats portable (List.reverse_perm _)
    (List.Perm.refl _) hbreak hending htomlPath hjsonPath
  constructor
  · rw [map_settings_load rfl, hread, hchecked]
  · rw [← hsame (holding _) _ rfl rfl, map_settings_load rfl, hread, hchecked]

end Settings

end ScriptLint
