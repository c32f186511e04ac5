import Mathlib.Data.List.Nodup
import ScriptLint.Proofs.Json.Grammar
import ScriptLint.Proofs.SettingsFormats

/-!
# What a settings object means

A settings file holds a JSON object, written in any way in which JSON can be written. Its members
say what the settings are, field by field. A field without a member has its default, and a member
that names no field is ignored, whatever its value. Only a field that occurs twice or has a value of
another kind makes the object meaningless.
-/

namespace ScriptLint

namespace Settings

/-! ## Members -/

/-- What the value of a field can be. -/
inductive FieldKind where
  | number
  | texts
  | flag

/-- Whether a value is of the kind. -/
def FieldKind.Holds : FieldKind → Json → Prop
  | number, value => ∃ n ≤ maxNumber, value = .natural n
  | texts, value => ∃ texts, value = ofTexts texts
  | flag, value => ∃ isSet, value = .bool isSet

/-- The names of the fields with the kinds of their values. -/
def kinds : List (String × FieldKind) :=
  [("max_line_length", .number), ("disabled_rules", .texts), ("extensions", .texts),
   ("exclude", .texts), ("respect_gitignore", .flag), ("fail_on_warning", .flag)]

/-- The field occurs at most once among the members, and only with a value of its kind. -/
def Admits (members : List (String × Json)) (field : String × FieldKind) : Prop :=
  (members.map Prod.fst).count field.1 ≤ 1 ∧
    ∀ value, (field.1, value) ∈ members → field.2.Holds value

/-- Whether the members mean settings at all. -/
def WellFormed (members : List (String × Json)) : Prop :=
  ∀ field ∈ kinds, Admits members field

/-- The members that spell the settings. -/
def members (settings : Settings) : List (String × Json) :=
  [("max_line_length", .natural settings.maxLineLength),
   ("disabled_rules", ofTexts settings.disabledRules),
   ("extensions", ofTexts settings.extensions),
   ("exclude", ofTexts settings.exclude),
   ("respect_gitignore", .bool settings.respectGitignore),
   ("fail_on_warning", .bool settings.failOnWarning)]

/-- A field has the value of its member, or its default if no member names it. -/
def IsTaken (given : List (String × Json)) (field : String × Json) : Prop :=
  if field.1 ∈ given.map Prod.fst then field ∈ given else field ∈ ({} : Settings).members

/-- Whether the settings are what the members say. -/
def TakenFrom (settings : Settings) (given : List (String × Json)) : Prop :=
  ∀ field ∈ settings.members, IsTaken given field

/-- The object with the given members. -/
def objectOf (members : List (String × Json)) : Json :=
  .object (members.map fun member => Json.member member.1 member.2)

/-- The members that name a field. -/
def known (members : List (String × Json)) : List (String × Json) :=
  members.filter fun member => fieldNames.contains member.1

/-! ## Values by kind -/

/-- A value of the kind is read as what it is written for, and no other value is read. -/
structure FieldKind.ReadAs {α : Type} (kind : FieldKind) (read : FieldValue → Option α)
    (write : α → Json) : Prop where
  sound : ∀ {value : Json} {found : α}, read (.ofJson value) = some found →
    value = write found ∧ kind.Holds value
  complete : ∀ {value : Json}, kind.Holds value → ∃ found, read (.ofJson value) = some found

/-- Only texts are read as texts. -/
theorem eq_map_text_of_mapM {items : List Json} {texts : List String}
    (h : items.mapM FieldValue.jsonText? = some texts) : items = texts.map Json.text := by
  induction items generalizing texts with
  | nil =>
      cases h
      rfl
  | cons item items ih =>
      simp only [List.mapM_cons, Option.bind_eq_bind, Option.bind_eq_some_iff] at h
      obtain ⟨text, hitem, rest, hrest, h⟩ := h
      cases h
      have htext : item = Json.text text := by
        cases item with
        | string found => exact congrArg Json.string hitem
        | _ => cases hitem
      rw [htext, ih hrest]
      rfl

/-- What a value is read as. -/
theorem ofJson_cases (value : Json) :
    (∃ n ≤ maxNumber, value = .natural n ∧ FieldValue.ofJson value = .natural n) ∨
      (∃ isSet, value = .bool isSet ∧ FieldValue.ofJson value = .flag isSet) ∨
      (∃ texts, value = ofTexts texts ∧ FieldValue.ofJson value = .texts texts) ∨
      FieldValue.ofJson value = .other := by
  cases value with
  | natural n =>
      by_cases hrange : n ≤ maxNumber
      · exact .inl ⟨n, hrange, rfl, ofJson_natural hrange⟩
      · exact .inr (.inr (.inr (if_neg hrange)))
  | bool isSet => exact .inr (.inl ⟨isSet, rfl, rfl⟩)
  | array items =>
      rw [FieldValue.ofJson]
      cases hread : items.mapM FieldValue.jsonText? with
      | none => exact .inr (.inr (.inr rfl))
      | some texts =>
          have hitems : items = texts.map Json.text := eq_map_text_of_mapM hread
          exact .inr (.inr (.inl ⟨texts, congrArg Json.array hitems, rfl⟩))
  | _ => exact .inr (.inr (.inr rfl))

theorem readAs_number : FieldKind.number.ReadAs FieldValue.natural? .natural where
  sound := by
    intro value found h
    rcases ofJson_cases value with ⟨n, hrange, rfl, heq⟩ | ⟨_, _, heq⟩ | ⟨_, _, heq⟩ | heq <;>
      rw [heq] at h <;> cases h
    exact ⟨rfl, found, hrange, rfl⟩
  complete := by
    rintro value ⟨n, hrange, rfl⟩
    exact ⟨n, by rw [ofJson_natural hrange]; rfl⟩

theorem readAs_flag : FieldKind.flag.ReadAs FieldValue.flag? .bool where
  sound := by
    intro value found h
    rcases ofJson_cases value with ⟨_, _, _, heq⟩ | ⟨isSet, rfl, heq⟩ | ⟨_, _, heq⟩ | heq <;>
      rw [heq] at h <;> cases h
    exact ⟨rfl, found, rfl⟩
  complete := by
    rintro value ⟨isSet, rfl⟩
    exact ⟨isSet, rfl⟩

theorem readAs_texts : FieldKind.texts.ReadAs FieldValue.texts? ofTexts where
  sound := by
    intro value found h
    rcases ofJson_cases value with ⟨_, _, _, heq⟩ | ⟨_, _, heq⟩ | ⟨texts, rfl, heq⟩ | heq <;>
      rw [heq] at h <;> cases h
    exact ⟨rfl, found, rfl⟩
  complete := by
    rintro value ⟨texts, rfl⟩
    exact ⟨texts, by rw [ofJson_ofTexts]; rfl⟩

/-! ## One field -/

/-- What the members say, field by field. -/
def fieldsOf (members : List (String × Json)) : List (String × FieldValue) :=
  members.map fun member => (member.1, .ofJson member.2)

section Field

variable {α : Type} {members : List (String × Json)} {name : String} {kind : FieldKind}
  {read : FieldValue → Option α} {write : α → Json} {default : α}

/-- The members of the given name. -/
def named (members : List (String × Json)) (name : String) : List (String × Json) :=
  members.filter fun member => member.1 == name

theorem mem_named {value : Json} :
    (name, value) ∈ named members name ↔ (name, value) ∈ members := by
  simp [named]

theorem length_named : (named members name).length = (members.map Prod.fst).count name := by
  rw [named, List.count_eq_countP, List.countP_map, List.countP_eq_length_filter]
  rfl

theorem fst_of_mem_named {member : String × Json} (h : member ∈ named members name) :
    member.1 = name := by
  simpa using (List.mem_filter.mp h).2

theorem field?_fieldsOf :
    field? (fieldsOf members) name read default =
      match named members name with
      | [] => some default
      | [member] => read (.ofJson member.2)
      | _ => none := by
  have hfiltered : (fieldsOf members).filter (fun entry => entry.1 == name) =
      fieldsOf (named members name) := by
    simp [fieldsOf, named, List.filter_map, Function.comp_def]
  rw [field?, hfiltered]
  cases named members name with
  | nil => rfl
  | cons member others => cases others <;> rfl

/-- A field that is read occurs at most once, with a value of its kind, and has its value. -/
theorem admits_of_field? (hkind : kind.ReadAs read write) {found : α}
    (hdefault : (name, write default) ∈ ({} : Settings).members)
    (h : field? (fieldsOf members) name read default = some found) :
    Admits members (name, kind) ∧ IsTaken members (name, write found) := by
  rw [field?_fieldsOf] at h
  have hcount : (members.map Prod.fst).count name = (named members name).length := length_named.symm
  match hnamed : named members name with
  | [] =>
      rw [hnamed] at h hcount
      have habsent : name ∉ members.map Prod.fst := List.count_eq_zero.mp hcount
      refine ⟨⟨by simp [hcount], fun value hvalue => ?_⟩, ?_⟩
      · exact absurd (List.mem_map_of_mem (f := Prod.fst) hvalue) habsent
      · obtain rfl : default = found := Option.some.inj h
        rw [IsTaken, if_neg habsent]
        exact hdefault
  | [member] =>
      rw [hnamed] at h hcount
      obtain ⟨hwritten, hholds⟩ := hkind.sound h
      have hmember : member ∈ named members name := by simp [hnamed]
      have hpresent : name ∈ members.map Prod.fst := List.count_pos_iff.mp (by simp [hcount])
      refine ⟨⟨by simp [hcount], fun value hvalue => ?_⟩, ?_⟩
      · obtain rfl : (name, value) = member := by
          simpa [hnamed] using mem_named.mpr hvalue
        exact hholds
      · rw [IsTaken, if_pos hpresent, ← hwritten, ← fst_of_mem_named hmember]
        exact List.mem_of_mem_filter hmember
  | _ :: _ :: _ =>
      rw [hnamed] at h
      cases h

/-- A field that occurs at most once, with a value of its kind, is read. -/
theorem field?_of_admits (hkind : kind.ReadAs read write) (h : Admits members (name, kind))
    (default : α) :
    ∃ found, field? (fieldsOf members) name read default = some found := by
  obtain ⟨hcount, hholds⟩ := h
  rw [← length_named] at hcount
  rw [field?_fieldsOf]
  match hnamed : named members name with
  | [] => exact ⟨default, rfl⟩
  | [member] =>
      have hmember : member ∈ named members name := by simp [hnamed]
      have hname := fst_of_mem_named hmember
      refine hkind.complete (hholds member.2 ?_)
      rw [← hname]
      exact List.mem_of_mem_filter hmember
  | _ :: _ :: _ =>
      rw [hnamed] at hcount
      simp at hcount

end Field

/-! ## All fields -/

variable {given : List (String × Json)}

/-- Members that are read mean settings, and these are the settings that are read. -/
theorem wellFormed_of_ofFields? {settings : Settings}
    (h : ofFields? (fieldsOf given) = some settings) :
    WellFormed given ∧ settings.TakenFrom given := by
  simp only [ofFields?, Option.bind_eq_bind, Option.bind_eq_some_iff] at h
  obtain ⟨lineLength, hlength, disabled, hdisabled, extensions, hextensions, exclude, hexclude,
    gitignore, hgitignore, warning, hwarning, h⟩ := h
  cases h
  obtain ⟨admitsLength, takenLength⟩ := admits_of_field? readAs_number (by simp [members]) hlength
  obtain ⟨admitsDisabled, takenDisabled⟩ :=
    admits_of_field? readAs_texts (by simp [members]) hdisabled
  obtain ⟨admitsExtensions, takenExtensions⟩ :=
    admits_of_field? readAs_texts (by simp [members]) hextensions
  obtain ⟨admitsExclude, takenExclude⟩ :=
    admits_of_field? readAs_texts (by simp [members]) hexclude
  obtain ⟨admitsGitignore, takenGitignore⟩ :=
    admits_of_field? readAs_flag (by simp [members]) hgitignore
  obtain ⟨admitsWarning, takenWarning⟩ :=
    admits_of_field? readAs_flag (by simp [members]) hwarning
  constructor
  · simp only [WellFormed, kinds, List.forall_mem_cons]
    exact ⟨admitsLength, admitsDisabled, admitsExtensions, admitsExclude, admitsGitignore,
      admitsWarning, List.forall_mem_nil _⟩
  · simp only [TakenFrom, members, List.forall_mem_cons]
    exact ⟨takenLength, takenDisabled, takenExtensions, takenExclude, takenGitignore,
      takenWarning, List.forall_mem_nil _⟩

/-- Well-formed members are read. -/
theorem ofFields?_of_wellFormed (h : WellFormed given) :
    ∃ settings, ofFields? (fieldsOf given) = some settings := by
  simp only [WellFormed, kinds, List.forall_mem_cons] at h
  obtain ⟨admitsLength, admitsDisabled, admitsExtensions, admitsExclude, admitsGitignore,
    admitsWarning, -⟩ := h
  let base : Settings := {}
  obtain ⟨lineLength, hlength⟩ := field?_of_admits readAs_number admitsLength base.maxLineLength
  obtain ⟨disabled, hdisabled⟩ := field?_of_admits readAs_texts admitsDisabled base.disabledRules
  obtain ⟨extensions, hextensions⟩ := field?_of_admits readAs_texts admitsExtensions base.extensions
  obtain ⟨exclude, hexclude⟩ := field?_of_admits readAs_texts admitsExclude base.exclude
  obtain ⟨gitignore, hgitignore⟩ :=
    field?_of_admits readAs_flag admitsGitignore base.respectGitignore
  obtain ⟨warning, hwarning⟩ := field?_of_admits readAs_flag admitsWarning base.failOnWarning
  exact ⟨_, by
    rw [ofFields?, hlength, hdisabled, hextensions, hexclude, hgitignore, hwarning]
    rfl⟩

theorem ofTexts_injective : Function.Injective ofTexts := by
  intro texts others h
  have hmapped : texts.map Json.text = others.map Json.text := Json.array.inj h
  have htext : Function.Injective Json.text := fun _ _ h => Option.some.inj (Json.string.inj h)
  exact List.map_injective_iff.mpr htext hmapped

/-- A name that occurs at most once has a single value. -/
theorem eq_of_count_le_one {name : String} {value other : Json}
    (hcount : (given.map Prod.fst).count name ≤ 1) (h : (name, value) ∈ given)
    (hother : (name, other) ∈ given) : value = other := by
  rw [← length_named] at hcount
  have hfound := mem_named.mpr h
  have hagain := mem_named.mpr hother
  match hnamed : named given name with
  | [] => simp [hnamed] at hfound
  | [member] =>
      rw [hnamed, List.mem_singleton] at hfound hagain
      exact congrArg Prod.snd (hfound.trans hagain.symm)
  | _ :: _ :: _ => simp [hnamed] at hcount

/-- A field that occurs at most once takes a single value. -/
theorem IsTaken.unique {name : String} {kind : FieldKind} {value other : Json}
    (hadmits : Admits given (name, kind)) (h : IsTaken given (name, value))
    (hother : IsTaken given (name, other)) : value = other := by
  unfold IsTaken at h hother
  split at h
  · next hpresent =>
      rw [if_pos hpresent] at hother
      exact eq_of_count_le_one hadmits.1 h hother
  · next habsent =>
      rw [if_neg habsent] at hother
      have hnodup : (({} : Settings).members.map Prod.fst).Nodup := by decide
      exact eq_of_count_le_one (List.nodup_iff_count_le_one.mp hnodup name) h hother

/-- **Members mean the same settings only.** -/
theorem TakenFrom.unique {settings others : Settings} (hwellFormed : WellFormed given)
    (h : settings.TakenFrom given) (hothers : others.TakenFrom given) : settings = others := by
  simp only [WellFormed, kinds, List.forall_mem_cons] at hwellFormed
  obtain ⟨admitsLength, admitsDisabled, admitsExtensions, admitsExclude, admitsGitignore,
    admitsWarning, -⟩ := hwellFormed
  simp only [TakenFrom, members, List.forall_mem_cons] at h hothers
  obtain ⟨length, disabled, extensions, exclude, gitignore, warning, -⟩ := h
  obtain ⟨length', disabled', extensions', exclude', gitignore', warning', -⟩ := hothers
  rw [Settings.mk.injEq]
  exact ⟨Json.natural.inj (length.unique admitsLength length'),
    ofTexts_injective (disabled.unique admitsDisabled disabled'),
    ofTexts_injective (extensions.unique admitsExtensions extensions'),
    ofTexts_injective (exclude.unique admitsExclude exclude'),
    Json.bool.inj (gitignore.unique admitsGitignore gitignore'),
    Json.bool.inj (warning.unique admitsWarning warning')⟩

/-- Settings do not depend on members that name no field. -/
theorem ofFields?_known (given : List (String × Json)) :
    ofFields? (fieldsOf (known given)) = ofFields? (fieldsOf given) := by
  have hfield : ∀ {α : Type} (read : FieldValue → Option α) (default : α), ∀ name ∈ fieldNames,
      field? (fieldsOf (known given)) name read default =
        field? (fieldsOf given) name read default := by
    intro α read default name hname
    have hnamed : named (known given) name = named given name := by
      rw [named, known, List.filter_filter]
      refine List.filter_congr fun member _ => ?_
      by_cases h : member.1 = name <;> simp [h, hname]
    rw [field?_fieldsOf, field?_fieldsOf, hnamed]
  simp (disch := decide) only [ofFields?, hfield]

/-! ## Documents -/

/-- The settings of an object are those of its members. -/
theorem ofJson?_objectOf (given : List (String × Json)) :
    ofJson? (objectOf given) = ofFields? (fieldsOf given) := by
  have hfields : fieldsOfMembers? (given.map fun member => Json.member member.1 member.2) =
      some (fieldsOf given) := by
    induction given with
    | nil => rfl
    | cons member given ih =>
        rw [fieldsOfMembers?] at ih ⊢
        rw [List.map_cons, List.mapM_cons, ih]
        rfl
  rw [objectOf, ofJson?, hfields, Option.bind_some]

section Load

variable {files : FileAccess} {path text : String}

/-- What loading makes of a settings object depends on its members alone. -/
theorem load_objectOf (hpath : isTomlPath path = false) (hfile : files.readText path = .ok text)
    (hspells : Json.SpellsDocument text (objectOf given)) :
    load files path =
      match ofFields? (fieldsOf given) with
      | none => .error (.configLoad path (.malformed "not a settings document"))
      | some settings =>
          settings.checked.map fun settings => { settings, source := some path } := by
  have hread : (Json.parse? text).bind ofJson? = ofFields? (fieldsOf given) := by
    rw [Json.parse?_of_spellsDocument hspells, Option.bind_some, ofJson?_objectOf]
  rw [load, hfile]
  dsimp only
  cases hfound : ofFields? (fieldsOf given) with
  | none =>
      have hnone := hread.trans hfound
      simp only [ofText, hpath, Bool.false_eq_true, if_false, hnone]
      rfl
  | some settings => rw [ofText_json hpath (hread.trans hfound)]

/-- **A settings object means what its members say, however it is written.** If a field occurs twice
or has a value of another kind, the object is not loaded. Otherwise there are settings in which each
field has the value of its member or its default, and they are loaded unless they have a defect. So
neither the order of the members, nor the blanks between them, nor the way in which names and values
are escaped, nor any member that names no field matters to what is loaded. -/
theorem load_object_meaning (hpath : isTomlPath path = false)
    (hfile : files.readText path = .ok text)
    (hspells : Json.SpellsDocument text (objectOf given)) :
    (¬WellFormed given →
      ∃ reason, load files path = .error (.configLoad path (.malformed reason))) ∧
    (WellFormed given → (∃ settings : Settings, settings.TakenFrom given) ∧
      ∀ settings : Settings, settings.TakenFrom given →
        (settings.defect? = none → load files path = .ok { settings, source := some path }) ∧
        ∀ defect, settings.defect? = some defect →
          load files path = .error (.config (.defect defect))) ∧
    ∀ (others : FileAccess) (otherText : String) (otherGiven : List (String × Json)),
      others.readText path = .ok otherText →
      Json.SpellsDocument otherText (objectOf otherGiven) → (known given).Perm (known otherGiven) →
        (load files path).toOption = (load others path).toOption := by
  have hload := load_objectOf hpath hfile hspells
  refine ⟨?_, ?_, ?_⟩
  · intro hmeaningless
    cases hfound : ofFields? (fieldsOf given) with
    | none =>
        rw [hfound] at hload
        exact ⟨_, hload⟩
    | some settings => exact absurd (wellFormed_of_ofFields? hfound).1 hmeaningless
  · intro hwellFormed
    obtain ⟨found, hfound⟩ := ofFields?_of_wellFormed hwellFormed
    have htaken := (wellFormed_of_ofFields? hfound).2
    refine ⟨⟨found, htaken⟩, fun settings hsettings => ?_⟩
    obtain rfl := hsettings.unique hwellFormed htaken
    rw [hfound] at hload
    dsimp only at hload
    constructor
    · intro hdefect
      rw [hload, checked, hdefect]
      rfl
    · intro defect hdefect
      rw [hload, checked, hdefect]
      rfl
  · intro others otherText otherGiven hother hotherSpells hsame
    have hfields : ofFields? (fieldsOf given) = ofFields? (fieldsOf otherGiven) := by
      rw [← ofFields?_known given, ← ofFields?_known otherGiven]
      exact ofFields?_perm (hsame.map _)
    rw [hload, load_objectOf hpath hother hotherSpells, hfields]

end Load

/-! ## An object in an unusual text -/

open Json

/-- Something without blanks around it. -/
def bare {α : Type} (core : String) (meaning : α) : Spot α where
  before := []
  core := core.toList
  after := []
  meaning := meaning
  isBlank_before := List.forall_mem_nil _
  isBlank_after := List.forall_mem_nil _

/-- Characters that stand for themselves. -/
theorem spellsUnit_of_plain (chars : List Char)
    (h : (chars.all fun c => c != '\x22' && c != '\\' && 0x20 ≤ c.toNat) = true) :
    ∀ piece ∈ chars.map fun c => ([c], StringUnit.char c), SpellsUnit piece.1 piece.2 := by
  intro piece hpiece
  obtain ⟨c, hc, rfl⟩ := List.mem_map.mp hpiece
  have hplain := List.all_eq_true.mp h c hc
  simp only [Bool.and_eq_true, bne_iff_ne, decide_eq_true_eq] at hplain
  exact .plain hplain.1.1 hplain.1.2 (Nat.not_lt.mpr hplain.2)

/-- An array with a single item and no blanks. -/
theorem spells_singleton (core : String) {value : Json} (h : Spells core.toList value) :
    Spells ('[' :: (core.toList ++ [']'])) (.array [value]) := by
  have hitems : Spells ('[' :: (joinAt ',' ([bare core value].map Spot.text) ++ [']']))
      (.array ([bare core value].map Spot.meaning)) :=
    .array (List.cons_ne_nil _ _) (List.forall_mem_singleton.mpr h)
  simpa [joinAt, Spot.text, bare] using hitems

/-- The member `exclude` with its first letter escaped and a blank before its value. -/
def escapedMember : MemberSpot where
  name := bare "\"\\u0065xclude\"" (some "exclude")
  value :=
    { bare "[\"*\"]" (ofTexts ["*"]) with
      before := [' ']
      isBlank_before := by simp [isJsonBlank] }

/-- A member that names no field and holds half of a surrogate pair. -/
def unknownMember : MemberSpot where
  name := bare "\"x\"" (some "x")
  value := bare "[[\"\\uD800\"]]" (.array [.array [.string none]])

theorem spells_escapedMember :
    SpellsString escapedMember.name.core (some "exclude") ∧
      Spells escapedMember.value.core (ofTexts ["*"]) := by
  have hname : ∀ piece ∈ ("\\u0065".toList, StringUnit.escape 0x65) ::
      "xclude".toList.map (fun c => ([c], StringUnit.char c)), SpellsUnit piece.1 piece.2 :=
    List.forall_mem_cons.mpr ⟨.digits (by decide), spellsUnit_of_plain _ (by decide)⟩
  have htext : SpellsString "\"*\"".toList (some "*") :=
    .quoted (spellsUnit_of_plain ['*'] (by decide))
  exact ⟨.quoted hname, spells_singleton "\"*\"" (.string htext)⟩

theorem spells_unknownMember :
    SpellsString unknownMember.name.core (some "x") ∧
      Spells unknownMember.value.core (.array [.array [.string none]]) := by
  have hhalf : ∀ piece ∈ [("\\uD800".toList, StringUnit.escape 0xd800)],
      SpellsUnit piece.1 piece.2 := List.forall_mem_singleton.mpr (.digits (by decide))
  have htext : SpellsString "\"\\uD800\"".toList none := .quoted hhalf
  exact ⟨.quoted (spellsUnit_of_plain ['x'] (by decide)),
    spells_singleton "[\"\\uD800\"]" (spells_singleton "\"\\uD800\"" (.string htext))⟩

/-- The object with the given members in a text that begins with a line break. -/
def oddDocument (members : List MemberSpot) : Spot Json where
  before := ['\n']
  core := '\x7b' :: (joinAt ',' (members.map MemberSpot.text) ++ ['\x7d'])
  after := []
  meaning := .object (members.map MemberSpot.meaning)
  isBlank_before := by simp [isJsonBlank]
  isBlank_after := List.forall_mem_nil _

theorem spellsDocument_odd (members : List MemberSpot) (hne : members ≠ [])
    (hmembers : ∀ member ∈ members, member = escapedMember ∨ member = unknownMember) :
    SpellsDocument (String.ofList (oddDocument members).text)
      (.object (members.map MemberSpot.meaning)) := by
  refine ⟨oddDocument members, rfl, .object hne ?_ ?_, rfl⟩
  · intro member hmember
    rcases hmembers member hmember with rfl | rfl
    · exact spells_escapedMember.1
    · exact spells_unknownMember.1
  · intro member hmember
    rcases hmembers member hmember with rfl | rfl
    · exact spells_escapedMember.2
    · exact spells_unknownMember.2

theorem load_object_meaning_odd :
    (load (holding "\n\x7b\"\\u0065xclude\": [\"*\"],\"x\":[[\"\\uD800\"]]\x7d") "lint.json" =
      .ok { settings := { exclude := ["*"] }, source := some "lint.json" }) ∧
    (∃ reason, load
        (holding "\n\x7b\"\\u0065xclude\": [\"*\"],\"\\u0065xclude\": [\"*\"]\x7d") "lint.json" =
      .error (.configLoad "lint.json" (.malformed reason))) ∧
    (load (holding "\n\x7b\"\\u0065xclude\": [\"*\"],\"x\":[[\"\\uD800\"]]\x7d")
        "lint.json").toOption =
      (load (holding "\n\x7b\"x\":[[\"\\uD800\"]],\"\\u0065xclude\": [\"*\"]\x7d")
        "lint.json").toOption := by
  have hpath : isTomlPath "lint.json" = false := by decide
  let excluded : String × Json := ("exclude", ofTexts ["*"])
  let unknown : String × Json := ("x", .array [.array [.string none]])
  have hspells : SpellsDocument "\n\x7b\"\\u0065xclude\": [\"*\"],\"x\":[[\"\\uD800\"]]\x7d"
      (objectOf [excluded, unknown]) :=
    spellsDocument_odd [escapedMember, unknownMember] (by simp) (by simp)
  have htwice : SpellsDocument
      "\n\x7b\"\\u0065xclude\": [\"*\"],\"\\u0065xclude\": [\"*\"]\x7d"
      (objectOf [excluded, excluded]) :=
    spellsDocument_odd [escapedMember, escapedMember] (by simp) (by simp)
  have hlast : SpellsDocument "\n\x7b\"x\":[[\"\\uD800\"]],\"\\u0065xclude\": [\"*\"]\x7d"
      (objectOf [unknown, excluded]) :=
    spellsDocument_odd [unknownMember, escapedMember] (by simp) (by simp)
  obtain ⟨-, hmeans, hsame⟩ := load_object_meaning hpath (rfl : (holding _).readText _ = _) hspells
  refine ⟨?_, ?_, hsame (holding _) _ _ rfl hlast (.refl _)⟩
  · have hwellFormed : WellFormed [excluded, unknown] := by
      simp [WellFormed, kinds, Admits, FieldKind.Holds, excluded, unknown]
    have htaken : ({ exclude := ["*"] } : Settings).TakenFrom [excluded, unknown] := by
      simp [TakenFrom, members, IsTaken, excluded, unknown]
    exact ((hmeans hwellFormed).2 _ htaken).1 rfl
  · have htold := load_object_meaning hpath (rfl : (holding _).readText _ = _) htwice
    refine htold.1 fun hwellFormed => ?_
    have hexclude := hwellFormed ("exclude", .texts) (by simp [kinds])
    exact absurd hexclude.1 (by decide)

end Settings

end ScriptLint
