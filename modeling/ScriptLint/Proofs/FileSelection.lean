import Mathlib.Data.List.Forall2
import Mathlib.Data.List.TakeWhile
import ScriptLint.Proofs.ExcludePatterns
import ScriptLint.Proofs.PathOrder

/-!
# Which files a selection lets pass

A selection is made of a list of extensions and a list of exclude patterns. It cannot be made if a
pattern is malformed, and the first such pattern is the one to be named. Otherwise the patterns act
one by one, so two lists of patterns together let pass what each of them lets pass.

Entries of the list of extensions are compared without the dots in front. An entry of dots only is
dropped, and a list from which all entries are dropped wants every extension. Settings with such an
entry have a defect, and this is what keeps a list of extensions from meaning its contrary.
-/

namespace ScriptLint

/-! ## Extensions -/

/-- The file name ends in a dot and the extension. There is something before that dot, and there is
no dot after it. -/
def HasExtension (path : String) (extension : List Char) : Prop :=
  ∃ stem, Path.fileName? path = some (String.ofList (stem ++ '.' :: extension)) ∧
    stem ≠ [] ∧ '.' ∉ extension

/-- What follows the last mark of a text and what comes before it. -/
theorem exists_split_of_dropWhile {text rest : List Char} {mark : Char}
    (h : text.reverse.dropWhile (· != mark) = mark :: rest) :
    text = rest.reverse ++ mark :: (text.reverse.takeWhile (· != mark)).reverse ∧
      mark ∉ (text.reverse.takeWhile (· != mark)).reverse := by
  constructor
  · have hsplit := List.takeWhile_append_dropWhile (p := (· != mark)) (l := text.reverse)
    rw [h] at hsplit
    have hreversed := congrArg List.reverse hsplit
    rw [List.reverse_reverse, List.reverse_append, List.reverse_cons,
      List.append_assoc] at hreversed
    exact hreversed.symm
  · intro hmem
    have hother := List.mem_takeWhile_imp (List.mem_reverse.mp hmem)
    simp at hother

theorem reverse_split (before : List Char) {after : List Char} {mark : Char} (h : mark ∉ after) :
    (before ++ mark :: after).reverse.takeWhile (· != mark) = after.reverse ∧
      (before ++ mark :: after).reverse.dropWhile (· != mark) = mark :: before.reverse := by
  have hall : ∀ c ∈ after.reverse, (c != mark) = true := by
    intro c hc
    rw [bne_iff_ne]
    rintro rfl
    exact h (List.mem_reverse.mp hc)
  rw [List.reverse_append, List.reverse_cons, List.append_assoc, List.singleton_append,
    List.takeWhile_append_of_pos hall, List.dropWhile_append_of_pos hall]
  simp

/-- The extension of a path is what follows the last dot of its file name, unless the name starts
with this dot. -/
theorem extension?_eq_some_iff {path : String} {extension : List Char} :
    Path.extension? path = some (String.ofList extension) ↔ HasExtension path extension := by
  unfold Path.extension?
  constructor
  · intro h
    split at h
    · cases h
    · next name hname =>
        dsimp only at h
        split at h
        · next mark first before hdropped =>
            have hmark : mark = '.' := by
              have hhead := List.head?_dropWhile_not (· != '.') name.toList.reverse
              rw [hdropped] at hhead
              simpa using hhead
            subst hmark
            obtain ⟨hsplit, hnone⟩ := exists_split_of_dropWhile hdropped
            obtain rfl := String.ofList_injective (Option.some.inj h)
            refine ⟨(first :: before).reverse, ?_, by simp, hnone⟩
            rw [hname, ← hsplit, String.ofList_toList]
        · cases h
  · rintro ⟨stem, hname, hstem, hnone⟩
    obtain ⟨htaken, hdropped⟩ := reverse_split stem hnone
    obtain ⟨first, before, hreverse⟩ :=
      List.exists_cons_of_ne_nil (List.reverse_ne_nil_iff.mpr hstem)
    rw [hname]
    dsimp only
    rw [String.toList_ofList, htaken, hdropped, hreverse, List.reverse_reverse]

/-- A path has one extension at most. -/
theorem HasExtension.unique {path : String} {extension other : List Char}
    (h : HasExtension path extension) (h' : HasExtension path other) : extension = other := by
  have hsame := (extension?_eq_some_iff.mpr h).symm.trans (extension?_eq_some_iff.mpr h')
  exact String.ofList_injective (Option.some.inj hsame)

/-- Some path has an extension that is longer than any of the given texts. -/
theorem exists_longer_extension (texts : List String) :
    ∃ path extension, HasExtension path extension ∧
      ∀ text ∈ texts, text.toList.length < extension.length := by
  have hlonger : ∃ n, ∀ text ∈ texts, text.toList.length < n := by
    induction texts with
    | nil => exact ⟨0, List.forall_mem_nil _⟩
    | cons text texts ih =>
        obtain ⟨n, hn⟩ := ih
        refine ⟨max n (text.toList.length + 1), List.forall_mem_cons.mpr ⟨by omega, ?_⟩⟩
        intro other hother
        have hless := hn other hother
        omega
  obtain ⟨n, hn⟩ := hlonger
  let extension : List Char := List.replicate n 'x'
  have hletters : ∀ c, c ≠ 'x' → c ∉ extension := fun c hc hmem =>
    hc (List.eq_of_mem_replicate hmem)
  have hname : Path.isName (String.ofList ('a' :: '.' :: extension)) = true := by
    have hslash : '/' ∉ extension := hletters '/' (by decide)
    rw [Path.isName_iff]
    simp [← String.toList_inj, hslash]
  refine ⟨String.ofList ('a' :: '.' :: extension), extension, ⟨['a'], ?_, by simp, ?_⟩, ?_⟩
  · rw [Path.fileName?, Path.components_of_isName hname]
    rfl
  · exact hletters '.' (by decide)
  · simpa [extension] using hn

/-- The path has an extension that is an entry of the list without its leading dots. -/
def HasListedExtension (extensions : List String) (path : String) : Prop :=
  ∃ entry ∈ extensions, ∃ dots extension, entry.toList = dots ++ extension ∧
    (∀ c ∈ dots, c = '.') ∧ HasExtension path extension

/-- Two entries for extensions that differ in leading dots only. -/
def SameButDots (entry entry' : String) : Prop :=
  ∃ dots dots' core, (∀ c ∈ dots, c = '.') ∧ (∀ c ∈ dots', c = '.') ∧
    entry.toList = dots ++ core ∧ entry'.toList = dots' ++ core

theorem bareExtension_congr {entry entry' : String} (h : SameButDots entry entry') :
    bareExtension entry = bareExtension entry' := by
  obtain ⟨dots, dots', core, hdots, hdots', hentry, hentry'⟩ := h
  have hall : ∀ c ∈ dots, (c == '.') = true := fun c hc => by simp [hdots c hc]
  have hall' : ∀ c ∈ dots', (c == '.') = true := fun c hc => by simp [hdots' c hc]
  rw [bareExtension, bareExtension, hentry, hentry', List.dropWhile_append_of_pos hall,
    List.dropWhile_append_of_pos hall']

/-- An entry is its leading dots and what is compared. -/
theorem exists_dots_bareExtension (entry : String) :
    ∃ dots, entry.toList = dots ++ (bareExtension entry).toList ∧ ∀ c ∈ dots, c = '.' := by
  refine ⟨entry.toList.takeWhile (· == '.'), ?_, ?_⟩
  · rw [bareExtension, String.toList_ofList, List.takeWhile_append_dropWhile]
  · intro c hc
    have hdot : (c == '.') = true := List.mem_takeWhile_imp (p := (· == '.')) hc
    exact beq_iff_eq.mp hdot

namespace Settings

/-- No entry is dropped from the extensions of settings without a defect. -/
theorem bareExtension_ne_empty {settings : Settings} (h : settings.defect? = none) :
    ∀ entry ∈ settings.extensions, bareExtension entry ≠ "" := by
  intro entry hentry hempty
  unfold defect? at h
  split at h
  · cases h
  · split at h
    · cases h
    · next hnone =>
        refine hnone (List.any_eq_true.mpr ⟨entry, hentry, ?_⟩)
        rw [hempty]
        rfl

end Settings

namespace Selection

variable {extensions exclude more patterns : List String} {selection : Selection} {path : String}

/-! ## Malformed patterns -/

/-- The pattern cannot be read, and all before it can. -/
def FirstMalformed (patterns : List String) (pattern : String) (error : GlobError) : Prop :=
  ∃ before after, patterns = before ++ pattern :: after ∧
    (∀ earlier ∈ before, ∃ glob, Glob.parse {} earlier = .ok glob) ∧
    Glob.parse {} pattern = .error error

theorem firstMalformed_cons_of_error {first : String} {found : GlobError}
    (h : Glob.parse {} first = .error found) {rest : List String} {pattern : String}
    {error : GlobError} :
    FirstMalformed (first :: rest) pattern error ↔ first = pattern ∧ found = error := by
  constructor
  · rintro ⟨before, after, hsplit, hbefore, herror⟩
    cases before with
    | nil =>
        obtain ⟨rfl, -⟩ := List.cons.inj hsplit
        rw [h] at herror
        exact ⟨rfl, Except.error.inj herror⟩
    | cons earlier before =>
        obtain ⟨rfl, -⟩ := List.cons.inj hsplit
        obtain ⟨glob, hglob⟩ := hbefore first List.mem_cons_self
        rw [h] at hglob
        cases hglob
  · rintro ⟨rfl, rfl⟩
    exact ⟨[], rest, rfl, List.forall_mem_nil _, h⟩

theorem firstMalformed_cons_of_ok {first : String} {glob : Glob}
    (h : Glob.parse {} first = .ok glob) {rest : List String} {pattern : String}
    {error : GlobError} :
    FirstMalformed (first :: rest) pattern error ↔ FirstMalformed rest pattern error := by
  constructor
  · rintro ⟨before, after, hsplit, hbefore, herror⟩
    cases before with
    | nil =>
        obtain ⟨rfl, -⟩ := List.cons.inj hsplit
        rw [h] at herror
        cases herror
    | cons earlier before =>
        obtain ⟨rfl, hrest⟩ := List.cons.inj hsplit
        exact ⟨before, after, hrest, (List.forall_mem_cons.mp hbefore).2, herror⟩
  · rintro ⟨before, after, rfl, hbefore, herror⟩
    exact ⟨first :: before, after, rfl, List.forall_mem_cons.mpr ⟨⟨glob, h⟩, hbefore⟩, herror⟩

/-- Reading patterns stops at the first malformed one. -/
theorem readPatterns_eq_error_iff {pattern : String} {error : GlobError} :
    readPatterns patterns = .error (pattern, error) ↔ FirstMalformed patterns pattern error := by
  induction patterns with
  | nil =>
      constructor
      · intro h
        cases h
      · rintro ⟨before, after, hsplit, -⟩
        simp at hsplit
  | cons first rest ih =>
      cases hfirst : Glob.parse {} first with
      | error found =>
          rw [firstMalformed_cons_of_error hfirst, readPatterns, hfirst, Except.error.injEq,
            Prod.mk.injEq]
      | ok glob =>
          rw [firstMalformed_cons_of_ok hfirst, ← ih, readPatterns_cons hfirst]
          cases readPatterns rest <;> simp [Except.map]

/-- A set of patterns can be built whenever each of them can be read. -/
def CanBeBuilt (patterns : List String) : Prop :=
  ∀ globs, readPatterns patterns = .ok globs → Glob.nestingError? globs = none

theorem ofPatterns_of_firstMalformed {pattern : String} {error : GlobError}
    (h : FirstMalformed exclude pattern error) :
    ofPatterns extensions exclude = .error (pattern, error) := by
  rw [ofPatterns, readPatterns_eq_error_iff.mpr h]

/-- The selection can be made just if every pattern can be read. -/
theorem ofPatterns_isOk_iff_of_canBeBuilt (hbuilt : CanBeBuilt exclude) :
    (∃ selection, ofPatterns extensions exclude = .ok selection) ↔
      ∀ pattern ∈ exclude, ∃ glob, Glob.parse {} pattern = .ok glob := by
  constructor
  · intro hmade pattern hpattern
    have hnone := (ofPatterns_isOk_iff extensions exclude).mp hmade
    exact parse_of_not_isMalformed (hnone pattern hpattern)
  · intro hread
    obtain ⟨globs, hglobs⟩ := exists_readPatterns hread
    rw [ofPatterns, hglobs]
    dsimp only
    rw [hbuilt globs hglobs]
    exact ⟨_, rfl⟩

/-- If it cannot be made, the first malformed pattern is named. -/
theorem ofPatterns_eq_error_iff (hbuilt : CanBeBuilt exclude) {pattern : String}
    {error : GlobError} :
    ofPatterns extensions exclude = .error (pattern, error) ↔
      FirstMalformed exclude pattern error := by
  rw [← readPatterns_eq_error_iff, ofPatterns]
  cases hread : readPatterns exclude with
  | error found => simp
  | ok globs => simp [hbuilt globs hread]

/-! ## Paths that are selected -/

/-- A selection can be made from some patterns just if it can be made from each part of them. -/
theorem ofPatterns_append_isOk_iff :
    (∃ selection, ofPatterns extensions (exclude ++ more) = .ok selection) ↔
      (∃ first, ofPatterns extensions exclude = .ok first) ∧
        ∃ second, ofPatterns extensions more = .ok second := by
  rw [ofPatterns_isOk_iff, ofPatterns_isOk_iff, ofPatterns_isOk_iff, List.forall_mem_append]

/-- Whether an extension is wanted does not depend on the patterns. -/
theorem wantsExtension_congr {other : Selection} (h : ofPatterns extensions exclude = .ok selection)
    (h' : ofPatterns extensions more = .ok other) (path : String) :
    selection.wantsExtension path = other.wantsExtension path := by
  rw [wantsExtension, wantsExtension, (ofPatterns_eq_ok h).1, (ofPatterns_eq_ok h').1]

/-- Each pattern by itself may let a path pass or not. -/
theorem selects_iff (h : ofPatterns extensions exclude = .ok selection) :
    selection.selects path = true ↔
      (selection.wantsExtension path = true ∧ inImportCache path = false) ∧
        ∀ pattern ∈ exclude, ∀ glob, Glob.parse {} pattern = .ok glob →
          glob.isMatch path = false := by
  have hmem := mem_of_readPatterns (ofPatterns_eq_ok h).2
  have hpasses : (∀ glob ∈ selection.excluded, ¬ glob.isMatch path = true) ↔
      ∀ pattern ∈ exclude, ∀ glob, Glob.parse {} pattern = .ok glob →
        glob.isMatch path = false := by
    constructor
    · intro hglobs pattern hpattern glob hglob
      exact Bool.eq_false_iff.mpr (hglobs glob ((hmem glob).mpr ⟨pattern, hpattern, hglob⟩))
    · intro hpatterns glob hglob
      obtain ⟨pattern, hpattern, hparse⟩ := (hmem glob).mp hglob
      exact Bool.eq_false_iff.mp (hpatterns pattern hpattern glob hparse)
  rw [selects, Bool.and_eq_true, Bool.and_eq_true, Bool.not_eq_true', Bool.not_eq_true',
    List.any_eq_false, hpasses]

/-- What patterns let pass together is what each part of them lets pass. -/
theorem selects_append {first second : Selection}
    (h : ofPatterns extensions (exclude ++ more) = .ok selection)
    (hfirst : ofPatterns extensions exclude = .ok first)
    (hsecond : ofPatterns extensions more = .ok second) (path : String) :
    selection.selects path = (first.selects path && second.selects path) := by
  have hwants := wantsExtension_congr h hfirst path
  have hwants' := wantsExtension_congr h hsecond path
  rw [Bool.eq_iff_iff, Bool.and_eq_true, selects_iff h, selects_iff hfirst, selects_iff hsecond,
    List.forall_mem_append, ← hwants, ← hwants']
  tauto

/-- Patterns may be put in another order and repeated. -/
theorem exists_selects_of_sameMembers (hmembers : ∀ pattern, pattern ∈ more ↔ pattern ∈ exclude)
    (h : ofPatterns extensions exclude = .ok selection) :
    ∃ other, ofPatterns extensions more = .ok other ∧
      ∀ path, other.selects path = selection.selects path := by
  have hfine := (ofPatterns_isOk_iff extensions exclude).mp ⟨selection, h⟩
  obtain ⟨other, hother⟩ := (ofPatterns_isOk_iff extensions more).mpr fun pattern hpattern =>
    hfine pattern ((hmembers pattern).mp hpattern)
  refine ⟨other, hother, fun path => ?_⟩
  rw [Bool.eq_iff_iff]
  constructor
  · exact selects_of_subset h hother fun pattern => (hmembers pattern).mpr
  · exact selects_of_subset hother h fun pattern => (hmembers pattern).mp

/-- Leading dots of extensions do not matter. -/
theorem ofPatterns_sameButDots {extensions' : List String}
    (h : List.Forall₂ SameButDots extensions extensions') (exclude : List String) :
    ofPatterns extensions exclude = ofPatterns extensions' exclude := by
  have hbare : extensions.map bareExtension = extensions'.map bareExtension := by
    induction h with
    | nil => rfl
    | cons hentry _ ih => rw [List.map_cons, List.map_cons, bareExtension_congr hentry, ih]
  rw [ofPatterns, ofPatterns, hbare]

/-! ## Selections of settings -/

section OfSettings

variable {settings : Settings}

/-- Settings without a defect want the extensions that they list. -/
theorem extensions_of_defect? (hvalid : settings.defect? = none)
    (h : ofSettings settings = .ok selection) :
    selection.extensions = settings.extensions.map bareExtension := by
  rw [(ofPatterns_eq_ok h).1, List.filter_eq_self]
  intro extension hextension
  obtain ⟨entry, hentry, rfl⟩ := List.mem_map.mp hextension
  exact bne_iff_ne.mpr (Settings.bareExtension_ne_empty hvalid entry hentry)

theorem hasListedExtension_of_wantsExtension (hvalid : settings.defect? = none)
    (hlisted : settings.extensions ≠ []) (h : ofSettings settings = .ok selection)
    (hwants : selection.wantsExtension path = true) :
    HasListedExtension settings.extensions path := by
  rw [wantsExtension, extensions_of_defect? hvalid h, Bool.or_eq_true, List.isEmpty_iff,
    List.map_eq_nil_iff] at hwants
  have hany := hwants.resolve_left hlisted
  cases hfound : Path.extension? path with
  | none =>
      rw [hfound] at hany
      cases hany
  | some extension =>
      rw [hfound, Option.any_some, List.contains_iff_mem] at hany
      obtain ⟨entry, hentry, rfl⟩ := List.mem_map.mp hany
      obtain ⟨dots, hdots, hall⟩ := exists_dots_bareExtension entry
      rw [← String.ofList_toList (s := bareExtension entry), extension?_eq_some_iff] at hfound
      exact ⟨entry, hentry, dots, _, hdots, hall, hfound⟩

/-- Settings without a defect want every extension only if they list none. -/
theorem wantsExtension_all_iff (hvalid : settings.defect? = none)
    (h : ofSettings settings = .ok selection) :
    (∀ path extension, HasExtension path extension → selection.wantsExtension path = true) ↔
      settings.extensions = [] := by
  constructor
  · intro hall
    by_contra hlisted
    obtain ⟨path, extension, hextension, hlonger⟩ := exists_longer_extension settings.extensions
    obtain ⟨entry, hentry, dots, listed, hsplit, -, hfound⟩ :=
      hasListedExtension_of_wantsExtension hvalid hlisted h (hall path extension hextension)
    -- an entry is at least as long as what it lists
    obtain rfl := hextension.unique hfound
    have hless := hlonger entry hentry
    rw [hsplit, List.length_append] at hless
    omega
  · intro hnone path _ _
    rw [wantsExtension, extensions_of_defect? hvalid h, hnone]
    rfl

end OfSettings

/-- What lies in a cache of generated files is not selected. -/
theorem selects_of_importCache {cache : String} (hcache : cache ∈ importCaches)
    (h : Component.name cache ∈ Path.components path) : selection.selects path = false := by
  have hfound : inImportCache path = true := by
    refine List.any_eq_true.mpr ⟨_, h, ?_⟩
    show importCaches.contains cache = true
    exact List.contains_iff_mem.mpr hcache
  rw [selects, hfound, Bool.not_true, Bool.and_false, Bool.false_and]

/-- **What a selection lets pass.** The first malformed pattern is named, and if patterns that can
be read can also be built, then nothing else stands against a selection. Two lists of patterns let
pass together what each of them lets pass, so neither order nor repetition of patterns counts.
Leading dots of extensions do not count either. If settings without a defect list extensions, then
each path that is selected has one of them, and they want every extension only if they list none. No
path through a cache of generated files is selected. -/
theorem selection_laws :
    (∀ extensions exclude more : List String,
      (∀ pattern error, FirstMalformed (exclude ++ more) pattern error →
        ofPatterns extensions (exclude ++ more) = .error (pattern, error)) ∧
      (CanBeBuilt (exclude ++ more) →
        ((∃ selection, ofPatterns extensions (exclude ++ more) = .ok selection) ↔
          ∀ pattern ∈ exclude ++ more, ∃ glob, Glob.parse {} pattern = .ok glob) ∧
        ∀ pattern error, ofPatterns extensions (exclude ++ more) = .error (pattern, error) →
          FirstMalformed (exclude ++ more) pattern error) ∧
      ∀ selection, ofPatterns extensions (exclude ++ more) = .ok selection →
        ∃ first second, ofPatterns extensions exclude = .ok first ∧
          ofPatterns extensions more = .ok second ∧
          ∀ path, selection.selects path = (first.selects path && second.selects path)) ∧
    (∀ (extensions exclude shuffled : List String) (selection : Selection),
      (∀ pattern, pattern ∈ shuffled ↔ pattern ∈ exclude) →
      ofPatterns extensions exclude = .ok selection →
        ∃ other, ofPatterns extensions shuffled = .ok other ∧
          ∀ path, other.selects path = selection.selects path) ∧
    (∀ extensions extensions' exclude : List String,
      List.Forall₂ SameButDots extensions extensions' →
        ofPatterns extensions exclude = ofPatterns extensions' exclude) ∧
    (∀ (settings : Settings) (selection : Selection), settings.defect? = none →
      ofSettings settings = .ok selection →
        (settings.extensions ≠ [] → ∀ path, selection.selects path = true →
          HasListedExtension settings.extensions path) ∧
        ((∀ path extension, HasExtension path extension →
          selection.wantsExtension path = true) ↔ settings.extensions = [])) ∧
    ∀ (selection : Selection) (path : String), ∀ cache ∈ [".godot", ".import"],
      Component.name cache ∈ Path.components path → selection.selects path = false := by
  refine ⟨?_, ?_, ?_, ?_, ?_⟩
  · intro extensions exclude more
    refine ⟨?_, ?_, ?_⟩
    · intro pattern error hfirst
      exact ofPatterns_of_firstMalformed hfirst
    · intro hbuilt
      exact ⟨ofPatterns_isOk_iff_of_canBeBuilt hbuilt,
        fun pattern error => (ofPatterns_eq_error_iff hbuilt).mp⟩
    · intro selection h
      obtain ⟨⟨first, hfirst⟩, second, hsecond⟩ := ofPatterns_append_isOk_iff.mp ⟨selection, h⟩
      exact ⟨first, second, hfirst, hsecond, selects_append h hfirst hsecond⟩
  · intro extensions exclude shuffled selection hmembers h
    exact exists_selects_of_sameMembers hmembers h
  · intro extensions extensions' exclude h
    exact ofPatterns_sameButDots h exclude
  · intro settings selection hvalid h
    refine ⟨?_, wantsExtension_all_iff hvalid h⟩
    intro hlisted path hpath
    have hwants := ((selects_iff h).mp hpath).1.1
    exact hasListedExtension_of_wantsExtension hvalid hlisted h hwants
  · intro selection path cache hcache h
    exact selects_of_importCache hcache h

/-- An entry with a dot in front, and patterns that come in two lists. -/
def guardedSettings : Settings where
  extensions := ["tres", "..gd"]
  exclude := ["**/addons/**"] ++ ["*_test.gd", "**/addons/**"]

/-- What these settings select. -/
def guarded : Selection where
  extensions := ["tres", "gd"]
  excluded :=
    let addons : Glob :=
      ⟨{}, .leadingDirs :: "addons".toList.map .literal ++ [.trailingDirs]⟩
    [addons, ⟨{}, .star :: "_test.gd".toList.map .literal⟩, addons]

/-- The second of three patterns is the first malformed one. Without malformed patterns a test is
left out by one part of the patterns, a file with two dots in its name is selected, and a cache in
the middle of a path is noticed. -/
theorem selection_laws_guarded :
    (FirstMalformed (["a,b", "a["] ++ ["\x7b"]) "a[" .unclosedClass ∧
      ofPatterns ["gd"] (["a,b", "a["] ++ ["\x7b"]) = .error ("a[", .unclosedClass)) ∧
    (CanBeBuilt guardedSettings.exclude ∧
      ∀ pattern ∈ guardedSettings.exclude, ∃ glob, Glob.parse {} pattern = .ok glob) ∧
    (∃ first second, ofPatterns ["tres", "..gd"] ["**/addons/**"] = .ok first ∧
      ofPatterns ["tres", "..gd"] ["*_test.gd", "**/addons/**"] = .ok second ∧
      (first.selects "a/b_test.gd" && second.selects "a/b_test.gd") = false) ∧
    (∃ other, ofPatterns ["tres", "..gd"] ["*_test.gd", "**/addons/**"] = .ok other ∧
      other.selects "a/b.c.gd" = true) ∧
    (List.Forall₂ SameButDots ["tres", "..gd"] [".tres", "gd"] ∧
      ofPatterns [".tres", "gd"] guardedSettings.exclude = .ok guarded) ∧
    (guardedSettings.defect? = none ∧ guarded.selects "a/b.c.gd" = true ∧
      HasListedExtension guardedSettings.extensions "a/b.c.gd" ∧
      ¬ ∀ path extension, HasExtension path extension → guarded.wantsExtension path = true) ∧
    (Component.name ".import" ∈ Path.components "a//.import/b.gd" ∧
      guarded.selects "a//.import/b.gd" = false) := by
  obtain ⟨hpatterns, hshuffled, hdots, hsettings, hcaches⟩ := selection_laws
  have hmade : ofPatterns ["tres", "..gd"] guardedSettings.exclude = .ok guarded := by cbv
  have hmalformed : FirstMalformed (["a,b", "a["] ++ ["\x7b"]) "a[" .unclosedClass :=
    ⟨["a,b"], ["\x7b"], rfl,
      List.forall_mem_singleton.mpr ⟨⟨{}, "a,b".toList.map .literal⟩, by cbv⟩, by cbv⟩
  have hbuilt : CanBeBuilt guardedSettings.exclude := by
    intro globs hglobs
    have hread : readPatterns guardedSettings.exclude = .ok guarded.excluded := by cbv
    obtain rfl := Except.ok.inj (hread.symm.trans hglobs)
    decide +kernel
  have hselected : guarded.selects "a/b.c.gd" = true := by decide +kernel
  have hdropped : guarded.selects "a/b_test.gd" = false := by decide +kernel
  have hentries : List.Forall₂ SameButDots ["tres", "..gd"] [".tres", "gd"] :=
    .cons ⟨[], ['.'], "tres".toList, by simp⟩
      (.cons ⟨['.', '.'], [], "gd".toList, by simp⟩ .nil)
  obtain ⟨-, hmakeable, hparts⟩ := hpatterns ["tres", "..gd"] ["**/addons/**"]
    ["*_test.gd", "**/addons/**"]
  obtain ⟨first, second, hfirst, hsecond, hboth⟩ := hparts guarded hmade
  obtain ⟨other, hother, hsame⟩ := hshuffled ["tres", "..gd"] guardedSettings.exclude
    ["*_test.gd", "**/addons/**"] guarded (by simp [guardedSettings]) hmade
  have hvalid : guardedSettings.defect? = none := by decide +kernel
  obtain ⟨hlisted, hevery⟩ := hsettings guardedSettings guarded hvalid hmade
  have hcache : Component.name ".import" ∈ Path.components "a//.import/b.gd" := by decide
  refine ⟨⟨hmalformed, (hpatterns _ _ _).1 _ _ hmalformed⟩, ⟨hbuilt, ?_⟩,
    ⟨first, second, hfirst, hsecond, (hboth _).symm.trans hdropped⟩,
    ⟨other, hother, (hsame _).trans hselected⟩,
    ⟨hentries, (hdots _ _ _ hentries).symm.trans hmade⟩, ⟨hvalid, hselected, ?_, ?_⟩,
    hcache, hcaches guarded _ ".import" (by decide) hcache⟩
  · exact (hmakeable hbuilt).1.mp ⟨guarded, hmade⟩
  · exact hlisted (by decide) _ hselected
  · exact fun hall => absurd (hevery.mp hall) (by decide)

end Selection

end ScriptLint
