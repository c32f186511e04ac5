import ScriptLint.Selection

/-!
# Exclude patterns

Exclude patterns make a selection unless one of them is malformed, and each is judged by itself. A
path is selected if each pattern lets it pass. So patterns only ever take paths away, in whatever
order and however often they are given.

A pattern is malformed if it cannot be read, and also if it can be read but is nested too deep to be
put to use. Braces show that these are two things: at any depth they can be read.
-/

namespace ScriptLint

namespace Glob

/-- Whether a pattern that can be read is refused when it is put to use: it looks at the whole path
with an expression that is nested too deep. -/
def isRefused (glob : Glob) : Bool :=
  (glob.decision == .pathWithExtension || glob.decision == .pattern) && glob.isTooDeep

/-- Whether a text cannot be used as an exclude pattern. -/
def isMalformed (pattern : String) : Bool :=
  match parse {} pattern with
  | .error _ => true
  | .ok glob => glob.isRefused

/-- Patterns can be used together if each can be used alone. -/
theorem nestingError?_eq_none_iff (globs : List Glob) :
    nestingError? globs = none ↔ ∀ glob ∈ globs, glob.isRefused = false := by
  simp only [nestingError?, Option.or_eq_none_iff, Option.map_eq_none_iff, List.find?_eq_none,
    List.findIdx?_eq_none_iff, List.mem_filter, isRefused]
  constructor
  · rintro ⟨halone, htogether⟩ glob hglob
    cases hdeep : glob.isTooDeep with
    | false => rw [Bool.and_false]
    | true =>
        have hnotAlone : ¬ (glob.decision == .pathWithExtension) = true := fun h =>
          halone glob ⟨hglob, h⟩ hdeep
        have hnotTogether : ¬ (glob.decision == .pattern) = true := fun h => by
          rw [htogether glob ⟨hglob, h⟩] at hdeep
          cases hdeep
        simp [hnotAlone, hnotTogether]
  · intro h
    constructor
    · rintro glob ⟨hglob, hdecision⟩ hdeep
      have hrefused := h glob hglob
      simp [hdecision, hdeep] at hrefused
    · rintro glob ⟨hglob, hdecision⟩
      have hrefused := h glob hglob
      simpa [hdecision] using hrefused

/-! ## Nested braces -/

end Glob

namespace Selection

variable {patterns extensions exclude : List String} {selection : Selection}

theorem readPatterns_cons {pattern : String} {glob : Glob} (h : Glob.parse {} pattern = .ok glob)
    (rest : List String) :
    readPatterns (pattern :: rest) = (readPatterns rest).map (glob :: ·) := by
  rw [readPatterns, h]

/-- The patterns that are read, one by one. -/
theorem map_parse_of_readPatterns {globs : List Glob} (h : readPatterns patterns = .ok globs) :
    patterns.map (Glob.parse {}) = globs.map Except.ok := by
  induction patterns generalizing globs with
  | nil =>
      cases h
      rfl
  | cons pattern rest ih =>
      cases hparse : Glob.parse {} pattern with
      | error error =>
          rw [readPatterns, hparse] at h
          cases h
      | ok glob =>
          rw [readPatterns_cons hparse] at h
          cases hrest : readPatterns rest with
          | error error =>
              rw [hrest] at h
              cases h
          | ok others =>
              rw [hrest] at h
              cases h
              rw [List.map_cons, List.map_cons, hparse, ih hrest]

theorem mem_of_readPatterns {globs : List Glob} (h : readPatterns patterns = .ok globs)
    (glob : Glob) : glob ∈ globs ↔ ∃ pattern ∈ patterns, Glob.parse {} pattern = .ok glob := by
  have hmap := map_parse_of_readPatterns h
  rw [← List.mem_map, hmap]
  simp

theorem exists_readPatterns (h : ∀ pattern ∈ patterns, ∃ glob, Glob.parse {} pattern = .ok glob) :
    ∃ globs, readPatterns patterns = .ok globs := by
  induction patterns with
  | nil => exact ⟨[], rfl⟩
  | cons pattern rest ih =>
      obtain ⟨⟨glob, hglob⟩, hrest⟩ := List.forall_mem_cons.mp h
      obtain ⟨globs, hglobs⟩ := ih hrest
      rw [readPatterns_cons hglob, hglobs]
      exact ⟨glob :: globs, rfl⟩

theorem isMalformed_of_parse {pattern : String} {glob : Glob}
    (h : Glob.parse {} pattern = .ok glob) : Glob.isMalformed pattern = glob.isRefused := by
  rw [Glob.isMalformed, h]

theorem parse_of_not_isMalformed {pattern : String} (h : Glob.isMalformed pattern = false) :
    ∃ glob, Glob.parse {} pattern = .ok glob := by
  unfold Glob.isMalformed at h
  split at h
  · cases h
  · next glob hglob => exact ⟨glob, hglob⟩

/-- There is a selection if no pattern is malformed. -/
theorem ofPatterns_isOk_iff (extensions exclude : List String) :
    (∃ selection, ofPatterns extensions exclude = .ok selection) ↔
      ∀ pattern ∈ exclude, Glob.isMalformed pattern = false := by
  constructor
  · rintro ⟨selection, h⟩ pattern hpattern
    unfold ofPatterns at h
    split at h
    · cases h
    · next globs hglobs =>
        split at h
        · cases h
        · next hnesting =>
            have hmap := map_parse_of_readPatterns hglobs
            have hmem : Glob.parse {} pattern ∈ globs.map Except.ok :=
              hmap ▸ List.mem_map_of_mem hpattern
            obtain ⟨glob, hglob, hparse⟩ := List.mem_map.mp hmem
            rw [isMalformed_of_parse hparse.symm]
            exact (Glob.nestingError?_eq_none_iff globs).mp hnesting glob hglob
  · intro h
    obtain ⟨globs, hglobs⟩ := exists_readPatterns fun pattern hpattern =>
      parse_of_not_isMalformed (h pattern hpattern)
    have hnesting : Glob.nestingError? globs = none := by
      rw [Glob.nestingError?_eq_none_iff]
      intro glob hglob
      obtain ⟨pattern, hpattern, hparse⟩ := (mem_of_readPatterns hglobs glob).mp hglob
      rw [← isMalformed_of_parse hparse]
      exact h pattern hpattern
    simp only [ofPatterns, hglobs, hnesting]
    exact ⟨_, rfl⟩

/-- What a selection is made of. -/
theorem ofPatterns_eq_ok (h : ofPatterns extensions exclude = .ok selection) :
    selection.extensions =
        (extensions.map bareExtension).filter (fun extension => extension != "") ∧
      readPatterns exclude = .ok selection.excluded := by
  unfold ofPatterns at h
  split at h
  · cases h
  · next globs hglobs =>
      split at h
      · cases h
      · cases h
        exact ⟨rfl, hglobs⟩

/-- With more patterns fewer paths are selected. -/
theorem selects_of_subset {more : List String} {stricter : Selection}
    (h : ofPatterns extensions exclude = .ok selection)
    (h' : ofPatterns extensions more = .ok stricter) (hsubset : exclude ⊆ more) {path : String}
    (hpath : stricter.selects path = true) : selection.selects path = true := by
  obtain ⟨hextensions, hread⟩ := ofPatterns_eq_ok h
  obtain ⟨hextensions', hread'⟩ := ofPatterns_eq_ok h'
  have hglobs : selection.excluded ⊆ stricter.excluded := by
    intro glob hglob
    obtain ⟨pattern, hpattern, hparse⟩ := (mem_of_readPatterns hread glob).mp hglob
    exact (mem_of_readPatterns hread' glob).mpr ⟨pattern, hsubset hpattern, hparse⟩
  have hwants : selection.wantsExtension path = stricter.wantsExtension path := by
    rw [wantsExtension, wantsExtension, hextensions, hextensions']
  simp only [selects, Bool.and_eq_true, Bool.not_eq_true', List.any_eq_false] at hpath ⊢
  obtain ⟨⟨hextension, hcache⟩, hpasses⟩ := hpath
  exact ⟨⟨hwants.trans hextension, hcache⟩, fun glob hglob => hpasses glob (hglobs hglob)⟩

end Selection

end ScriptLint
