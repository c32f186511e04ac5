import Mathlib.Data.List.Induction
import Mathlib.Data.List.Nodup
import ScriptLint.Summary

/-!
# Tallies

A tally takes up names one by one and counts each of them where it stands. What comes out does not
show this history: it holds every name once, in the order of first appearance, with the number of
its occurrences.
-/

namespace ScriptLint

namespace Tally

/-! ## First appearances -/

theorem eraseDups_concat (names : List String) (name : String) :
    (names ++ [name]).eraseDups =
      if name ∈ names then names.eraseDups else names.eraseDups ++ [name] := by
  have hsingle : [name].eraseDups = [name] := by rw [List.eraseDups_cons]; rfl
  rw [List.eraseDups_append]
  by_cases hknown : name ∈ names <;> simp [List.removeAll, hknown, hsingle]

theorem nodup_eraseDups (names : List String) : names.eraseDups.Nodup := by
  induction names using List.reverseRecOn with
  | nil => simp
  | append_singleton names name ih =>
      rw [eraseDups_concat]
      split
      · exact ih
      · next hnew =>
          have hfresh : name ∉ names.eraseDups := fun hmem => hnew (List.mem_eraseDups.mp hmem)
          rw [← List.concat_eq_append]
          exact List.Nodup.concat hfresh ih

/-! ## Counting -/

/-- A tally that lists the given names with their counts. -/
def listing (names : List String) (count : String → Nat) : Tally :=
  names.map fun name => (name, count name)

/-- Counts with one more for the given name. -/
def bump (count : String → Nat) (name : String) : String → Nat :=
  fun other => count other + if other = name then 1 else 0

theorem bump_self (count : String → Nat) (name : String) :
    bump count name name = count name + 1 := by
  rw [bump, if_pos rfl]

theorem bump_of_ne (count : String → Nat) {name other : String} (h : other ≠ name) :
    bump count name other = count other := by
  rw [bump, if_neg h, Nat.add_zero]

theorem bump_count (names : List String) (name : String) :
    bump names.count name = (names ++ [name]).count := by
  funext other
  by_cases hsame : name = other
  · simp [bump, hsame]
  · simp [bump, hsame, Ne.symm hsame]

theorem listing_bump_of_notMem {names : List String} (count : String → Nat) {name : String}
    (h : name ∉ names) : listing names (bump count name) = listing names count := by
  apply List.map_congr_left
  intro other hother
  have hne : other ≠ name := fun hsame => h (hsame ▸ hother)
  rw [bump_of_ne count hne]

/-- A name that is listed is counted where it stands. -/
theorem add_listing_of_mem {names : List String} (hnames : names.Nodup) (count : String → Nat)
    {name : String} (h : name ∈ names) :
    add (listing names count) name = listing names (bump count name) := by
  induction names with
  | nil => cases h
  | cons first rest ih =>
      obtain ⟨hfirst, hrest⟩ := List.nodup_cons.mp hnames
      simp only [listing, List.map_cons, add]
      by_cases hsame : first = name
      · subst hsame
        rw [if_pos rfl, bump_self]
        exact congrArg _ (listing_bump_of_notMem count hfirst).symm
      · rw [if_neg hsame, bump_of_ne count hsame]
        exact congrArg _ (ih hrest ((List.mem_cons.mp h).resolve_left (Ne.symm hsame)))

/-- A new name goes to the end. -/
theorem add_listing_of_notMem {names : List String} (count : String → Nat) {name : String}
    (h : name ∉ names) :
    add (listing names count) name = listing names count ++ [(name, 1)] := by
  induction names with
  | nil => rfl
  | cons first rest ih =>
      rw [List.mem_cons, not_or] at h
      simp only [listing, List.map_cons, add, List.cons_append]
      rw [if_neg (Ne.symm h.1)]
      exact congrArg _ (ih h.2)

/-- **A tally holds each name once, in the order of first appearance, with the number of its
occurrences.** -/
theorem ofNames_eq (names : List String) : ofNames names = listing names.eraseDups names.count := by
  induction names using List.reverseRecOn with
  | nil => rfl
  | append_singleton names name ih =>
      have hsnoc : ofNames (names ++ [name]) = add (ofNames names) name := by
        rw [ofNames, List.foldl_append]
        rfl
      rw [hsnoc, ih, eraseDups_concat, ← bump_count]
      split
      · next hknown =>
          exact add_listing_of_mem (nodup_eraseDups names) _ (List.mem_eraseDups.mpr hknown)
      · next hnew =>
          have hfresh : name ∉ names.eraseDups := fun hmem => hnew (List.mem_eraseDups.mp hmem)
          have hfirst : bump names.count name name = 1 := by
            rw [bump_self, List.count_eq_zero_of_not_mem hnew]
          rw [add_listing_of_notMem _ hfresh, ← listing_bump_of_notMem names.count hfresh]
          simp [listing, hfirst]

/-- The tally lists each of the names once, in the order of first appearance, with the number of its
occurrences. -/
structure Tallies (tally : Tally) (names : List String) : Prop where
  inOrder : tally.map Prod.fst = names.eraseDups
  once : (tally.map Prod.fst).Nodup
  counted : ∀ entry ∈ tally, entry.2 = names.count entry.1

theorem tallies_ofNames (names : List String) : (ofNames names).Tallies names := by
  have hnames : (ofNames names).map Prod.fst = names.eraseDups := by
    rw [ofNames_eq, listing, List.map_map]
    exact List.map_id _
  refine ⟨hnames, ?_, ?_⟩
  · rw [hnames]
    exact nodup_eraseDups names
  · intro entry hentry
    rw [ofNames_eq] at hentry
    obtain ⟨name, -, rfl⟩ := List.mem_map.mp hentry
    rfl

/-! ## Looking counts up -/

theorem lookup_listing (names : List String) (count : String → Nat) (name : String) :
    (listing names count).lookup name = if name ∈ names then some (count name) else none := by
  induction names with
  | nil => rfl
  | cons first rest ih =>
      rw [listing, List.map_cons, List.lookup_cons]
      by_cases hsame : name = first
      · simp [hsame]
      · rw [beq_eq_false_iff_ne.mpr hsame]
        refine ih.trans (if_congr ?_ rfl rfl)
        simp [hsame]

/-- What is looked up in a tally is the number of occurrences, for any name. -/
theorem count_ofNames (names : List String) (name : String) :
    (ofNames names).count name = names.count name := by
  rw [Tally.count, ofNames_eq, lookup_listing]
  split
  · rfl
  · next hnew => exact (List.count_eq_zero.mpr fun hmem => hnew (List.mem_eraseDups.mpr hmem)).symm

end Tally

end ScriptLint
