import ScriptLint.Analysis
import ScriptLint.Proofs.FileSystem.Tree

/-!
# Walks through directories

A walk visits the entries of each directory in the order of their names. What it lists is exactly
the files that lie below the directory where it starts, links below it not being followed; it lists
each of them once, and in the order of paths. The walk sorts siblings only, but the paths below two
siblings compare like the names of the siblings, so the whole list is in order.

A list in order is determined by its members. So a walk lists the same, in whatever order the
directories list their entries.
-/

namespace ScriptLint

namespace Entry

/-! ## What a walk lists -/

theorem filesOfEach_eq_map (directory : String) (entries : List (String × Entry)) :
    filesOfEach directory entries =
      entries.map fun part => (part.1, filesAt (Path.join directory part.1) part.2) := by
  induction entries with
  | nil => rw [filesOfEach, List.map_nil]
  | cons part rest ih => rw [filesOfEach, ih, List.map_cons]

theorem mem_inNameOrder {parts : List (String × List String)} {path : String} :
    path ∈ inNameOrder parts ↔ ∃ part ∈ parts, path ∈ part.2 := by
  rw [inNameOrder, List.mem_flatMap]
  simp only [List.mem_mergeSort]

theorem mem_filesAt_directory {root path : String} {entries : List (String × Entry)} :
    path ∈ filesAt root (.directory entries) ↔
      ∃ name entry, (name, entry) ∈ entries ∧ path ∈ filesAt (Path.join root name) entry := by
  rw [filesAt, mem_inNameOrder, filesOfEach_eq_map]
  simp [and_comm]

theorem below?_file_iff {place : Place} {bytes : ByteArray} {entry : Entry} :
    below? place (.file bytes) = some entry ↔ place = [] ∧ entry = .file bytes := by
  cases place <;> simp [below?, eq_comm]

/-- The files that a walk lists are those that lie below the entry where it starts. -/
theorem mem_filesAt_iff {entry : Entry} (h : entry.isWellNamed = true) (root path : String) :
    path ∈ filesAt root entry ↔
      ∃ place bytes, below? place entry = some (.file bytes) ∧ path = Path.below root place := by
  induction entry using Entry.induction generalizing root with
  | file bytes =>
      rw [filesAt, List.mem_singleton]
      constructor
      · intro hpath
        exact ⟨[], bytes, rfl, hpath⟩
      · rintro ⟨place, bytes', hbelow, rfl⟩
        rw [(below?_file_iff.mp hbelow).1]
        rfl
  | link target =>
      rw [filesAt]
      constructor
      · intro hpath
        exact absurd hpath List.not_mem_nil
      · rintro ⟨place, bytes, hbelow, -⟩
        cases place <;> cases hbelow
  | directory entries ih =>
      have hnames := nodup_of_areWellNamed h
      rw [mem_filesAt_directory]
      constructor
      · rintro ⟨name, entry, hmem, hpath⟩
        have hentry := (isWellNamed_of_mem h hmem).2
        obtain ⟨place, bytes, hbelow, rfl⟩ := (ih name entry hmem hentry _).mp hpath
        refine ⟨name :: place, bytes, ?_, rfl⟩
        rw [below?, find?_cons, (lookup_eq_some_iff hnames).mpr hmem]
        exact hbelow
      · rintro ⟨place, bytes, hbelow, rfl⟩
        cases place with
        | nil => cases hbelow
        | cons name place =>
            rw [below?, find?_cons, Option.bind_eq_some_iff] at hbelow
            obtain ⟨entry, hlookup, hbelow⟩ := hbelow
            have hmem := (lookup_eq_some_iff hnames).mp hlookup
            have hentry := (isWellNamed_of_mem h hmem).2
            exact ⟨name, entry, hmem, (ih name entry hmem hentry _).mpr ⟨place, bytes, hbelow, rfl⟩⟩

/-- The names on the way to an entry are proper, and the entry is well named. -/
theorem isName_of_below? {place : Place} {entry found : Entry} (h : entry.isWellNamed = true)
    (hbelow : below? place entry = some found) :
    (∀ name ∈ place, Path.isName name = true) ∧ found.isWellNamed = true := by
  induction place generalizing entry with
  | nil =>
      rw [below?_nil] at hbelow
      cases hbelow
      exact ⟨by simp, h⟩
  | cons name place ih =>
      cases entry with
      | file bytes => cases hbelow
      | link target => cases hbelow
      | directory entries =>
          rw [below?, find?_cons, Option.bind_eq_some_iff] at hbelow
          obtain ⟨entry, hlookup, hbelow⟩ := hbelow
          have hmem := (lookup_eq_some_iff (nodup_of_areWellNamed h)).mp hlookup
          obtain ⟨hname, hentry⟩ := isWellNamed_of_mem h hmem
          obtain ⟨hplace, hfound⟩ := ih hentry hbelow
          exact ⟨List.forall_mem_cons.mpr ⟨hname, hplace⟩, hfound⟩

/-- A path below an entry of a directory starts with the name of the entry. -/
theorem exists_place_of_mem {entries : List (String × Entry)} (h : areWellNamed entries = true)
    {name : String} {entry : Entry} (hmem : (name, entry) ∈ entries) {root path : String}
    (hpath : path ∈ filesAt (Path.join root name) entry) :
    ∃ place, path = Path.below root (name :: place) ∧
      ∀ part ∈ name :: place, Path.isName part = true := by
  obtain ⟨hname, hentry⟩ := isWellNamed_of_mem h hmem
  obtain ⟨place, bytes, hbelow, rfl⟩ := (mem_filesAt_iff hentry _ _).mp hpath
  exact ⟨place, rfl, List.forall_mem_cons.mpr ⟨hname, (isName_of_below? hentry hbelow).1⟩⟩

/-! ## The order of the list -/

/-- Parts with different names, sorted by name. -/
theorem inNameOrder_pairwise {R : String → String → Prop} {parts : List (String × List String)}
    (hnames : (parts.map Prod.fst).Nodup) (hpart : ∀ part ∈ parts, part.2.Pairwise R)
    (hparts : ∀ a ∈ parts, ∀ b ∈ parts, a.1.toList < b.1.toList →
      ∀ path ∈ a.2, ∀ path' ∈ b.2, R path path') : (inNameOrder parts).Pairwise R := by
  have hdistinct : parts.Pairwise fun a b => a.1.toList ≠ b.1.toList := by
    refine (List.pairwise_map.mp hnames).imp ?_
    intro a b hne hsame
    exact hne (String.toList_inj.mp hsame)
  have hmem : ∀ part ∈ parts.mergeSort fun a b => textLe a.1.toList b.1.toList, part ∈ parts :=
    fun _ => List.mem_mergeSort.mp
  refine List.pairwise_flatMap.mpr ⟨?_, ?_⟩
  · intro part hpart'
    exact hpart part (hmem part hpart')
  · refine (pairwise_mergeSort_textLe hdistinct).imp_of_mem ?_
    intro a b ha hb hlt
    exact hparts a (hmem a ha) b (hmem b hb) hlt

/-- A walk lists paths in their order. -/
theorem filesAt_pairwise {entry : Entry} (h : entry.isWellNamed = true) (root : String) :
    (filesAt root entry).Pairwise Path.Before := by
  induction entry using Entry.induction generalizing root with
  | file bytes =>
      rw [filesAt]
      exact List.pairwise_singleton _ _
  | link target =>
      rw [filesAt]
      exact .nil
  | directory entries ih =>
      rw [filesAt, filesOfEach_eq_map]
      apply inNameOrder_pairwise
      · rw [List.map_map]
        exact nodup_of_areWellNamed h
      · intro part hpart
        obtain ⟨⟨name, entry⟩, hmem, rfl⟩ := List.mem_map.mp hpart
        exact ih name entry hmem (isWellNamed_of_mem h hmem).2 _
      · intro a ha b hb hlt path hpath path' hpath'
        obtain ⟨⟨name, entry⟩, hmem, rfl⟩ := List.mem_map.mp ha
        obtain ⟨⟨name', entry'⟩, hmem', rfl⟩ := List.mem_map.mp hb
        obtain ⟨place, rfl, hplace⟩ := exists_place_of_mem h hmem hpath
        obtain ⟨place', rfl, hplace'⟩ := exists_place_of_mem h hmem' hpath'
        exact Path.before_of_lt root hlt hplace hplace'

end Entry

/-! ## Where a walk starts -/

namespace FileSystem

variable {files : FileSystem} {root : String} {entries : List (String × Entry)}

theorem exists_of_isDirectory (h : files.isDirectory root = true) :
    ∃ entries, files.entryAt true root = .ok (.directory entries) := by
  unfold isDirectory at h
  split at h
  · exact ⟨_, ‹_›⟩
  · cases h

/-- A walk starts at the directory that the path leads to, also through a link. -/
theorem walkRoot?_of_directory (h : files.entryAt true root = .ok (.directory entries)) :
    files.walkRoot? root = some (.directory entries) := by
  unfold walkRoot?
  rcases files.resolve_endsAtLink root with hsame | ⟨place, target, hplace, hlink⟩
  · have hfalse : files.entryAt false root = .ok (.directory entries) := by
      rw [entryAt, hsame]
      exact h
    rw [hfalse]
  · have hfalse : files.entryAt false root = .ok (.link target) := by
      rw [entryAt, hplace]
      dsimp only
      rw [hlink]
    rw [hfalse]
    dsimp only
    rw [h]

theorem walkAll_of_directory (h : files.entryAt true root = .ok (.directory entries)) :
    files.walkAll root = Entry.filesAt root (.directory entries) := by
  rw [walkAll, walkRoot?_of_directory h]
  rfl

/-- What a path leads to is well named if the file system is. -/
theorem areWellNamed_of_entryAt (hfiles : Entry.areWellNamed files.entries = true)
    (h : files.entryAt true root = .ok (.directory entries)) :
    Entry.areWellNamed entries = true := by
  unfold entryAt at h
  split at h
  · cases h
  · split at h
    · rename_i hfound
      cases h
      have hroot : (Entry.directory files.entries).isWellNamed = true := hfiles
      exact (Entry.isName_of_below? hroot hfound).2
    · cases h

end FileSystem

/-- A selection leaves out the caches of generated files. -/
theorem Selection.notMem_importCaches {selection : Selection} {path text : String}
    (h : selection.selects path = true) (htext : .name text ∈ Path.components path) :
    text ∉ importCaches := by
  rw [selects, Bool.and_eq_true, Bool.and_eq_true, Bool.not_eq_true'] at h
  obtain ⟨⟨-, hcache⟩, -⟩ := h
  intro hmem
  have hname := List.any_eq_false.mp hcache _ htext
  simp [hmem] at hname

end ScriptLint
