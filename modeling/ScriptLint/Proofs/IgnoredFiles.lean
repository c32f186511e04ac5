import Mathlib.Data.List.Flatten
import ScriptLint.Proofs.DirectoryWalk

/-!
# Ignored files

A walk that heeds ignore files visits the entries of a directory as a plain walk does, and leaves
some of them out. So it lists a part of what the plain walk lists, in the same order. The two lists
are the same if no ignore file that has a say has a pattern: those of the directories that are
visited, and the one of the user.

One of these files need not lie in a directory that is visited. Where `.git` is a file, it leads to
the exclude file of a repository elsewhere.
-/

namespace ScriptLint

/-! ## Two walks side by side -/

namespace Entry

/-- Entries are visited in the order of their names. -/
theorem inNameOrder_map (visit : String × Entry → List String) (entries : List (String × Entry)) :
    inNameOrder (entries.map fun part => (part.1, visit part)) =
      (entries.mergeSort fun a b => textLe a.1.toList b.1.toList).flatMap visit := by
  have hsorted : (entries.mergeSort fun a b => textLe a.1.toList b.1.toList).map
      (fun part => (part.1, visit part)) =
        (entries.map fun part => (part.1, visit part)).mergeSort
          fun a b => textLe a.1.toList b.1.toList :=
    List.map_mergeSort fun _ _ _ _ => rfl
  rw [inNameOrder, ← hsorted, List.flatMap_map]

theorem filesAt_directory (path : String) (entries : List (String × Entry)) :
    filesAt path (.directory entries) =
      (entries.mergeSort fun a b => textLe a.1.toList b.1.toList).flatMap fun part =>
        filesAt (Path.join path part.1) part.2 := by
  rw [filesAt, filesOfEach_eq_map, inNameOrder_map]

variable {files : FileSystem}

theorem keptFilesOfEach_eq_map (scope : IgnoreScope) (directory : String)
    (entries : List (String × Entry)) :
    keptFilesOfEach files scope directory entries =
      entries.map fun part =>
        (part.1,
          if scope.ignores (Path.join directory part.1) part.2.isDirectory then []
          else keptFilesAt files scope (Path.join directory part.1) part.2) := by
  induction entries with
  | nil => rw [keptFilesOfEach, List.map_nil]
  | cons part rest ih => rw [keptFilesOfEach, ih, List.map_cons]

theorem keptFilesAt_directory (scope : IgnoreScope) (path : String)
    (entries : List (String × Entry)) :
    keptFilesAt files scope path (.directory entries) =
      (entries.mergeSort fun a b => textLe a.1.toList b.1.toList).flatMap fun part =>
        if (scope.enter files path).ignores (Path.join path part.1) part.2.isDirectory then []
        else keptFilesAt files (scope.enter files path) (Path.join path part.1) part.2 := by
  rw [keptFilesAt, keptFilesOfEach_eq_map, inNameOrder_map]

theorem mem_keptFilesAt_directory {scope : IgnoreScope} {root path : String}
    {entries : List (String × Entry)} :
    path ∈ keptFilesAt files scope root (.directory entries) ↔
      ∃ part ∈ entries,
        (scope.enter files root).ignores (Path.join root part.1) part.2.isDirectory = false ∧
          path ∈ keptFilesAt files (scope.enter files root) (Path.join root part.1) part.2 := by
  rw [keptFilesAt_directory, List.mem_flatMap]
  simp only [List.mem_mergeSort]
  constructor
  · rintro ⟨part, hpart, hpath⟩
    split at hpath
    · cases hpath
    · next hkept => exact ⟨part, hpart, by simpa using hkept, hpath⟩
  · rintro ⟨part, hpart, hkept, hpath⟩
    refine ⟨part, hpart, ?_⟩
    rwa [hkept, if_neg Bool.false_ne_true]

/-- What is kept is part of all that is there, in the same order. -/
theorem keptFilesAt_sublist (entry : Entry) (scope : IgnoreScope) (path : String) :
    (keptFilesAt files scope path entry).Sublist (filesAt path entry) := by
  induction entry using Entry.induction generalizing scope path with
  | file bytes => rw [keptFilesAt, filesAt]
  | link target => rw [keptFilesAt, filesAt]
  | directory entries ih =>
      rw [keptFilesAt_directory, filesAt_directory]
      apply List.Sublist.flatMap_right
      rintro ⟨name, entry⟩ hpart
      dsimp only
      split
      · exact List.nil_sublist _
      · exact ih name entry (List.mem_mergeSort.mp hpart) _ _

end Entry

/-! ## Ignore files without patterns -/

/-- The file has no pattern: it cannot be read, or no line of it spells one. -/
def FileSystem.hasNoPattern (files : FileSystem) (path : String) : Bool :=
  match files.readBytes path with
  | .ok bytes => (IgnoreFile.rulesOf (IgnoreFile.textLines bytes)).isEmpty
  | .error _ => true

/-- None of the ignore files of a directory has a pattern. -/
def FileSystem.isFreeOfPatterns (files : FileSystem) (directory : String) : Bool :=
  files.hasNoPattern (Path.join directory ".ignore") &&
    files.hasNoPattern (Path.join directory ".gitignore") &&
    (IgnoreLevel.excludePath? files directory).all files.hasNoPattern

section

variable {files : FileSystem} {directory path : String}

theorem IgnoreFile.rules_read (h : files.hasNoPattern path = true) :
    (IgnoreFile.read files directory path).rules = [] := by
  unfold FileSystem.hasNoPattern at h
  unfold IgnoreFile.read
  cases hread : files.readBytes path with
  | error error => rfl
  | ok bytes =>
      rw [hread] at h
      have hrules : rulesOf (textLines bytes) = [] := List.isEmpty_iff.mp h
      simp only [hrules, List.any_nil, Bool.false_eq_true, if_false]

theorem IgnoreFile.verdict?_of_rules {file : IgnoreFile} (h : file.rules = [])
    (isDirectory : Bool) : file.verdict? path isDirectory = none := by
  rw [verdict?, h]
  rfl

/-- The files of a directory have no rules. -/
structure IgnoreLevel.Silent (level : IgnoreLevel) : Prop where
  general : level.general.rules = []
  versioned : level.versioned.rules = []
  excluded : level.excluded.rules = []

/-- No file in scope has rules. -/
structure IgnoreScope.Silent (scope : IgnoreScope) : Prop where
  levels : ∀ level ∈ scope.levels, level.Silent
  user : scope.user.rules = []

theorem IgnoreLevel.silent_read (h : files.isFreeOfPatterns directory = true) :
    (IgnoreLevel.read files directory).Silent := by
  simp only [FileSystem.isFreeOfPatterns, Bool.and_eq_true] at h
  obtain ⟨⟨hgeneral, hversioned⟩, hexcluded⟩ := h
  refine ⟨IgnoreFile.rules_read hgeneral, IgnoreFile.rules_read hversioned, ?_⟩
  rw [read]
  cases hpath : excludePath? files directory with
  | none => rfl
  | some path =>
      rw [hpath, Option.all_some] at hexcluded
      exact IgnoreFile.rules_read hexcluded

namespace IgnoreScope

variable {scope : IgnoreScope}

theorem Silent.enter (silent : scope.Silent) (h : files.isFreeOfPatterns directory = true) :
    (scope.enter files directory).Silent :=
  ⟨List.forall_mem_cons.mpr ⟨IgnoreLevel.silent_read h, silent.levels⟩, silent.user⟩

theorem findSome?_verdict? {kind : IgnoreLevel → IgnoreFile} {levels : List IgnoreLevel}
    (h : ∀ level ∈ levels, (kind level).rules = []) (path : String) (isDirectory : Bool) :
    levels.findSome? (fun level => (kind level).verdict? path isDirectory) = none := by
  rw [List.findSome?_eq_none_iff]
  intro level hlevel
  exact IgnoreFile.verdict?_of_rules (h level hlevel) isDirectory

/-- Files without rules ignore nothing. -/
theorem Silent.ignores (silent : scope.Silent) (path : String) (isDirectory : Bool) :
    scope.ignores path isDirectory = false := by
  have hgeneral := findSome?_verdict? (fun level hlevel => (silent.levels level hlevel).general)
    (IgnoreFile.bare path) isDirectory
  have hversioned := findSome?_verdict? (fun level hlevel => (silent.levels level hlevel).versioned)
    (IgnoreFile.bare path) isDirectory
  have hexcluded := findSome?_verdict? (fun level hlevel => (silent.levels level hlevel).excluded)
    (IgnoreFile.bare path) isDirectory
  simp [IgnoreScope.ignores, verdict?, hgeneral, hversioned, hexcluded,
    IgnoreFile.verdict?_of_rules silent.user]

end IgnoreScope

end

/-! ## Walks without patterns -/

namespace Entry

mutual

/-- The directories at and below an entry. -/
def directoriesAt (path : String) : Entry → List String
  | .file _ => []
  | .directory entries => path :: directoriesOfEach path entries
  | .link _ => []

/-- The directories at and below the entries of a directory. -/
def directoriesOfEach (directory : String) : List (String × Entry) → List String
  | [] => []
  | (name, entry) :: rest =>
      directoriesAt (Path.join directory name) entry ++ directoriesOfEach directory rest

end

theorem directoriesOfEach_eq_flatMap (directory : String) (entries : List (String × Entry)) :
    directoriesOfEach directory entries =
      entries.flatMap fun part => directoriesAt (Path.join directory part.1) part.2 := by
  induction entries with
  | nil => rw [directoriesOfEach, List.flatMap_nil]
  | cons part rest ih => rw [directoriesOfEach, ih, List.flatMap_cons]

/-- Where no ignore file has a pattern, all is kept. -/
theorem keptFilesAt_eq {files : FileSystem} (entry : Entry) {scope : IgnoreScope}
    (silent : scope.Silent) (path : String)
    (h : ∀ directory ∈ directoriesAt path entry, files.isFreeOfPatterns directory = true) :
    keptFilesAt files scope path entry = filesAt path entry := by
  induction entry using Entry.induction generalizing scope path with
  | file bytes => rw [keptFilesAt, filesAt]
  | link target => rw [keptFilesAt, filesAt]
  | directory entries ih =>
      rw [directoriesAt, directoriesOfEach_eq_flatMap, List.forall_mem_cons] at h
      have inside := silent.enter h.1
      rw [keptFilesAt_directory, filesAt_directory]
      apply List.flatMap_congr
      rintro ⟨name, entry⟩ hpart
      have hmem := List.mem_mergeSort.mp hpart
      rw [inside.ignores, if_neg Bool.false_ne_true]
      exact ih name entry hmem inside _ fun directory hdirectory =>
        h.2 directory (List.mem_flatMap.mpr ⟨_, hmem, hdirectory⟩)

end Entry

namespace FileSystem

variable {files : FileSystem} {root : String}

/-- The directory where a walk starts and all directories below it. -/
def directoriesBelow (files : FileSystem) (root : String) : List String :=
  ((files.walkRoot? root).map (Entry.directoriesAt root)).getD []

/-- No ignore file that has a say in a walk has a pattern. -/
structure IsPatternless (files : FileSystem) (root : String) : Prop where
  inside : ∀ directory ∈ files.directoriesBelow root, files.isFreeOfPatterns directory = true
  user : ∀ home, files.homeDir = some home → files.hasNoPattern (UserIgnore.path files home) = true

theorem walkKept_sublist (files : FileSystem) (root : String) :
    (files.walkKept root).Sublist (files.walkAll root) := by
  unfold walkKept walkAll
  split
  · exact List.nil_sublist _
  · cases files.walkRoot? root with
    | none => exact List.Sublist.refl _
    | some entry => exact Entry.keptFilesAt_sublist entry _ root

theorem walkKept_of_directory {entries : List (String × Entry)}
    (hroot : Path.same root standardInput = false)
    (h : files.entryAt true root = .ok (.directory entries)) :
    files.walkKept root =
      Entry.keptFilesAt files (IgnoreScope.outermost files) root (.directory entries) := by
  rw [walkKept, hroot, walkRoot?_of_directory h]
  rfl

theorem IsPatternless.outermost (h : files.IsPatternless root) :
    (IgnoreScope.outermost files).Silent := by
  refine ⟨List.forall_mem_nil _, ?_⟩
  unfold IgnoreScope.outermost
  cases hhome : files.homeDir with
  | none => rfl
  | some home => exact IgnoreFile.rules_read (h.user home hhome)

theorem walkKept_eq (hroot : Path.same root standardInput = false) (h : files.IsPatternless root) :
    files.walkKept root = files.walkAll root := by
  have hinside := h.inside
  unfold directoriesBelow at hinside
  rw [walkKept, walkAll, hroot, if_neg Bool.false_ne_true]
  cases hentry : files.walkRoot? root with
  | none => rfl
  | some entry =>
      rw [hentry] at hinside
      exact Entry.keptFilesAt_eq entry h.outermost root hinside

end FileSystem

/-- **Heeding ignore files only leaves files out.** What a walk that heeds them lists is part of
what a plain walk lists, in the same order, whatever the filter, and a selection still lists nothing
below a cache of generated files. Nothing is left out if no ignore file that has a say has a
pattern, unless the walk starts at the path that stands for the standard input. -/
theorem walkKept_refines (files : FileSystem) (root : String) (keep : String → Bool) :
    ((files.walkKept root).filter keep).Sublist ((files.walkAll root).filter keep) ∧
    (Entry.areWellNamed files.entries = true → files.isDirectory root = true →
      ((files.walkKept root).filter keep).Pairwise Path.Before) ∧
    (∀ selection : Selection, ∀ path ∈ selection.keptFilesBelow files root, ∀ text,
      .name text ∈ Path.components path → text ≠ ".godot" ∧ text ≠ ".import") ∧
    (Path.same root FileSystem.standardInput = false → files.IsPatternless root →
      (files.walkKept root).filter keep = (files.walkAll root).filter keep) := by
  have hsublist := (files.walkKept_sublist root).filter keep
  refine ⟨hsublist, ?_, ?_, ?_⟩
  · intro hfiles hroot
    obtain ⟨entries, hentries⟩ := FileSystem.exists_of_isDirectory hroot
    have hnamed : (Entry.directory entries).isWellNamed = true :=
      FileSystem.areWellNamed_of_entryAt hfiles hentries
    have hordered : (files.walkAll root).Pairwise Path.Before := by
      rw [FileSystem.walkAll_of_directory hentries]
      exact Entry.filesAt_pairwise hnamed root
    exact (hordered.filter keep).sublist hsublist
  · intro selection path hpath text htext
    have hcaches := Selection.notMem_importCaches (List.mem_filter.mp hpath).2 htext
    simpa [importCaches] using hcaches
  · intro hroot hpatternless
    rw [FileSystem.walkKept_eq hroot hpatternless]

/-- A directory with ignore files that hold comments only, a hidden file and a link. -/
def commentedEntries : List (String × Entry) :=
  [("s", .directory [("b.gd", .file "x".toUTF8)]),
   (".gitignore", .file "# s/\n \n".toUTF8),
   (".git", .directory [("info", .directory [("exclude", .file "\n# s/\n".toUTF8)])]),
   ("l", .link "s"),
   (".a.gd", .file "x".toUTF8)]

/-- That directory as the working directory of a user whose ignore file holds a comment. -/
def commentedProject : FileSystem where
  entries :=
    [("w", .directory commentedEntries),
     ("h", .directory [(".config", .directory [("git", .directory
       [("ignore", .file "# s/\n".toUTF8)])])])]
  workingDir := "/w"
  homeDir := some "/h"

/-- Where ignore files hold comments only, nothing is left out, not even a hidden file. -/
theorem walkKept_refines_commented :
    Entry.areWellNamed commentedProject.entries = true ∧
      commentedProject.isDirectory "." = true ∧
      Path.same "." FileSystem.standardInput = false ∧
      commentedProject.IsPatternless "." ∧
      ((commentedProject.walkKept ".").filter fun _ => true).Pairwise Path.Before ∧
      "./.a.gd" ∈ (commentedProject.walkKept ".").filter fun _ => true := by
  have hnamed : Entry.areWellNamed commentedProject.entries = true := by decide +kernel
  have hdirectory : commentedProject.isDirectory "." = true := by decide +kernel
  have hroot : Path.same "." FileSystem.standardInput = false := by decide
  have hpatternless : commentedProject.IsPatternless "." := by
    refine ⟨by decide +kernel, ?_⟩
    intro home hhome
    cases hhome
    decide +kernel
  have hentries : commentedProject.entryAt true "." = .ok (.directory commentedEntries) := by
    rfl
  have hhidden : "./.a.gd" ∈ (commentedProject.walkAll ".").filter fun _ => true := by
    rw [List.filter_true, FileSystem.walkAll_of_directory hentries, Entry.mem_filesAt_directory]
    exact ⟨".a.gd", .file "x".toUTF8, by simp [commentedEntries], by decide +kernel⟩
  obtain ⟨-, hordered, -, hsame⟩ := walkKept_refines commentedProject "." fun _ => true
  exact ⟨hnamed, hdirectory, hroot, hpatternless, hordered hnamed hdirectory,
    (hsame hroot hpatternless).symm ▸ hhidden⟩

/-- A directory whose `.git` is a file that leads to a repository next to it. -/
def linkedProject : FileSystem where
  entries :=
    [("w", .directory
       [("s", .directory [("a.gd", .file "x".toUTF8), (".git", .file "gitdir: r\n".toUTF8)]),
        ("r", .directory
          [("commondir", .file ".\n".toUTF8),
           ("info", .directory [("exclude", .file "a.gd\n".toUTF8)])])])]
  workingDir := "/w"
  homeDir := none

/-- A directory that is named like the standard input, without any ignore file. -/
def dashedProject : FileSystem where
  entries := [("w", .directory [("-", .directory [("a.gd", .file "x".toUTF8)])])]
  workingDir := "/w"
  homeDir := none

/-- It does not suffice that the ignore files inside the directory have no pattern, since `.git` may
lead to an exclude file elsewhere; and a path may stand for the standard input without being
spelled like it. -/
theorem walkKept_refines_fails :
    ((∀ directory ∈ linkedProject.directoriesBelow "s",
        ∀ name ∈ [".gitignore", ".ignore", ".git/info/exclude"],
          linkedProject.hasNoPattern (Path.join directory name) = true) ∧
      linkedProject.homeDir = none ∧
      "s/a.gd" ∈ linkedProject.walkAll "s" ∧ "s/a.gd" ∉ linkedProject.walkKept "s") ∧
    ("-/" ≠ FileSystem.standardInput ∧ dashedProject.IsPatternless "-/" ∧
      "-/a.gd" ∈ dashedProject.walkAll "-/" ∧ "-/a.gd" ∉ dashedProject.walkKept "-/") := by
  have hall : "s/a.gd" ∈ linkedProject.walkAll "s" := by
    rw [FileSystem.walkAll_of_directory rfl, Entry.mem_filesAt_directory]
    exact ⟨"a.gd", _, List.mem_cons_self, by decide +kernel⟩
  have hleft : "s/a.gd" ∉ linkedProject.walkKept "s" := by
    rw [FileSystem.walkKept_of_directory (by decide) rfl, Entry.mem_keptFilesAt_directory]
    decide +kernel
  exact ⟨⟨by decide +kernel, rfl, hall, hleft⟩, by decide, ⟨by decide +kernel, nofun⟩,
    by decide +kernel, by decide +kernel⟩

end ScriptLint
