import Mathlib.Data.List.Perm.Basic
import ScriptLint.Proofs.PathOrder
import ScriptLint.Proofs.Tallies
import ScriptLint.Report.Text

/-!
# The report for readers, file by file

The report lists findings in blocks, one for each file, however the path of the file is spelled. It
is described here by what a reader may expect of the blocks: they follow each other in the order of
paths, each is titled as its file is first spelled, and lists just the findings of this file, sorted
by their lines. These expectations leave no choice, and they depend on the findings of each file
alone. So nothing is lost or told twice, and how the findings of different files are interleaved
does not show.
-/

namespace ScriptLint

/-! ## Stable sorting -/

section Sorting

variable {α : Type}

/-- The elements are sorted by their keys, and those of one key stay in the order in which they were
given. -/
structure IsStablySorted (key : α → Nat) (given sorted : List α) : Prop where
  perm : sorted.Perm given
  ordered : sorted.Pairwise fun a b => key a ≤ key b
  stable : ∀ k, sorted.filter (fun a => key a == k) = given.filter fun a => key a == k

theorem isStablySorted_mergeSort (key : α → Nat) (given : List α) :
    IsStablySorted key given (given.mergeSort fun a b => decide (key a ≤ key b)) := by
  have htrans : ∀ a b c, decide (key a ≤ key b) = true → decide (key b ≤ key c) = true →
      decide (key a ≤ key c) = true := by
    simp only [decide_eq_true_eq]
    exact fun a b c => Nat.le_trans
  have htotal : ∀ a b, (decide (key a ≤ key b) || decide (key b ≤ key a)) = true := by
    simp only [Bool.or_eq_true, decide_eq_true_eq]
    exact fun a b => Nat.le_total _ _
  have hperm : (given.mergeSort fun a b => decide (key a ≤ key b)).Perm given :=
    List.mergeSort_perm _ _
  refine ⟨hperm, ?_, ?_⟩
  · exact (List.pairwise_mergeSort htrans htotal given).imp of_decide_eq_true
  · intro k
    -- elements of one key are sorted as they stand, and what is sorted already is kept
    have hsorted : (given.filter fun a => key a == k).Pairwise
        fun a b => decide (key a ≤ key b) = true := by
      refine List.pairwise_filter.mpr (List.pairwise_of_forall ?_)
      intro a b ha hb
      rw [beq_iff_eq] at ha hb
      exact decide_eq_true (ha.trans hb.symm).le
    have hkept := (List.sublist_mergeSort htrans htotal hsorted List.filter_sublist).filter
      fun a => key a == k
    rw [List.filter_filter] at hkept
    simp only [Bool.and_self] at hkept
    exact (hkept.eq_of_length (hperm.filter _).length_eq.symm).symm

theorem mem_iff_of_filter_key {key : α → Nat} {a b : List α}
    (h : ∀ k, (a.filter fun x => key x == k) = b.filter fun x => key x == k) (x : α) :
    x ∈ a ↔ x ∈ b := by
  have hx := congrArg (x ∈ ·) (h (key x))
  simpa [List.mem_filter] using hx

theorem key_head_le {key : α → Nat} {x y : α} {later : List α}
    (h : (x :: later).Pairwise fun a b => key a ≤ key b) (hy : y ∈ x :: later) :
    key x ≤ key y := by
  rcases List.mem_cons.mp hy with rfl | hlater
  · exact Nat.le_refl _
  · exact List.rel_of_pairwise_cons h hlater

/-- Sorted elements are known by those of each key. -/
theorem eq_of_filter_key {key : α → Nat} {a b : List α}
    (ha : a.Pairwise fun x y => key x ≤ key y) (hb : b.Pairwise fun x y => key x ≤ key y)
    (h : ∀ k, (a.filter fun x => key x == k) = b.filter fun x => key x == k) : a = b := by
  induction a generalizing b with
  | nil =>
      cases b with
      | nil => rfl
      | cons y b =>
          have hy := (mem_iff_of_filter_key h y).mpr List.mem_cons_self
          cases hy
  | cons x a ih =>
      have hx : x ∈ b := (mem_iff_of_filter_key h x).mp List.mem_cons_self
      cases b with
      | nil => cases hx
      | cons y b =>
          have hy : y ∈ x :: a := (mem_iff_of_filter_key h y).mpr List.mem_cons_self
          -- both have the least key, so each is the first of all elements of that key
          have hkey : key y = key x := Nat.le_antisymm (key_head_le hb hx) (key_head_le ha hy)
          have hfirst := h (key x)
          simp only [List.filter_cons, hkey, beq_self_eq_true, if_true] at hfirst
          obtain rfl : x = y := (List.cons.inj hfirst).1
          have hrest : ∀ k, (a.filter fun x => key x == k) = b.filter fun x => key x == k := by
            intro k
            have hk := h k
            simp only [List.filter_cons] at hk
            split at hk
            · exact (List.cons.inj hk).2
            · exact hk
          rw [ih ha.of_cons hb.of_cons hrest]

theorem IsStablySorted.unique {key : α → Nat} {given sorted sorted' : List α}
    (h : IsStablySorted key given sorted) (h' : IsStablySorted key given sorted') :
    sorted = sorted' :=
  eq_of_filter_key h.ordered h'.ordered fun k => (h.stable k).trans (h'.stable k).symm

/-- Elements are regrouped by tests if each of them passes exactly one. -/
theorem flatMap_filter_perm {tests : List (α → Bool)} {elements : List α}
    (hcovered : ∀ x ∈ elements, ∃ test ∈ tests, test x = true)
    (hdisjoint : tests.Pairwise fun p q => ∀ x, p x = true → q x = false) :
    (tests.flatMap fun test => elements.filter test).Perm elements := by
  induction tests generalizing elements with
  | nil =>
      cases elements with
      | nil => exact .nil
      | cons x rest =>
          obtain ⟨test, htest, -⟩ := hcovered x List.mem_cons_self
          cases htest
  | cons p rest ih =>
      obtain ⟨hp, hrest⟩ := List.pairwise_cons.mp hdisjoint
      have hothers : (rest.flatMap fun test => elements.filter test) =
          rest.flatMap fun test => (elements.filter fun x => !p x).filter test := by
        refine List.flatMap_congr fun q hq => ?_
        rw [List.filter_filter]
        refine List.filter_congr fun x _ => ?_
        cases hpx : p x with
        | true => simp [hp q hq x hpx]
        | false => simp
      have hleft : ∀ x ∈ elements.filter (fun x => !p x), ∃ test ∈ rest, test x = true := by
        intro x hx
        obtain ⟨hmem, hpx⟩ := List.mem_filter.mp hx
        obtain ⟨test, htest, hpasses⟩ := hcovered x hmem
        rcases List.mem_cons.mp htest with rfl | htest
        · rw [hpasses] at hpx
          cases hpx
        · exact ⟨test, htest, hpasses⟩
      rw [List.flatMap_cons, hothers]
      exact ((ih hleft hrest).append_left _).trans (List.filter_append_perm p elements)

end Sorting

namespace TextReport

/-! ## Titles -/

/-- The findings in the file that the path means. -/
def inFile (path : String) (findings : List Finding) : List Finding :=
  findings.filter fun finding => Path.same finding.file path

theorem mem_firstSpellings_iff {known : List (List (List Char))} {paths : List String}
    {path : String} :
    path ∈ firstSpellings known paths ↔
      Path.key path ∉ known ∧ paths.find? (fun other => Path.same other path) = some path := by
  induction paths generalizing known with
  | nil => simp [firstSpellings]
  | cons first rest ih =>
      rw [firstSpellings, List.find?_cons, ← Path.beq_key_eq_same]
      by_cases hsame : Path.key first = Path.key path
      · -- the first spelling of this path is here, or it is known from before
        rw [hsame, beq_self_eq_true]
        by_cases hknown : Path.key path ∈ known
        · simp [hknown, ih]
        · simp [hknown, ih, eq_comm]
      · have hne : first ≠ path := fun h => hsame (congrArg Path.key h)
        rw [beq_eq_false_iff_ne.mpr hsame]
        split
        · exact ih
        · simp [ih, hne.symm, Ne.symm hsame]

theorem firstSpellings_distinct (known : List (List (List Char))) (paths : List String) :
    (firstSpellings known paths).Pairwise fun a b => Path.key a ≠ Path.key b := by
  induction paths generalizing known with
  | nil => exact .nil
  | cons first rest ih =>
      rw [firstSpellings]
      split
      · exact ih known
      · refine List.pairwise_cons.mpr ⟨?_, ih _⟩
        intro later hlater hsame
        have hnew := (mem_firstSpellings_iff.mp hlater).1
        exact hnew (hsame ▸ List.mem_cons_self)

/-- The titles of the blocks in their order. -/
def titles (findings : List Finding) : List String :=
  (firstSpellings [] (findings.map Finding.file)).mergeSort fun a b =>
    textsLe (Path.key a) (Path.key b)

theorem groups_eq (findings : List Finding) :
    groups findings = (titles findings).map fun title =>
      (title, (inFile title findings).mergeSort fun a b => decide (a.line ≤ b.line)) := by
  simp only [groups, titles, inFile, Path.beq_key_eq_same]

/-- A path is a title if the first finding in its file spells it so. -/
theorem mem_titles_iff {findings : List Finding} {title : String} :
    title ∈ titles findings ↔ (inFile title findings).head?.map Finding.file = some title := by
  rw [titles, List.mem_mergeSort, mem_firstSpellings_iff, List.find?_map, inFile,
    List.head?_filter]
  simp only [List.not_mem_nil, not_false_eq_true, true_and]
  rfl

theorem titles_ordered (findings : List Finding) : (titles findings).Pairwise Path.Before :=
  pairwise_mergeSort_textsLe (firstSpellings_distinct [] (findings.map Finding.file))

theorem inFile_congr {path path' : String} (h : Path.same path path' = true)
    (findings : List Finding) : inFile path findings = inFile path' findings := by
  refine List.filter_congr fun finding _ => ?_
  rw [← Path.beq_key_eq_same, ← Path.beq_key_eq_same, Path.key_eq_iff.mpr h]

/-- Every finding has a title to stand under. -/
theorem exists_title {findings : List Finding} {finding : Finding} (h : finding ∈ findings) :
    ∃ title ∈ titles findings, Path.same finding.file title = true := by
  have hfile : finding ∈ inFile finding.file findings :=
    List.mem_filter.mpr ⟨h, beq_self_eq_true _⟩
  obtain ⟨first, later, hfirst⟩ := List.exists_cons_of_ne_nil (List.ne_nil_of_mem hfile)
  have hmem : first ∈ inFile finding.file findings := hfirst ▸ List.mem_cons_self
  have hsame : Path.same first.file finding.file = true := (List.mem_filter.mp hmem).2
  refine ⟨first.file, mem_titles_iff.mpr ?_, ?_⟩
  · rw [inFile_congr hsame, hfirst]
    rfl
  · exact Path.key_eq_iff.mp (Path.key_eq_iff.mpr hsame).symm

/-! ## Blocks -/

section Blocks

variable {findings : List Finding} {blocks : List (String × List Finding)}

/-- What a reader may expect of the blocks of a report, each with its title. No two titles mean the
same file, since they are strictly in order. -/
structure IsGrouping (findings : List Finding) (blocks : List (String × List Finding)) : Prop where
  ordered : blocks.Pairwise fun a b => Path.Before a.1 b.1
  covered : ∀ finding ∈ findings, ∃ block ∈ blocks, Path.same finding.file block.1 = true
  titled : ∀ block ∈ blocks, (inFile block.1 findings).head?.map Finding.file = some block.1
  sorted : ∀ block ∈ blocks, IsStablySorted Finding.line (inFile block.1 findings) block.2

theorem isGrouping_groups (findings : List Finding) : IsGrouping findings (groups findings) := by
  rw [groups_eq]
  refine ⟨List.pairwise_map.mpr (titles_ordered findings), ?_, ?_, ?_⟩
  · intro finding hfinding
    obtain ⟨title, htitle, hsame⟩ := exists_title hfinding
    exact ⟨_, List.mem_map_of_mem htitle, hsame⟩
  · intro block hblock
    obtain ⟨title, htitle, rfl⟩ := List.mem_map.mp hblock
    exact mem_titles_iff.mp htitle
  · intro block hblock
    obtain ⟨title, -, rfl⟩ := List.mem_map.mp hblock
    exact isStablySorted_mergeSort Finding.line _

/-- A path is the title of a block if the first finding in its file spells it so. -/
theorem IsGrouping.mem_map_fst_iff (h : IsGrouping findings blocks) {title : String} :
    title ∈ blocks.map Prod.fst ↔
      (inFile title findings).head?.map Finding.file = some title := by
  constructor
  · intro hmem
    obtain ⟨block, hblock, rfl⟩ := List.mem_map.mp hmem
    exact h.titled block hblock
  · intro htitle
    obtain ⟨first, hfirst, rfl⟩ := Option.map_eq_some_iff.mp htitle
    have hmem := List.mem_of_mem_filter (List.mem_of_mem_head? hfirst)
    obtain ⟨block, hblock, hsame⟩ := h.covered first hmem
    -- the block is titled by the same finding
    have htitled := h.titled block hblock
    rw [← inFile_congr hsame, htitle] at htitled
    exact List.mem_map.mpr ⟨block, hblock, (Option.some.inj htitled).symm⟩

/-- **There is one way to meet the expectations.** -/
theorem IsGrouping.eq_groups (h : IsGrouping findings blocks) : blocks = groups findings := by
  have htitles : blocks.map Prod.fst = titles findings := by
    refine Path.eq_of_before (List.pairwise_map.mpr h.ordered) (titles_ordered findings) ?_
    intro title
    rw [h.mem_map_fst_iff, mem_titles_iff]
  have hblock : ∀ block ∈ blocks, block =
      (block.1, (inFile block.1 findings).mergeSort fun a b => decide (a.line ≤ b.line)) := by
    intro block hmem
    exact Prod.ext rfl ((h.sorted block hmem).unique (isStablySorted_mergeSort Finding.line _))
  rw [groups_eq, ← htitles, List.map_map]
  exact (List.map_id blocks).symm.trans (List.map_congr_left hblock)

/-- **The blocks hold every finding once.** -/
theorem IsGrouping.flatMap_perm (h : IsGrouping findings blocks) :
    (blocks.flatMap Prod.snd).Perm findings := by
  let tests := blocks.map fun block => fun finding : Finding => Path.same finding.file block.1
  have hcovered : ∀ finding ∈ findings, ∃ test ∈ tests, test finding = true := by
    intro finding hfinding
    obtain ⟨block, hblock, hsame⟩ := h.covered finding hfinding
    exact ⟨_, List.mem_map_of_mem hblock, hsame⟩
  have hdisjoint : tests.Pairwise fun p q => ∀ finding, p finding = true → q finding = false := by
    refine List.pairwise_map.mpr (h.ordered.imp ?_)
    intro a b hbefore finding hsame
    rw [← Path.key_ne_iff, Path.key_eq_iff.mpr hsame]
    exact ne_of_lt hbefore
  have hregrouped := flatMap_filter_perm hcovered hdisjoint
  rw [List.flatMap_map] at hregrouped
  refine (List.Perm.flatMap_left blocks ?_).trans hregrouped
  intro block hblock
  exact (h.sorted block hblock).perm

variable {findings' : List Finding}

/-- The blocks do not depend on how the findings of different files are interleaved. -/
theorem groups_congr (h : ∀ path, inFile path findings' = inFile path findings) :
    groups findings' = groups findings := by
  have htitles : titles findings' = titles findings := by
    refine Path.eq_of_before (titles_ordered findings') (titles_ordered findings) ?_
    intro title
    rw [mem_titles_iff, mem_titles_iff, h title]
  rw [groups_eq, groups_eq, htitles]
  simp only [h]

theorem perm_of_inFile (h : ∀ path, inFile path findings' = inFile path findings) :
    findings'.Perm findings := by
  have hperm := (isGrouping_groups findings').flatMap_perm
  rw [groups_congr h] at hperm
  exact hperm.symm.trans (isGrouping_groups findings).flatMap_perm

end Blocks

/-! ## The text -/

/-- The lines on a finding, without colours. -/
def entryText (finding : Finding) : String :=
  "  " ++ icon finding.severity ++ " Line " ++ toString finding.line ++ ": [" ++ finding.ruleId ++
    "] " ++ finding.message ++ "\n    Category: " ++ finding.category.token ++ "\n"

/-- A block, without colours. -/
def blockText (block : String × List Finding) : String :=
  "\n" ++ (block.1 ++ ":") ++ "\n" ++ String.join (block.2.map entryText)

def hasSeverity (severity : Severity) (finding : Finding) : Bool :=
  finding.severity == severity

/-- The block of the numbers, without colours. -/
def summaryText (findings : List Finding) : String :=
  "Summary:\n  Total issues: " ++ toString findings.length ++
    "\n  Errors: " ++ toString (findings.countP (hasSeverity .error)) ++
    "\n  Warnings: " ++ toString (findings.countP (hasSeverity .warning)) ++
    "\n  Info: " ++ toString (findings.countP (hasSeverity .info)) ++ "\n"

/-- The summary looks severities up by their tokens, which tell them apart. -/
theorem severityCount_ofFindings (findings : List Finding) (severity : Severity) :
    (Summary.ofFindings findings).severityCount severity.token =
      findings.countP (hasSeverity severity) := by
  rw [Summary.severityCount, Summary.ofFindings, Tally.count_ofNames, List.count_eq_countP,
    List.countP_map]
  refine List.countP_congr fun finding _ => ?_
  cases hfound : finding.severity <;> cases severity <;> simp [hasSeverity, hfound, Severity.token]

theorem summary_eq_summaryText (findings : List Finding) :
    summary false findings = summaryText findings := by
  unfold summary
  simp only [severityCount_ofFindings, paint_false]
  rfl

theorem summary_congr {findings findings' : List Finding} (h : findings'.Perm findings)
    (colored : Bool) : summary colored findings' = summary colored findings := by
  have htotal : (Summary.ofFindings findings').total = (Summary.ofFindings findings).total :=
    h.length_eq
  unfold summary
  simp only [severityCount_ofFindings, htotal, h.countP_eq]

end TextReport

/-- What the report is made from are the blocks and the numbers of findings. -/
theorem textReport_congr {findings findings' : List Finding}
    (h : ∀ path, TextReport.inFile path findings' = TextReport.inFile path findings)
    (colored : Bool) : textReport colored findings' = textReport colored findings := by
  have hperm := TextReport.perm_of_inFile h
  have hempty : findings'.isEmpty = findings.isEmpty := by
    rw [Bool.eq_iff_iff, List.isEmpty_iff, List.isEmpty_iff, ← List.length_eq_zero_iff,
      ← List.length_eq_zero_iff, hperm.length_eq]
  rw [textReport, textReport, hempty, hperm.length_eq, TextReport.groups_congr h,
    TextReport.summary_congr hperm]

/-- **The report for readers lists every finding once, in its place.** There is a block for each
file that has findings, the blocks in the order of paths, each under the first spelling of its path
and with just the findings of the file, sorted by lines and otherwise as they were given. The report
consists of the number of findings, these blocks and the summary. The same report comes out for any
other order of the findings in which each file has its own in the same order. -/
theorem textReport_grouped {findings : List Finding} (h : findings ≠ []) :
    (∃ blocks, TextReport.IsGrouping findings blocks) ∧
    (∀ blocks, TextReport.IsGrouping findings blocks →
      (blocks.flatMap Prod.snd).Perm findings ∧
      textReport false findings =
        "Found " ++ toString findings.length ++ " issue(s):\n" ++
          String.join (blocks.map TextReport.blockText) ++ "\n" ++
          TextReport.summaryText findings) ∧
    ∀ reordered,
      (∀ path, TextReport.inFile path reordered = TextReport.inFile path findings) →
        textReport false reordered = textReport false findings := by
  refine ⟨⟨_, TextReport.isGrouping_groups findings⟩, ?_, ?_⟩
  · intro blocks hgrouping
    refine ⟨hgrouping.flatMap_perm, ?_⟩
    rw [textReport, if_neg (by simpa using h), TextReport.summary_eq_summaryText,
      hgrouping.eq_groups]
    rfl
  · intro reordered hreordered
    exact textReport_congr hreordered false

/-- A finding on the given line of a file. -/
def unevenIn (file : String) (line : Nat) : Finding where
  ruleId := "R004"
  ruleName := "Inconsistent Indentation"
  severity := .error
  category := .readability
  message := "Mixing tabs and spaces for indentation"
  file := file
  line := line
  column := none
  snippet := none

/-- Two of the findings are in one file, which is spelled in two ways. -/
def spelledFindings : List Finding :=
  [unevenIn "a//b" 3, unevenIn "a.b" 2, unevenIn "a/./b/" 1]

/-- The path of the file with two spellings comes first by components, although a slash comes after
a dot, and the finding in the other file may as well be given first. -/
theorem textReport_grouped_spellings :
    spelledFindings ≠ [] ∧
      (Path.same "a/./b/" "a//b" = true ∧ Path.Before "a//b" "a.b") ∧
      TextReport.IsGrouping spelledFindings
        [("a//b", [unevenIn "a/./b/" 1, unevenIn "a//b" 3]), ("a.b", [unevenIn "a.b" 2])] ∧
      textReport false spelledFindings =
        "Found 3 issue(s):\n" ++
          String.join ([("a//b", [unevenIn "a/./b/" 1, unevenIn "a//b" 3]),
            ("a.b", [unevenIn "a.b" 2])].map TextReport.blockText) ++ "\n" ++
          TextReport.summaryText spelledFindings ∧
      (∀ path, TextReport.inFile path [unevenIn "a.b" 2, unevenIn "a//b" 3, unevenIn "a/./b/" 1] =
        TextReport.inFile path spelledFindings) ∧
      textReport false [unevenIn "a.b" 2, unevenIn "a//b" 3, unevenIn "a/./b/" 1] =
        textReport false spelledFindings := by
  have hnonempty : spelledFindings ≠ [] := List.cons_ne_nil _ _
  have hgrouping : TextReport.IsGrouping spelledFindings
      [("a//b", [unevenIn "a/./b/" 1, unevenIn "a//b" 3]), ("a.b", [unevenIn "a.b" 2])] := by
    have hfirst : IsStablySorted Finding.line (TextReport.inFile "a//b" spelledFindings)
        [unevenIn "a/./b/" 1, unevenIn "a//b" 3] := by
      refine ⟨by decide +kernel, by decide, fun k => ?_⟩
      have hfile : TextReport.inFile "a//b" spelledFindings =
          [unevenIn "a//b" 3, unevenIn "a/./b/" 1] := by decide +kernel
      rw [hfile]
      by_cases hk : 1 = k
      · subst hk
        rfl
      · simp [unevenIn, List.filter_cons, hk]
    have hsecond : IsStablySorted Finding.line (TextReport.inFile "a.b" spelledFindings)
        [unevenIn "a.b" 2] := by
      have hfile : TextReport.inFile "a.b" spelledFindings = [unevenIn "a.b" 2] := by
        decide +kernel
      rw [hfile]
      exact ⟨.refl _, List.pairwise_singleton _ _, fun _ => rfl⟩
    refine ⟨by decide +kernel, by decide +kernel, by decide +kernel, ?_⟩
    exact List.forall_mem_cons.mpr ⟨hfirst, List.forall_mem_singleton.mpr hsecond⟩
  have hreordered : ∀ path,
      TextReport.inFile path [unevenIn "a.b" 2, unevenIn "a//b" 3, unevenIn "a/./b/" 1] =
        TextReport.inFile path spelledFindings := by
    intro path
    have hother : Path.same "a.b" path = true → Path.same "a//b" path = false := by
      rw [← Path.key_eq_iff, ← Path.key_ne_iff]
      intro hsame
      rw [← hsame]
      decide +kernel
    rw [TextReport.inFile, TextReport.inFile]
    cases hsame : Path.same "a.b" path with
    | true => simp [spelledFindings, unevenIn, List.filter_cons, hsame, hother hsame]
    | false => simp [spelledFindings, unevenIn, List.filter_cons, hsame]
  obtain ⟨-, hblocks, hsame⟩ := textReport_grouped hnonempty
  exact ⟨hnonempty, by decide +kernel, hgrouping, (hblocks _ hgrouping).2, hreordered,
    hsame _ hreordered⟩

end ScriptLint
