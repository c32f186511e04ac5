import Mathlib.Data.List.Flatten
import ScriptLint.Proofs.CommandOutcomes
import ScriptLint.Proofs.DisabledRules

/-!
# Relaxed settings

Settings are relaxed by disabling more rules, by excluding more files and by allowing longer lines.
Each of the three acts on its own stage: on the rules that apply, on the files that are collected,
and on what one rule finds in one file. At every stage something is taken out of a list and the rest
keeps its order, so all that the relaxed settings report is reported without them, in that order. A
finding may differ in its message, which quotes the limit, but in nothing else.
-/

namespace ScriptLint

open List (Forall₂)

/-! ## Rules -/

/-- What a finding says apart from its wording. -/
def Finding.mark (finding : Finding) : String × Severity × String × Nat :=
  (finding.ruleId, finding.severity, finding.file, finding.line)

/-- All that the second rule finds is found by the first one, which has the same id. -/
structure Rule.Covers (rule narrower : Rule) : Prop where
  id : narrower.id = rule.id
  marks : ∀ path text,
    ((narrower.check path text).map Finding.mark).Sublist ((rule.check path text).map Finding.mark)

theorem Rule.covers_self (rule : Rule) : rule.Covers rule :=
  ⟨rfl, fun _ _ => List.Sublist.refl _⟩

/-- The marks of long lines. -/
theorem LineLength.map_mark_check (limit : Nat) (path text : String) :
    ((rule limit).check path text).map Finding.mark =
      ((numbered 1 (linesOf text)).filter fun entry =>
        !entry.2.isComment && limit < entry.2.length).map fun entry =>
          ("R001", .warning, path, entry.1) := by
  simp only [Rule.check, rule, scan, List.map_map]
  rfl

theorem LineLength.covers_of_le {limit limit' : Nat} (h : limit ≤ limit') :
    (rule limit).Covers (rule limit') := by
  refine ⟨rfl, fun path text => ?_⟩
  rw [map_mark_check, map_mark_check]
  apply List.Sublist.map
  apply List.monotone_filter_right
  intro entry hlong
  simp only [Bool.and_eq_true, decide_eq_true_eq] at hlong ⊢
  exact ⟨hlong.1, h.trans_lt hlong.2⟩

/-- The limit is for one rule alone. -/
theorem covers_catalog {limit limit' : Nat} (h : limit ≤ limit') :
    Forall₂ Rule.Covers (catalog limit) (catalog limit') := by
  refine .cons (LineLength.covers_of_le h) ?_
  rw [List.forall₂_same]
  exact fun rule _ => rule.covers_self

/-- Fewer rules that find less have fewer findings. -/
theorem marks_of_covers {rules narrower : List Rule} (h : Forall₂ Rule.Covers rules narrower)
    (test test' : String → Bool)
    (htest : ∀ rule ∈ rules, test' rule.id = true → test rule.id = true) (path text : String) :
    (((narrower.filter fun rule => test' rule.id).flatMap fun rule =>
        rule.check path text).map Finding.mark).Sublist
      (((rules.filter fun rule => test rule.id).flatMap fun rule =>
        rule.check path text).map Finding.mark) := by
  induction h with
  | nil => exact .slnil
  | @cons rule narrow rules narrower hcovers _ ih =>
      obtain ⟨hrule, hrules⟩ := List.forall_mem_cons.mp htest
      have hrest := ih hrules
      rw [List.filter_cons, List.filter_cons, hcovers.id]
      by_cases hnarrow : test' rule.id = true
      · rw [if_pos hnarrow, if_pos (hrule hnarrow), List.flatMap_cons, List.flatMap_cons,
          List.map_append, List.map_append]
        exact (hcovers.marks path text).append hrest
      · rw [if_neg hnarrow]
        split
        · rw [List.flatMap_cons, List.map_append]
          exact hrest.trans (List.sublist_append_right _ _)
        · exact hrest

/-! ## Settings -/

namespace Settings

/-- The second settings are the first ones relaxed. -/
structure Relaxes (settings relaxed : Settings) : Prop where
  extensions : relaxed.extensions = settings.extensions
  respectGitignore : relaxed.respectGitignore = settings.respectGitignore
  failOnWarning : relaxed.failOnWarning = settings.failOnWarning
  disabled : ∀ rule ∈ catalog settings.maxLineLength,
    settings.disables rule.id = true → relaxed.disables rule.id = true
  exclude : settings.exclude ⊆ relaxed.exclude
  maxLineLength : settings.maxLineLength ≤ relaxed.maxLineLength

section

variable {settings : Settings} {files : FileSystem} {path : String}

theorem collectFiles_cases {paths : List String}
    (h : settings.collectFiles files path = .ok paths) :
    (files.isFile path = true ∧ paths = [path]) ∨
      (files.isFile path = false ∧ ∃ selection, Selection.ofSettings settings = .ok selection ∧
        paths = (if settings.respectGitignore then files.walkKept path
          else files.walkAll path).filter selection.selects) := by
  unfold collectFiles at h
  split at h
  · next hfile =>
      cases h
      exact .inl ⟨hfile, rfl⟩
  · next hfile =>
      split at h
      · cases h
      · split at h
        · cases h
        · next selection hselection =>
            cases h
            refine .inr ⟨by simpa using hfile, selection, hselection, ?_⟩
            split <;> rfl

/-- An analysis is made of what reading the collected files leads to. -/
theorem analyze_eq_ok {analysis : Analysis} (h : settings.analyze files path = .ok analysis) :
    ∃ paths, settings.collectFiles files path = .ok paths ∧
      analysis = .ofReads settings (paths.map files.read) := by
  cases hfile : files.isFile path with
  | true =>
      refine ⟨[path], by rw [collectFiles, if_pos hfile], ?_⟩
      have hread : ∃ text, files.readText path = .ok text := by
        by_contra hnone
        exact analyze_isOk_iff.mp ⟨analysis, h⟩
          (.text hfile fun text htext => hnone ⟨text, htext⟩)
      obtain ⟨text, htext⟩ := hread
      rw [settings.analyze_of_readText htext { total := 0 }, checkFiles_eq] at h
      cases h
      rfl
  | false =>
      rw [analyze, if_neg (by simp [hfile])] at h
      cases hpaths : settings.collectFiles files path with
      | error fault =>
          rw [hpaths] at h
          cases h
      | ok paths =>
          rw [hpaths] at h
          cases h
          refine ⟨paths, rfl, ?_⟩
          dsimp only
          rw [checkFiles_eq]

end

namespace Relaxes

variable {settings relaxed : Settings} {files : FileSystem} {path : String}

theorem checkText (h : settings.Relaxes relaxed) (path text : String) :
    ((relaxed.checkText path text).map Finding.mark).Sublist
      ((settings.checkText path text).map Finding.mark) := by
  apply marks_of_covers (covers_catalog h.maxLineLength) (fun id => !settings.disables id)
    fun id => !relaxed.disables id
  intro rule hrule hkept
  cases hdisables : settings.disables rule.id with
  | false => rfl
  | true =>
      rw [h.disabled rule hrule hdisables] at hkept
      exact hkept

theorem collectFiles (h : settings.Relaxes relaxed) {paths fewer : List String}
    (hpaths : settings.collectFiles files path = .ok paths)
    (hfewer : relaxed.collectFiles files path = .ok fewer) : fewer.Sublist paths := by
  rcases collectFiles_cases hpaths with
    ⟨hfile, rfl⟩ | ⟨hfile, selection, hselection, rfl⟩
  · rcases collectFiles_cases hfewer with ⟨-, rfl⟩ | ⟨hnot, -⟩
    · exact List.Sublist.refl _
    · rw [hfile] at hnot
      cases hnot
  · rcases collectFiles_cases hfewer with ⟨hnot, -⟩ | ⟨-, stricter, hstricter, rfl⟩
    · rw [hfile] at hnot
      cases hnot
    · rw [h.respectGitignore]
      apply List.monotone_filter_right
      intro path hpath
      rw [Selection.ofSettings, h.extensions] at hstricter
      exact Selection.selects_of_subset hselection hstricter h.exclude hpath

/-- What relaxed settings report is reported without them. -/
theorem ofReads (h : settings.Relaxes relaxed) {reads fewer : List FileRead}
    (hreads : fewer.Sublist reads) :
    ((Analysis.ofReads relaxed fewer).findings.map Finding.mark).Sublist
        ((Analysis.ofReads settings reads).findings.map Finding.mark) ∧
      (Analysis.ofReads relaxed fewer).skipped.Sublist
        (Analysis.ofReads settings reads).skipped := by
  constructor
  · simp only [Analysis.ofReads, List.map_flatMap]
    refine (List.Sublist.flatMap_right fewer ?_).trans (hreads.flatMap _)
    intro file _
    cases file.text with
    | ok text => exact h.checkText file.path text
    | error error => exact List.Sublist.refl _
  · exact hreads.filterMap _

theorem analyze (h : settings.Relaxes relaxed) {analysis less : Analysis}
    (hanalysis : settings.analyze files path = .ok analysis)
    (hless : relaxed.analyze files path = .ok less) :
    (less.findings.map Finding.mark).Sublist (analysis.findings.map Finding.mark) ∧
      less.skipped.Sublist analysis.skipped := by
  obtain ⟨paths, hpaths, rfl⟩ := analyze_eq_ok hanalysis
  obtain ⟨fewer, hfewer, rfl⟩ := analyze_eq_ok hless
  exact h.ofReads ((h.collectFiles hpaths hfewer).map files.read)

end Relaxes

end Settings

/-! ## Statuses -/

/-- The wording of findings has no influence on whether one of them fails a run. -/
theorem HasBlocking.of_marks {findings fewer : List Finding} {failOnWarning : Bool}
    (hmarks : (fewer.map Finding.mark).Sublist (findings.map Finding.mark))
    (h : HasBlocking fewer failOnWarning) : HasBlocking findings failOnWarning := by
  have hsame : ∀ severity, (∃ finding ∈ fewer, finding.severity = severity) →
      ∃ finding ∈ findings, finding.severity = severity := by
    rintro severity ⟨finding, hfinding, rfl⟩
    obtain ⟨other, hother, hmark⟩ :=
      List.mem_map.mp (hmarks.subset (List.mem_map_of_mem hfinding))
    exact ⟨other, hother, congrArg (fun mark => mark.2.1) hmark⟩
  rcases h with herror | ⟨hfail, hwarning⟩
  · exact .inl (hsame _ herror)
  · exact .inr ⟨hfail, hsame _ hwarning⟩

theorem ExitStatus.code_ofFindings_le {findings fewer : List Finding} (failOnWarning : Bool)
    (hmarks : (fewer.map Finding.mark).Sublist (findings.map Finding.mark)) :
    (ofFindings fewer failOnWarning).code ≤ (ofFindings findings failOnWarning).code := by
  rcases ofFindings_cases fewer failOnWarning with ⟨hblocking, hfewer⟩ | ⟨-, hfewer⟩
  · rcases ofFindings_cases findings failOnWarning with ⟨-, h⟩ | ⟨hnot, -⟩
    · rw [hfewer, h]
    · exact absurd (hblocking.of_marks hmarks) hnot
  · rw [hfewer]
    exact Nat.zero_le _

/-! ## Options of a check -/

namespace CheckOptions

/-- The second options ask for the same check with more rules disabled and more files excluded. -/
structure Relaxes (options relaxed : CheckOptions) : Prop where
  path : relaxed.path = options.path
  config : relaxed.config = options.config
  failOnWarning : relaxed.failOnWarning = options.failOnWarning
  disable : options.disable ⊆ relaxed.disable
  exclude : options.exclude ⊆ relaxed.exclude

variable {options relaxed : CheckOptions}

theorem Relaxes.disables_override (h : options.Relaxes relaxed) {settings : Settings} {id : String}
    (hid : (options.override settings).disables id = true) :
    (relaxed.override settings).disables id = true := by
  unfold Settings.disables override at hid ⊢
  rw [List.any_append, Bool.or_eq_true, List.any_eq_true, List.any_eq_true] at hid ⊢
  refine hid.imp_right ?_
  rintro ⟨entry, hentry, hsame⟩
  obtain ⟨hmem, hvisible⟩ := List.mem_filter.mp hentry
  exact ⟨entry, List.mem_filter.mpr ⟨List.map_subset trimmed h.disable hmem, hvisible⟩, hsame⟩

/-- Options that disable and exclude more relax the settings they are applied to. -/
theorem Relaxes.override (h : options.Relaxes relaxed) {settings : Settings}
    (hlength : (options.override settings).maxLineLength ≤
      (relaxed.override settings).maxLineLength) :
    (options.override settings).Relaxes (relaxed.override settings) where
  extensions := rfl
  respectGitignore := rfl
  failOnWarning := congrArg (settings.failOnWarning || ·) h.failOnWarning
  disabled _ _ := h.disables_override
  exclude := List.append_subset.mpr ⟨List.subset_append_left _ _,
    List.subset_append_of_subset_right _ h.exclude⟩
  maxLineLength := hlength

theorem Relaxes.effectiveSettings (h : options.Relaxes relaxed) {general : GlobalOptions}
    {files : FileSystem}
    (hlength : (options.effectiveSettings general files).maxLineLength ≤
      (relaxed.effectiveSettings general files).maxLineLength) :
    (options.effectiveSettings general files).Relaxes
      (relaxed.effectiveSettings general files) := by
  have hstart : relaxed.startingSettings general files =
      options.startingSettings general files := by
    rw [startingSettings, startingSettings, h.config]
  unfold CheckOptions.effectiveSettings at hlength ⊢
  rw [hstart] at hlength ⊢
  exact h.override hlength

/-- Relaxed options never turn a clean check into a blocked one. -/
theorem Relaxes.run (h : options.Relaxes relaxed) {general : GlobalOptions} {files : FileSystem}
    (hlength : (options.effectiveSettings general files).maxLineLength ≤
      (relaxed.effectiveSettings general files).maxLineLength) {onTerminal : Bool}
    (hclean : (options.run general onTerminal files).status.code = 0) :
    (relaxed.run general onTerminal files).status.code ≠ 1 := by
  intro hblocked
  have hnot : ¬ options.Fails general files onTerminal := by
    rw [← code_eq_two_iff onTerminal, hclean]
    decide
  have hnot' : ¬ relaxed.Fails general files onTerminal := by
    rw [← code_eq_two_iff onTerminal, hblocked]
    decide
  obtain ⟨analysis, hanalysis, hstatus, -⟩ := run_of_not_fails hnot
  obtain ⟨less, hless, hstatus', -⟩ := run_of_not_fails hnot'
  have hrelaxes := h.effectiveSettings hlength
  rw [h.path] at hless
  have hle := ExitStatus.code_ofFindings_le (options.effectiveSettings general files).failOnWarning
    (hrelaxes.analyze hanalysis hless).1
  rw [← hstatus, ← hrelaxes.failOnWarning, ← hstatus', hclean, hblocked] at hle
  exact absurd hle (by decide)

end CheckOptions

/-- **Relaxing settings never adds findings.** If more rules are disabled, more files are excluded
or longer lines are allowed, what is found is found without that, in the same order, and so it is
with the files that are skipped; the status gets no worse. On the command line, a check that is
clean is not blocked by options that disable and exclude more and allow longer lines. -/
theorem analyze_relaxed (files : FileSystem) :
    (∀ (settings relaxed : Settings) (path : String) (analysis less : Analysis),
      settings.Relaxes relaxed → settings.analyze files path = .ok analysis →
      relaxed.analyze files path = .ok less →
      (less.findings.map fun finding => (finding.ruleId, finding.file, finding.line)).Sublist
        (analysis.findings.map fun finding => (finding.ruleId, finding.file, finding.line)) ∧
      less.skipped.Sublist analysis.skipped ∧
      (ExitStatus.ofFindings less.findings relaxed.failOnWarning).code ≤
        (ExitStatus.ofFindings analysis.findings settings.failOnWarning).code) ∧
    ∀ (options relaxed : CheckOptions) (general : GlobalOptions) (onTerminal : Bool),
      options.Relaxes relaxed →
      (options.effectiveSettings general files).maxLineLength ≤
        (relaxed.effectiveSettings general files).maxLineLength →
      (Invocation.run ⟨general, .check options⟩ onTerminal files).status.code = 0 →
      (Invocation.run ⟨general, .check relaxed⟩ onTerminal files).status.code ≠ 1 := by
  constructor
  · intro settings relaxed path analysis less hrelaxes hanalysis hless
    obtain ⟨hmarks, hskipped⟩ := hrelaxes.analyze hanalysis hless
    refine ⟨?_, hskipped, ?_⟩
    · have hplaces := hmarks.map fun mark => (mark.1, mark.2.2.1, mark.2.2.2)
      rwa [List.map_map, List.map_map] at hplaces
    · rw [hrelaxes.failOnWarning]
      exact ExitStatus.code_ofFindings_le _ hmarks
  · intro options relaxed general onTerminal hrelaxes hlength hclean
    exact hrelaxes.run hlength hclean

/-- Two scripts and a file that is no text. -/
def mixedProject : FileSystem where
  entries := [("a.gd", .file "func f():\n\tpass\n".toUTF8), ("b.gd", .file "func g():\n".toUTF8),
    ("c.gd", .file ⟨#[255]⟩)]
  workingDir := "/"
  homeDir := none

/-- Settings that are relaxed in all three ways, in a directory and then on the command line. -/
theorem analyze_relaxed_mixed :
    (∃ analysis less,
      Settings.analyze { maxLineLength := 4, disabledRules := ["R002"] } mixedProject "." =
        .ok analysis ∧
      Settings.analyze { maxLineLength := 8, disabledRules := [" r003", "r002"], exclude := ["b*"] }
        mixedProject "." = .ok less ∧
      (less.findings.map fun finding => (finding.ruleId, finding.file, finding.line)).Sublist
        (analysis.findings.map fun finding => (finding.ruleId, finding.file, finding.line)) ∧
      less.skipped.Sublist analysis.skipped) ∧
    (Invocation.run ⟨{}, .check { path := "a.gd" }⟩ false mixedProject).status.code = 0 ∧
    (Invocation.run ⟨{}, .check
      { path := "a.gd", maxLineLength := some 200, disable := ["R003"], exclude := ["b*"] }⟩
      false mixedProject).status.code ≠ 1 := by
  obtain ⟨hsettings, hoptions⟩ := analyze_relaxed mixedProject
  constructor
  · have hroot : mixedProject.isDirectory "." = true := by decide +kernel
    have hrelaxes : Settings.Relaxes { maxLineLength := 4, disabledRules := ["R002"] }
        { maxLineLength := 8, disabledRules := [" r003", "r002"], exclude := ["b*"] } :=
      ⟨rfl, rfl, rfl, by decide +kernel, List.nil_subset _, by decide⟩
    obtain ⟨selection, hselection⟩ :=
      (Settings.ofSettings_isOk_iff { maxLineLength := 4, disabledRules := ["R002"] }).mpr nofun
    obtain ⟨stricter, hstricter⟩ := (Settings.ofSettings_isOk_iff
      { maxLineLength := 8, disabledRules := [" r003", "r002"], exclude := ["b*"] }).mpr
        (by decide +kernel)
    obtain ⟨analysis, hanalysis⟩ := Settings.analyze_of_isDirectory hroot hselection
    obtain ⟨less, hless⟩ := Settings.analyze_of_isDirectory hroot hstricter
    have hfewer := hsettings _ _ "." analysis less hrelaxes hanalysis hless
    exact ⟨analysis, less, hanalysis, hless, hfewer.1, hfewer.2.1⟩
  · have hrelaxes : CheckOptions.Relaxes { path := "a.gd" }
        { path := "a.gd", maxLineLength := some 200, disable := ["R003"], exclude := ["b*"] } :=
      ⟨rfl, rfl, rfl, List.nil_subset _, List.nil_subset _⟩
    have hclean : (Invocation.run ⟨{}, .check { path := "a.gd" }⟩ false mixedProject).status.code =
      0 := by decide +kernel
    exact ⟨hclean, hoptions _ _ {} false hrelaxes (by decide +kernel) hclean⟩

end ScriptLint
