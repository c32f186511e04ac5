import Mathlib.Algebra.BigOperators.Group.List.Lemmas
import ScriptLint.Proofs.Annotations
import ScriptLint.Proofs.ColoredText
import ScriptLint.Proofs.CommandOutcomes
import ScriptLint.Proofs.Tallies

/-!
# Summaries, the figures of reports and the exit status

Three parts of the program count findings: the summary, the last lines of a report and the exit
status. Each of them goes through the findings by itself. They agree, because all of them come down
to how often a severity occurs.

Summaries can also be put together. The summary of two lists one after the other is the summary of
the first with the counts of the second added to it: a name that the first knows stays where it is,
and the others follow in the order in which the second has them.
-/

namespace ScriptLint

namespace Tally

/-! ## Putting tallies together -/

/-- The first tally with the counts of the second added. What only the second lists comes last. -/
def merge (tally other : Tally) : Tally :=
  (tally.map fun entry => (entry.1, entry.2 + other.count entry.1)) ++
    other.filter fun entry => !(tally.map Prod.fst).contains entry.1

/-- What appears first in the second part is new to the first part. -/
theorem eraseDups_append_filter (names more : List String) :
    (names ++ more).eraseDups =
      names.eraseDups ++ more.eraseDups.filter fun name => !names.contains name := by
  induction more using List.reverseRecOn with
  | nil => simp
  | append_singleton more name ih =>
      rw [← List.append_assoc, eraseDups_concat, eraseDups_concat, ih]
      by_cases hknown : name ∈ names
      · by_cases hmore : name ∈ more <;> simp [hknown, hmore]
      · by_cases hmore : name ∈ more <;> simp [hknown, hmore]

theorem map_fst_ofNames (names : List String) :
    (ofNames names).map Prod.fst = names.eraseDups :=
  (tallies_ofNames names).inOrder

/-- **The tally of two lists is the tally of the first with that of the second added.** -/
theorem ofNames_append (names more : List String) :
    ofNames (names ++ more) = (ofNames names).merge (ofNames more) := by
  have hold : listing names.eraseDups (names ++ more).count =
      (ofNames names).map fun entry => (entry.1, entry.2 + (ofNames more).count entry.1) := by
    rw [ofNames_eq names, listing, listing, List.map_map]
    apply List.map_congr_left
    intro name _
    show (name, (names ++ more).count name) = (name, names.count name + (ofNames more).count name)
    rw [List.count_append, count_ofNames]
  have hnew : listing (more.eraseDups.filter fun name => !names.contains name)
        (names ++ more).count =
      (ofNames more).filter fun entry => !((ofNames names).map Prod.fst).contains entry.1 := by
    rw [map_fst_ofNames, ofNames_eq more, listing, listing, List.filter_map]
    have hsame : ((fun entry : String × Nat => !names.eraseDups.contains entry.1) ∘
        fun name => (name, more.count name)) = fun name => !names.contains name := by
      funext name
      simp [List.contains_eq_mem, List.mem_eraseDups]
    rw [hsame]
    apply List.map_congr_left
    intro name hname
    have hfresh : name ∉ names := by simpa using (List.mem_filter.mp hname).2
    rw [List.count_append, List.count_eq_zero.mpr hfresh, Nat.zero_add]
  rw [ofNames_eq, eraseDups_append_filter, merge, ← hold, ← hnew]
  exact List.map_append

/-- The counts of a tally add up to the number of names. -/
theorem Tallies.sum_counts {tally : Tally} {names : List String} (h : tally.Tallies names) :
    (tally.map Prod.snd).sum = names.length := by
  have hcounts : tally.map Prod.snd = names.eraseDups.map names.count := by
    rw [← h.inOrder, List.map_map]
    exact List.map_congr_left h.counted
  have hperm : names.eraseDups.Perm names.dedup := by
    rw [List.perm_ext_iff_of_nodup (nodup_eraseDups names) names.nodup_dedup]
    intro name
    rw [List.mem_eraseDups, List.mem_dedup]
  rw [hcounts, (hperm.map names.count).sum_eq]
  exact List.sum_map_count_dedup_eq_length names

end Tally

namespace Summary

/-- The summary of two lists of findings from the summaries of each. -/
def merge (summary other : Summary) : Summary where
  total := summary.total + other.total
  bySeverity := summary.bySeverity.merge other.bySeverity
  byCategory := summary.byCategory.merge other.byCategory
  byFile := summary.byFile.merge other.byFile

theorem ofFindings_append (findings more : List Finding) :
    ofFindings (findings ++ more) = (ofFindings findings).merge (ofFindings more) := by
  simp only [ofFindings, merge, List.map_append, Tally.ofNames_append, List.length_append]

/-- The summary counts the findings: all of them, and in each tally one by one what they have. -/
structure Counts (summary : Summary) (findings : List Finding) : Prop where
  total : summary.total = findings.length
  bySeverity : summary.bySeverity.Tallies (findings.map fun finding => finding.severity.token)
  byCategory : summary.byCategory.Tallies (findings.map fun finding => finding.category.token)
  byFile : summary.byFile.Tallies (findings.map Finding.file)
  sums : ∀ tally ∈ [summary.bySeverity, summary.byCategory, summary.byFile],
    (tally.map Prod.snd).sum = summary.total

theorem counts_ofFindings (findings : List Finding) : (ofFindings findings).Counts findings := by
  have hseverity := Tally.tallies_ofNames (findings.map fun finding => finding.severity.token)
  have hcategory := Tally.tallies_ofNames (findings.map fun finding => finding.category.token)
  have hfile := Tally.tallies_ofNames (findings.map Finding.file)
  refine ⟨rfl, hseverity, hcategory, hfile, ?_⟩
  rw [List.forall_mem_cons, List.forall_mem_cons, List.forall_mem_singleton]
  exact ⟨hseverity.sum_counts.trans (List.length_map _),
    hcategory.sum_counts.trans (List.length_map _), hfile.sum_counts.trans (List.length_map _)⟩

/-- How often a severity occurs is positive if some finding has it. -/
theorem severityCount_pos_iff (findings : List Finding) (severity : Severity) :
    0 < (ofFindings findings).severityCount severity.token ↔
      ∃ finding ∈ findings, finding.severity = severity := by
  rw [TextReport.severityCount_ofFindings, List.countP_pos_iff]
  simp [TextReport.hasSeverity]

end Summary

/-! ## Figures on the lines of a report -/

/-- The figure that a line shows after a label, whatever the colours. -/
def figureOn? (label : String) (line : Line) : Option Nat :=
  let plain := Ansi.deleteFrom 0 line
  if label.toList.isPrefixOf plain then
    Annotation.number? (String.ofList (plain.drop label.toList.length))
  else none

/-- The figure that a report shows after a label. A message can have lines of its own and imitate
such a line, but the figures of the report stand at its end, so the last line with one counts. -/
def printedFigure? (label : String) (report : String) : Option Nat :=
  (linesOf report).reverse.findSome? (figureOn? label)

section Figures

variable {label written : String}

theorem IsColoring.deleteFrom {plain : String} (h : IsColoring written plain) :
    Ansi.deleteFrom 0 written.toList = plain.toList := by
  simpa [Ansi.deleteFrom] using h []

/-- A figure is shown on a line that starts with its label. -/
theorem figureOn?_of_label {n : Nat} (h : IsColoring written (label ++ toString n)) :
    figureOn? label written.toList = some n := by
  have hprefix : label.toList.isPrefixOf (label.toList ++ (toString n).toList) = true :=
    List.isPrefixOf_iff_prefix.mpr (List.prefix_append _ _)
  rw [figureOn?, h.deleteFrom, String.toList_append, if_pos hprefix, List.drop_left,
    String.ofList_toList, Annotation.number?_toString]

/-- A line that starts otherwise shows no figure. -/
theorem figureOn?_of_other {plain : String} (h : IsColoring written plain)
    (hother : ¬ label.toList <+: plain.toList) : figureOn? label written.toList = none := by
  rw [figureOn?, h.deleteFrom, if_neg (List.isPrefixOf_iff_prefix.not.mpr hother)]

/-- The figure of a report is on the last line that shows one. -/
theorem printedFigure?_of_lines {report : String} {before after : List Line} {line : Line} {n : Nat}
    (h : linesOf report = before ++ line :: after) (hline : figureOn? label line = some n)
    (hafter : ∀ other ∈ after, figureOn? label other = none) :
    printedFigure? label report = some n := by
  have hnone : after.reverse.findSome? (figureOn? label) = none := by
    rw [List.findSome?_eq_none_iff]
    intro other hother
    exact hafter other (List.mem_reverse.mp hother)
  rw [printedFigure?, h, List.reverse_append, List.reverse_cons, List.append_assoc,
    List.findSome?_append, hnone, Option.none_or]
  simp [hline]

end Figures

/-! ## The figures of both reports -/

/-- What a report shows after its labels for errors and for warnings is how often these occur, and a
report on nothing shows no figures. -/
structure PrintsFigures (bullet report : String) (findings : List Finding) : Prop where
  errors : printedFigure? (bullet ++ "Errors: ") report =
    if findings = [] then none else some ((Summary.ofFindings findings).severityCount "error")
  warnings : printedFigure? (bullet ++ "Warnings: ") report =
    if findings = [] then none else some ((Summary.ofFindings findings).severityCount "warning")

/-- Whether the figures of a report stand against a run. -/
def ShowsBlocking (bullet report : String) (failOnWarning : Bool) : Prop :=
  (∃ errors, printedFigure? (bullet ++ "Errors: ") report = some errors ∧ errors ≠ 0) ∨
    (failOnWarning = true ∧
      ∃ warnings, printedFigure? (bullet ++ "Warnings: ") report = some warnings ∧ warnings ≠ 0)

section Reports

variable {bullet report : String} {findings : List Finding}

/-- The figure of a severity as a report prints it. -/
def shownCount (colored : Bool) (findings : List Finding) (severity : Severity) : String :=
  paint colored (TextReport.color severity)
    (toString ((Summary.ofFindings findings).severityCount severity.token))

/-- The lines that end a report. -/
def figureLines (heading bullet : String) (colored : Bool) (findings : List Finding) :
    List String :=
  [heading, bullet ++ "Total issues: " ++ toString findings.length,
   bullet ++ "Errors: " ++ shownCount colored findings .error,
   bullet ++ "Warnings: " ++ shownCount colored findings .warning,
   bullet ++ "Info: " ++ shownCount colored findings .info]

theorem isColoring_shownCount (colored : Bool) (findings : List Finding) (severity : Severity) :
    IsColoring (shownCount colored findings severity)
      (toString ((Summary.ofFindings findings).severityCount severity.token)) := by
  cases colored with
  | false => exact .same (hasNoEscape_toString _)
  | true => exact .paint _ (hasNoEscape_toString _)

theorem lineFeed_notMem_shownCount (colored : Bool) (findings : List Finding)
    (severity : Severity) : '\n' ∉ (shownCount colored findings severity).toList := by
  have hnumber := Annotation.notMem_number (d := '\n') (by decide)
    ((Summary.ofFindings findings).severityCount severity.token)
  have hcode : '\n' ∉ (TextReport.color severity).code.toList := by cases severity <;> decide
  have hreset : '\n' ∉ Ansi.reset.code.toList := by decide
  cases colored with
  | false => exact hnumber
  | true =>
      rw [shownCount, paint, if_pos rfl, String.toList_append, String.toList_append,
        List.mem_append, List.mem_append, not_or, not_or]
      exact ⟨⟨hcode, hnumber⟩, hreset⟩

/-- The lines that end a report are lines: nothing in them is a line break. -/
theorem linesOf_figureLines {heading bullet : String} (hheading : '\n' ∉ heading.toList)
    (hbullet : '\n' ∉ bullet.toList) (colored : Bool) (findings : List Finding) :
    linesOf (endedLines (figureLines heading bullet colored findings)) =
      (figureLines heading bullet colored findings).map String.toList ++ [[]] := by
  have htotal : '\n' ∉ (toString findings.length).toList :=
    Annotation.notMem_number (by decide) _
  have hcount := lineFeed_notMem_shownCount colored findings
  apply linesOf_endedLines
  simp only [figureLines, List.forall_mem_cons, String.toList_append, List.mem_append, not_or]
  exact ⟨hheading, ⟨⟨hbullet, by decide⟩, htotal⟩, ⟨⟨hbullet, by decide⟩, hcount _⟩,
    ⟨⟨hbullet, by decide⟩, hcount _⟩, ⟨⟨hbullet, by decide⟩, hcount _⟩, List.forall_mem_nil _⟩

/-- A report that ends in these lines prints the right figures. -/
theorem printsFigures_of_lines {before : List Line} {heading : String} {colored : Bool}
    (hne : findings ≠ []) (hbullet : HasNoEscape bullet)
    (h : linesOf report =
      before ++ ((figureLines heading bullet colored findings).map String.toList ++ [[]])) :
    PrintsFigures bullet report findings := by
  have hlabel : ∀ word : String, HasNoEscape word → IsColoring (bullet ++ word) (bullet ++ word) :=
    fun word hword => .same (hbullet.append hword)
  have hcount := isColoring_shownCount colored findings
  have herrorsLine := (hlabel "Errors: " (by decide)).append (hcount .error)
  have hwarningsLine := (hlabel "Warnings: " (by decide)).append (hcount .warning)
  have hinfoLine := (hlabel "Info: " (by decide)).append (hcount .info)
  have hlastLine : IsColoring "" "" := .same (by decide)
  let totalText : Line := (bullet ++ "Total issues: " ++ toString findings.length).toList
  let errorsText : Line := (bullet ++ "Errors: " ++ shownCount colored findings .error).toList
  let warningsText : Line := (bullet ++ "Warnings: " ++ shownCount colored findings .warning).toList
  let infoText : Line := (bullet ++ "Info: " ++ shownCount colored findings .info).toList
  constructor
  · have hlines : linesOf report = (before ++ [heading.toList, totalText]) ++
        errorsText :: [warningsText, infoText, []] := by
      rw [h, List.append_assoc]
      rfl
    rw [if_neg hne]
    refine printedFigure?_of_lines hlines (figureOn?_of_label herrorsLine) ?_
    simp only [List.forall_mem_cons]
    refine ⟨figureOn?_of_other hwarningsLine ?_, figureOn?_of_other hinfoLine ?_,
      figureOn?_of_other hlastLine ?_, List.forall_mem_nil _⟩ <;>
    simp [List.append_assoc, List.prefix_append_right_inj, List.cons_prefix_cons]
  · have hlines : linesOf report = (before ++ [heading.toList, totalText, errorsText]) ++
        warningsText :: [infoText, []] := by
      rw [h, List.append_assoc]
      rfl
    rw [if_neg hne]
    refine printedFigure?_of_lines hlines (figureOn?_of_label hwarningsLine) ?_
    simp only [List.forall_mem_cons]
    refine ⟨figureOn?_of_other hinfoLine ?_, figureOn?_of_other hlastLine ?_,
      List.forall_mem_nil _⟩ <;>
    simp [List.append_assoc, List.prefix_append_right_inj, List.cons_prefix_cons]

/-- A figure is printed and it is not zero if some finding has the severity that it counts. -/
theorem exists_figure_iff {printed : Option Nat} (severity : Severity)
    (h : printed = if findings = [] then none
      else some ((Summary.ofFindings findings).severityCount severity.token)) :
    (∃ n, printed = some n ∧ n ≠ 0) ↔ ∃ finding ∈ findings, finding.severity = severity := by
  rw [← Summary.severityCount_pos_iff, h]
  by_cases hnone : findings = []
  · subst hnone
    cases severity <;> simp <;> decide
  · simp [if_neg hnone, Nat.pos_iff_ne_zero]

/-- Figures that are right stand against a run if the findings do. -/
theorem PrintsFigures.showsBlocking_iff (h : PrintsFigures bullet report findings)
    (failOnWarning : Bool) :
    ShowsBlocking bullet report failOnWarning ↔ HasBlocking findings failOnWarning :=
  or_congr (exists_figure_iff .error h.errors)
    (and_congr_right' (exists_figure_iff .warning h.warnings))

end Reports

/-- The report for readers ends in its figures. -/
theorem TextReport.summary_eq_figureLines (colored : Bool) (findings : List Finding) :
    summary colored findings = endedLines (figureLines "Summary:" "  " colored findings) := by
  have htotal :
      "Summary:\n  Total issues: " = "Summary:" ++ "\n" ++ ("  " ++ "Total issues: ") := by
    decide
  have herrors : "\n  Errors: " = "\n" ++ ("  " ++ "Errors: ") := by decide
  have hwarnings : "\n  Warnings: " = "\n" ++ ("  " ++ "Warnings: ") := by decide
  have hinfo : "\n  Info: " = "\n" ++ ("  " ++ "Info: ") := by decide
  have hnil : endedLines [] = "" := rfl
  unfold summary figureLines
  simp only [htotal, herrors, hwarnings, hinfo, hnil, endedLines_cons, String.append_assoc,
    String.append_empty]
  rfl

/-- The report as annotations ends in the same figures. -/
theorem Annotation.summaryLines_eq_figureLines (findings : List Finding) :
    summaryLines findings = figureLines "📊 Analysis Summary:" "- " false findings := by
  have htotal : "- Total issues: " = "- " ++ "Total issues: " := by decide
  have herrors : "- Errors: " = "- " ++ "Errors: " := by decide
  have hwarnings : "- Warnings: " = "- " ++ "Warnings: " := by decide
  have hinfo : "- Info: " = "- " ++ "Info: " := by decide
  unfold summaryLines figureLines
  rw [htotal, herrors, hwarnings, hinfo]
  rfl

theorem printsFigures_textReport (colored : Bool) (findings : List Finding) :
    PrintsFigures "  " (textReport colored findings) findings := by
  by_cases hnone : findings = []
  · subst hnone
    cases colored <;> constructor <;> decide
  · have hlines := textReport.eq_1 colored findings
    rw [if_neg (by simpa using hnone), TextReport.summary_eq_figureLines] at hlines
    have hread := congrArg linesOf hlines
    rw [linesOf_append, linesOf_figureLines (by decide) (by decide)] at hread
    exact printsFigures_of_lines hnone (by decide) hread

theorem printsFigures_annotationReport (findings : List Finding) :
    PrintsFigures "- " (annotationReport findings) findings := by
  by_cases hnone : findings = []
  · subst hnone
    constructor <;> decide
  · have hlines := annotationReport_eq hnone
    rw [endedLines_append, endedLines_cons, ← String.append_assoc, ← String.append_assoc,
      Annotation.summaryLines_eq_figureLines] at hlines
    have hread := congrArg linesOf hlines
    rw [linesOf_append, linesOf_figureLines (by decide) (by decide)] at hread
    exact printsFigures_of_lines hnone (by decide) hread

/-- **The summary is an exact tally that agrees with the exit status.** It counts the findings, all
of them and by each of its three tallies. The summary of two lists is that of the first with the
counts of the second added. A run fails just if the summary counts an error, or a warning where
warnings fail a run. This can be seen from the figures that either report prints for the findings,
with or without colours. -/
theorem summary_exact :
    (∀ findings, (Summary.ofFindings findings).Counts findings) ∧
    (∀ findings more : List Finding, Summary.ofFindings (findings ++ more) =
      (Summary.ofFindings findings).merge (Summary.ofFindings more)) ∧
    ∀ (findings : List Finding) (failOnWarning : Bool),
      ((ExitStatus.ofFindings findings failOnWarning).code = 1 ↔
        0 < (Summary.ofFindings findings).severityCount "error" ∨
          (failOnWarning = true ∧ 0 < (Summary.ofFindings findings).severityCount "warning")) ∧
      (∀ colored, PrintsFigures "  " (textReport colored findings) findings ∧
        ((ExitStatus.ofFindings findings failOnWarning).code = 1 ↔
          ShowsBlocking "  " (textReport colored findings) failOnWarning)) ∧
      PrintsFigures "- " (annotationReport findings) findings ∧
        ((ExitStatus.ofFindings findings failOnWarning).code = 1 ↔
          ShowsBlocking "- " (annotationReport findings) failOnWarning) := by
  refine ⟨Summary.counts_ofFindings, Summary.ofFindings_append, ?_⟩
  intro findings failOnWarning
  have hcode := ExitStatus.code_ofFindings_eq_one_iff findings failOnWarning
  have htext (colored : Bool) := printsFigures_textReport colored findings
  have hannotations := printsFigures_annotationReport findings
  have hcounted : HasBlocking findings failOnWarning ↔
      0 < (Summary.ofFindings findings).severityCount "error" ∨
        (failOnWarning = true ∧ 0 < (Summary.ofFindings findings).severityCount "warning") :=
    (or_congr (Summary.severityCount_pos_iff findings .error)
      (and_congr_right' (Summary.severityCount_pos_iff findings .warning))).symm
  refine ⟨hcode.trans hcounted, ?_, hannotations, ?_⟩
  · intro colored
    exact ⟨htext colored, hcode.trans ((htext colored).showsBlocking_iff failOnWarning).symm⟩
  · exact hcode.trans (hannotations.showsBlocking_iff failOnWarning).symm

end ScriptLint
