import ScriptLint.Proofs.Json.RoundTrip
import ScriptLint.Proofs.Tallies
import ScriptLint.Report.Json

/-!
# The report for programs read back

The report for programs is a JSON document. A program that reads it looks members up by their names
and gets back every finding with all its parts, in the order in which they were reported, and the
summary with its three tallies. What is absent in a finding stands there as null, and a tally is an
object whose members are in the order of first appearance.
-/

namespace ScriptLint

/-- The severity with the given token. -/
def Severity.ofToken? (token : String) : Option Severity :=
  [error, warning, info].find? fun severity => severity.token == token

theorem Severity.ofToken?_token (severity : Severity) :
    ofToken? severity.token = some severity := by
  cases severity <;> decide

/-- The category with the given token. -/
def Category.ofToken? (token : String) : Option Category :=
  [readability, security, performance, maintainability, bestPractices].find? fun category =>
    category.token == token

theorem Category.ofToken?_token (category : Category) :
    ofToken? category.token = some category := by
  cases category <;> decide

namespace JsonReport

/-! ## A reader of reports -/

section

variable {α : Type}

def text? : Json → Option String
  | .string text => text
  | _ => none

def natural? : Json → Option Nat
  | .natural value => some value
  | _ => none

/-- What is read from a value, or nothing from null. -/
def optional? (read : Json → Option α) : Json → Option (Option α)
  | .null => some none
  | json => (read json).map some

def items? (read : Json → Option α) : Json → Option (List α)
  | .array items => items.mapM read
  | _ => none

/-- What is read from the one member with the given name. -/
def member? (name : String) (read : Json → Option α) : Json → Option α
  | .object members =>
      match members.filter fun member => member.1 == some name with
      | [member] => read member.2
      | _ => none
  | _ => none

end

/-- A tally, member by member in the order in which they stand. -/
def tally? : Json → Option Tally
  | .object members => members.mapM fun member => do return (← member.1, ← natural? member.2)
  | _ => none

def finding? (json : Json) : Option Finding := do
  return {
    ruleId := ← member? "rule_id" text? json
    ruleName := ← member? "rule_name" text? json
    severity := ← (member? "severity" text? json).bind Severity.ofToken?
    category := ← (member? "category" text? json).bind Category.ofToken?
    message := ← member? "message" text? json
    file := ← member? "file" text? json
    line := ← member? "line" natural? json
    column := ← member? "column" (optional? natural?) json
    snippet := ← member? "code_snippet" (optional? text?) json }

def summary? (json : Json) : Option Summary := do
  return {
    total := ← member? "total" natural? json
    bySeverity := ← member? "by_severity" tally? json
    byCategory := ← member? "by_category" tally? json
    byFile := ← member? "by_file" tally? json }

/-- The findings and the summary that a report holds. -/
def report? (json : Json) : Option (List Finding × Summary) := do
  return (← member? "violations" (items? finding?) json, ← member? "summary" summary? json)

/-! ## Parts read back -/

theorem text?_text (text : String) : text? (Json.text text) = some text := rfl

theorem natural?_natural (value : Nat) : natural? (.natural value) = some value := rfl

theorem optional?_text (text : Option String) :
    optional? text? (Json.ofOption Json.text text) = some text := by
  cases text <;> rfl

theorem optional?_natural (value : Option Nat) :
    optional? natural? (Json.ofOption .natural value) = some value := by
  cases value <;> rfl

theorem tally?_ofTally (tally : Tally) : tally? (ofTally tally) = some tally := by
  rw [ofTally, tally?]
  apply Json.mapM_map_of_readBack
  intro entry
  rfl

theorem finding?_ofFinding (finding : Finding) : finding? (ofFinding finding) = some finding := by
  simp [finding?, ofFinding, member?, Json.member, text?_text, natural?_natural, optional?_text,
    optional?_natural, Severity.ofToken?_token, Category.ofToken?_token]

theorem summary?_ofSummary (summary : Summary) : summary? (ofSummary summary) = some summary := by
  simp [summary?, ofSummary, member?, Json.member, natural?_natural, tally?_ofTally]

theorem report?_document (findings : List Finding) :
    report? (document findings) = some (findings, Summary.ofFindings findings) := by
  simp [report?, document, member?, Json.member, items?,
    Json.mapM_map_of_readBack finding?_ofFinding, summary?_ofSummary]

/-! ## Reports are plain documents -/

theorem plain_ofOption {α : Type} {encode : α → Json} (h : ∀ value, (encode value).Plain)
    (value : Option α) : (Json.ofOption encode value).Plain := by
  cases value with
  | none => exact .null
  | some value => exact h value

theorem plain_text (text : String) : (Json.text text).Plain :=
  .string (some text)

theorem plain_ofFinding (finding : Finding) : (ofFinding finding).Plain := by
  apply Json.Plain.object
  simp only [Json.member, List.forall_mem_cons]
  exact ⟨plain_text _, plain_text _, plain_text _, plain_text _, plain_text _, plain_text _,
    .natural _, plain_ofOption .natural _, plain_ofOption plain_text _, List.forall_mem_nil _⟩

theorem plain_ofTally (tally : Tally) : (ofTally tally).Plain := by
  apply Json.Plain.object
  intro member hmember
  obtain ⟨entry, -, rfl⟩ := List.mem_map.mp hmember
  exact .natural entry.2

theorem plain_ofSummary (summary : Summary) : (ofSummary summary).Plain := by
  apply Json.Plain.object
  simp only [Json.member, List.forall_mem_cons]
  exact ⟨.natural _, plain_ofTally _, plain_ofTally _, plain_ofTally _, List.forall_mem_nil _⟩

theorem plain_document (findings : List Finding) : (document findings).Plain := by
  apply Json.Plain.object
  simp only [Json.member, List.forall_mem_cons]
  refine ⟨.array ?_, plain_ofSummary _, List.forall_mem_nil _⟩
  intro item hitem
  obtain ⟨finding, -, rfl⟩ := List.mem_map.mp hitem
  exact plain_ofFinding finding

theorem parse?_jsonReport (findings : List Finding) :
    Json.parse? (jsonReport findings) = some (document findings) := by
  have hread := Json.parse?_pretty (plain_document findings) (List.forall_mem_nil _)
  rwa [List.append_nil] at hread

end JsonReport

/-- **The report for programs is read back.** It is one JSON document, from which every finding
comes back with all its parts, in order, and the summary with its tallies. Each tally lists what it
counts once, in the order of first appearance, with the number of findings. -/
theorem jsonReport_readBack (findings : List Finding) :
    let summary := Summary.ofFindings findings
    (∃ document, Json.parse? (jsonReport findings) = some document ∧
      JsonReport.report? document = some (findings, summary)) ∧
    summary.total = findings.length ∧
    summary.bySeverity.Tallies (findings.map fun finding => finding.severity.token) ∧
    summary.byCategory.Tallies (findings.map fun finding => finding.category.token) ∧
    summary.byFile.Tallies (findings.map Finding.file) := by
  refine ⟨⟨_, JsonReport.parse?_jsonReport findings, JsonReport.report?_document findings⟩, rfl,
    ?_, ?_, ?_⟩
  · exact Tally.tallies_ofNames _
  · exact Tally.tallies_ofNames _
  · exact Tally.tallies_ofNames _

end ScriptLint
