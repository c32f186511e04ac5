import ScriptLint.Json.Printer
import ScriptLint.Summary

/-!
# The report for programs

One JSON document holds all findings in their order and the summary.
-/

namespace ScriptLint

namespace JsonReport

def ofFinding (finding : Finding) : Json :=
  .object
    [Json.member "rule_id" (Json.text finding.ruleId),
     Json.member "rule_name" (Json.text finding.ruleName),
     Json.member "severity" (Json.text finding.severity.token),
     Json.member "category" (Json.text finding.category.token),
     Json.member "message" (Json.text finding.message),
     Json.member "file" (Json.text finding.file),
     Json.member "line" (.natural finding.line),
     Json.member "column" (Json.ofOption .natural finding.column),
     Json.member "code_snippet" (Json.ofOption Json.text finding.snippet)]

def ofTally (tally : Tally) : Json :=
  .object (tally.map fun entry => Json.member entry.1 (.natural entry.2))

def ofSummary (summary : Summary) : Json :=
  .object
    [Json.member "total" (.natural summary.total),
     Json.member "by_severity" (ofTally summary.bySeverity),
     Json.member "by_category" (ofTally summary.byCategory),
     Json.member "by_file" (ofTally summary.byFile)]

def document (findings : List Finding) : Json :=
  .object
    [Json.member "violations" (.array (findings.map ofFinding)),
     Json.member "summary" (ofSummary (Summary.ofFindings findings))]

end JsonReport

/-- The report for programs. -/
def jsonReport (findings : List Finding) : String :=
  (JsonReport.document findings).render

end ScriptLint
