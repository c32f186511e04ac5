import ScriptLint.Path
import ScriptLint.Report.Color
import ScriptLint.Summary
import ScriptLint.Text.Order

/-!
# The report for readers

Findings are grouped by file, the files in the order of their paths and the findings of a file in
the order of their lines. Paths that mean the same belong to one group, which is titled as the
first of them is spelled. A summary ends the report.
-/

namespace ScriptLint

/-- What is said when there is nothing to report. -/
def noIssues : String := " No issues found!\n"

namespace TextReport

def icon : Severity → String
  | .error => "✗"
  | .warning => "⚠"
  | .info => "ℹ"

def color : Severity → Ansi
  | .error => .red
  | .warning => .yellow
  | .info => .blue

/-- The first of every class of paths that mean the same. -/
def firstSpellings (known : List (List (List Char))) : List String → List String
  | [] => []
  | path :: rest =>
      if known.contains (Path.key path) then firstSpellings known rest
      else path :: firstSpellings (Path.key path :: known) rest

/-- The findings of each file under its title. -/
def groups (findings : List Finding) : List (String × List Finding) :=
  let titles := (firstSpellings [] (findings.map Finding.file)).mergeSort fun a b =>
    textsLe (Path.key a) (Path.key b)
  titles.map fun title =>
    (title,
      (findings.filter fun finding => Path.key finding.file == Path.key title).mergeSort
        fun a b => decide (a.line ≤ b.line))

def entry (colored : Bool) (finding : Finding) : String :=
  "  " ++ paint colored (color finding.severity) (icon finding.severity) ++ " Line " ++
    toString finding.line ++ ": [" ++ paint colored .cyan finding.ruleId ++ "] " ++
    finding.message ++ "\n    Category: " ++ finding.category.token ++ "\n"

def group (colored : Bool) (title : String) (findings : List Finding) : String :=
  "\n" ++ paint colored .bold (title ++ ":") ++ "\n" ++
    String.join (findings.map (entry colored))

def summary (colored : Bool) (findings : List Finding) : String :=
  let summary := Summary.ofFindings findings
  let count (severity : Severity) : String :=
    paint colored (color severity) (toString (summary.severityCount severity.token))
  "Summary:\n  Total issues: " ++ toString summary.total ++
    "\n  Errors: " ++ count .error ++
    "\n  Warnings: " ++ count .warning ++
    "\n  Info: " ++ count .info ++ "\n"

end TextReport

/-- The report for readers. -/
def textReport (colored : Bool) (findings : List Finding) : String :=
  if findings.isEmpty then paint colored .green "✓" ++ noIssues
  else
    "Found " ++ toString findings.length ++ " issue(s):\n" ++
      String.join ((TextReport.groups findings).map fun entry =>
        TextReport.group colored entry.1 entry.2) ++
      "\n" ++ TextReport.summary colored findings

end ScriptLint
