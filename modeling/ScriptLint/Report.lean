import ScriptLint.Report.Annotation
import ScriptLint.Report.Json
import ScriptLint.Text.Character

/-!
# Reports

A report is written in one of three formats. Colours concern only the one for readers.
-/

namespace ScriptLint

inductive ReportFormat where
  | text
  | json
  | github
  deriving DecidableEq, Repr

namespace ReportFormat

def name : ReportFormat → String
  | text => "text"
  | json => "json"
  | github => "github"

/-- The format with the given name, whatever the case of its letters. -/
def ofName? (name : String) : Option ReportFormat :=
  let lower := String.ofList (lowered name.toList)
  if lower = "text" then some .text
  else if lower = "json" then some .json
  else if lower = "github" then some .github
  else none

/-- What is said of a name that no format has. -/
def unknownMessage (name : String) : String :=
  "Unknown output format: " ++ name

end ReportFormat

/-- The report of findings in the given format. -/
def report (format : ReportFormat) (colored : Bool) (findings : List Finding) : String :=
  match format with
  | .text => textReport colored findings
  | .json => jsonReport findings
  | .github => annotationReport findings

end ScriptLint
