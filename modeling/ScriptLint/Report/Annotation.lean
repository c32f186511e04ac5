import ScriptLint.Report.Text

/-!
# The report as annotations

A continuous-integration service turns lines of a certain form into annotations of the source. In
such a line the characters that delimit its parts are written as percent escapes, so that no text
can pass for a delimiter.
-/

namespace ScriptLint

namespace Annotation

def level : Severity → String
  | .error => "error"
  | .warning => "warning"
  | .info => "notice"

/-- How a character is written in the message of an annotation. -/
def escapedInMessage (c : Char) : List Char :=
  match c with
  | '%' => "%25".toList
  | '\r' => "%0D".toList
  | '\n' => "%0A".toList
  | _ => [c]

/-- How a character is written in a property of an annotation. -/
def escapedInProperty (c : Char) : List Char :=
  match c with
  | ':' => "%3A".toList
  | ',' => "%2C".toList
  | _ => escapedInMessage c

def message (text : String) : String :=
  String.ofList (text.toList.flatMap escapedInMessage)

def property (text : String) : String :=
  String.ofList (text.toList.flatMap escapedInProperty)

def title (finding : Finding) : String :=
  "[" ++ finding.ruleId ++ "] " ++ finding.ruleName

/-- The annotation of a finding, on a line of its own. -/
def line (finding : Finding) : String :=
  "::" ++ level finding.severity ++ " file=" ++ property finding.file ++
    ",line=" ++ toString finding.line ++ ",title=" ++ property (title finding) ++
    "::" ++ message finding.message ++ "\n"

def summary (findings : List Finding) : String :=
  let summary := Summary.ofFindings findings
  let count (severity : Severity) : String := toString (summary.severityCount severity.token)
  "\n📊 Analysis Summary:\n- Total issues: " ++ toString summary.total ++
    "\n- Errors: " ++ count .error ++
    "\n- Warnings: " ++ count .warning ++
    "\n- Info: " ++ count .info ++ "\n"

end Annotation

/-- The report as annotations. -/
def annotationReport (findings : List Finding) : String :=
  if findings.isEmpty then "✓" ++ noIssues
  else String.join (findings.map Annotation.line) ++ Annotation.summary findings

end ScriptLint
