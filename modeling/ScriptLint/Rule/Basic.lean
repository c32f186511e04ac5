import ScriptLint.Finding
import ScriptLint.Text.Pattern

/-!
# Rules

A rule looks at all lines of a script and returns its hits in the order in which it discovers them.
It knows nothing of files: the path enters only when a hit becomes a finding.
-/

namespace ScriptLint

/-- What a rule reports about a line. -/
structure Hit where
  line : Nat
  message : String
  snippet : String
  deriving DecidableEq, Repr

/-- A check together with what a report says about it. -/
structure Rule where
  id : String
  name : String
  description : String
  severity : Severity
  category : Category
  scan : List Line → List Hit

namespace Rule

/-- The finding that a hit of the rule stands for in the given file. -/
def finding (rule : Rule) (path : String) (hit : Hit) : Finding where
  ruleId := rule.id
  ruleName := rule.name
  severity := rule.severity
  category := rule.category
  message := hit.message
  file := path
  line := hit.line
  column := none
  snippet := some hit.snippet

/-- The findings of the rule in a script. -/
def check (rule : Rule) (path : String) (text : String) : List Finding :=
  (rule.scan (linesOf text)).map (rule.finding path)

end Rule

/-- The hits of a test that looks at each line alone and leaves comments out. -/
def scanEachLine (test : Line → Bool) (message : String) (lines : List Line) : List Hit :=
  ((numbered 1 lines).filter fun entry => !entry.2.isComment && test entry.2).map fun entry =>
    { line := entry.1, message, snippet := entry.2.snippet }

end ScriptLint
