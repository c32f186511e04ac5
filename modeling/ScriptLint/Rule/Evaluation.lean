import ScriptLint.Rule.Basic

/-!
# Evaluation of text as code

Parsing an expression or executing one at run time is dangerous when the text comes from outside.
-/

namespace ScriptLint.Evaluation

def calls : List Pattern :=
  [[.letters "expression.parse", .gap, .exactly "("],
   [.letters ".execute", .gap, .exactly "("]]

def evaluates (line : Line) : Bool :=
  calls.any fun call => call.occursIn line

/-- Text from outside should not be evaluated. -/
def rule : Rule where
  id := "S002"
  name := "Unsafe Eval/Execute"
  description := "Avoid using Expression.parse() or execute() with untrusted input"
  severity := .warning
  category := .security
  scan := scanEachLine evaluates
    "Potentially unsafe use of Expression.parse() or execute(). Ensure input is sanitized"

end ScriptLint.Evaluation
