import ScriptLint.Rule.LineLength
import ScriptLint.Rule.Documentation
import ScriptLint.Rule.Indentation
import ScriptLint.Rule.Password
import ScriptLint.Rule.Evaluation
import ScriptLint.Rule.Query
import ScriptLint.Rule.Randomness
import ScriptLint.Rule.FrameLoop
import ScriptLint.Rule.Concatenation
import ScriptLint.Rule.Subscription
import ScriptLint.Rule.NodeLookup

/-!
# The catalogue of rules

All rules in the order in which they are applied and reported.
-/

namespace ScriptLint

/-- Every rule, with the given limit on the length of a line. -/
def catalog (maxLineLength : Nat) : List Rule :=
  [LineLength.rule maxLineLength, Documentation.classRule, Documentation.functionRule,
   Indentation.rule, Password.rule, Evaluation.rule, Query.rule, Randomness.rule,
   FrameLoop.rule, Concatenation.rule, Subscription.rule, NodeLookup.rule]

end ScriptLint
