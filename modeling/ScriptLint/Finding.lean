/-!
# Findings

A finding is one complaint of one rule about one line of one file. It repeats what identifies the
rule, so that a report can be written from findings alone.
-/

namespace ScriptLint

/-- How bad a finding is. Only errors fail a run by themselves. -/
inductive Severity where
  | error
  | warning
  | info
  deriving DecidableEq, Repr

namespace Severity

def token : Severity → String
  | error => "error"
  | warning => "warning"
  | info => "info"

end Severity

/-- What a rule watches over. -/
inductive Category where
  | readability
  | security
  | performance
  | maintainability
  | bestPractices
  deriving DecidableEq, Repr

namespace Category

def token : Category → String
  | readability => "readability"
  | security => "security"
  | performance => "performance"
  | maintainability => "maintainability"
  | bestPractices => "best_practices"

end Category

/-- One complaint about one line. Lines count from one. -/
structure Finding where
  ruleId : String
  ruleName : String
  severity : Severity
  category : Category
  message : String
  file : String
  line : Nat
  column : Option Nat
  snippet : Option String
  deriving DecidableEq, Repr

end ScriptLint
