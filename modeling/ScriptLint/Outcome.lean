import ScriptLint.FileSystem.Basic
import ScriptLint.Notice

/-!
# Outcomes

What a run leaves behind: an exit status, the text it prints, the notices it gives, and the file
system.
-/

namespace ScriptLint

inductive ExitStatus where
  /-- Nothing stands in the way. -/
  | clean
  /-- There are findings that fail the run. -/
  | blocked
  /-- The run could not do its work. -/
  | faulty
  deriving DecidableEq, Repr

namespace ExitStatus

def code : ExitStatus → Nat
  | clean => 0
  | blocked => 1
  | faulty => 2

/-- The status for findings. Errors fail a run, and warnings do so on demand. -/
def ofFindings (findings : List Finding) (failOnWarning : Bool) : ExitStatus :=
  if (findings.any fun finding => finding.severity == .error) ||
      (failOnWarning && findings.any fun finding => finding.severity == .warning) then .blocked
  else .clean

end ExitStatus

structure Outcome where
  status : ExitStatus
  output : String := ""
  notices : List Notice := []
  files : FileSystem

namespace Outcome

/-- A run that ends by a fault. It prints nothing. -/
def failed (files : FileSystem) (notices : List Notice) (fault : Fault) : Outcome where
  status := .faulty
  notices := notices ++ [.failure fault]
  files := files

/-- A run that does its work and prints a text. -/
def printed (files : FileSystem) (notices : List Notice) (output : String) : Outcome where
  status := .clean
  output := output
  notices := notices
  files := files

/-- The notices as they are shown. -/
def noticeText (outcome : Outcome) (colored : Bool) : String :=
  String.join (outcome.notices.map (Notice.render colored))

end Outcome

end ScriptLint
