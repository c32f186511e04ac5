import ScriptLint.Finding

/-!
# Summaries

A summary counts findings by severity, by category and by file. Each tally lists what it counts in
the order of first appearance.
-/

namespace ScriptLint

/-- How often each of several names occurs. -/
abbrev Tally := List (String × Nat)

namespace Tally

/-- Counts one more occurrence of a name. A new name goes to the end. -/
def add (tally : Tally) (name : String) : Tally :=
  match tally with
  | [] => [(name, 1)]
  | entry :: rest =>
      if entry.1 = name then (name, entry.2 + 1) :: rest else entry :: add rest name

def ofNames (names : List String) : Tally :=
  names.foldl add []

/-- How often a name occurs. -/
def count (tally : Tally) (name : String) : Nat :=
  (List.lookup name tally).getD 0

end Tally

structure Summary where
  total : Nat
  bySeverity : Tally
  byCategory : Tally
  byFile : Tally
  deriving DecidableEq, Repr

namespace Summary

def ofFindings (findings : List Finding) : Summary where
  total := findings.length
  bySeverity := Tally.ofNames (findings.map fun finding => finding.severity.token)
  byCategory := Tally.ofNames (findings.map fun finding => finding.category.token)
  byFile := Tally.ofNames (findings.map Finding.file)

/-- How many findings have the severity with the given token. -/
def severityCount (summary : Summary) (token : String) : Nat :=
  summary.bySeverity.count token

end Summary

end ScriptLint
