import ScriptLint.Rule.Basic

/-!
# Mixed indentation

A script may be indented with tabs or with spaces. The first line at which both have been seen is
reported, and nothing after it.
-/

namespace ScriptLint.Indentation

/-- How many characters of the offending line are quoted. -/
def quoteWidth : Nat := 30

/-- The first line at which tabs and spaces have both been seen in an indentation; the flags tell
which of them stood in an earlier line. -/
def firstMixed (tabs spaces : Bool) : List (Nat × Line) → Option (Nat × Line)
  | [] => none
  | (number, line) :: rest =>
      let tabs := tabs || line.indentation.contains '\t'
      let spaces := spaces || line.indentation.contains ' '
      if tabs && spaces then some (number, line) else firstMixed tabs spaces rest

def scan (lines : List Line) : List Hit :=
  match firstMixed false false (numbered 1 lines) with
  | none => []
  | some (number, line) =>
      [{ line := number
         message := "Mixing tabs and spaces for indentation"
         snippet := String.ofList (line.take quoteWidth) }]

/-- Indentation should use tabs or spaces, not both. -/
def rule : Rule where
  id := "R004"
  name := "Inconsistent Indentation"
  description := "Indentation should be consistent (tabs or spaces, not mixed)"
  severity := .error
  category := .readability
  scan := scan

end ScriptLint.Indentation
