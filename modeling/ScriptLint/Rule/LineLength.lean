import ScriptLint.Rule.Basic

/-!
# Long lines

Comment lines may be of any length, since they often hold addresses that cannot be broken.
-/

namespace ScriptLint.LineLength

/-- A long line is quoted with its indentation, and an ellipsis marks what is cut off. -/
def quote (line : Line) : String :=
  if line.length > Line.snippetWidth then
    String.ofList (line.take Line.snippetWidth) ++ "..."
  else
    String.ofList line

def scan (limit : Nat) (lines : List Line) : List Hit :=
  ((numbered 1 lines).filter fun entry =>
    !entry.2.isComment && limit < entry.2.length).map fun entry =>
      { line := entry.1
        message := s!"Line exceeds {limit} characters (found {entry.2.length})"
        snippet := quote entry.2 }

/-- Lines should not be longer than the limit. -/
def rule (limit : Nat) : Rule where
  id := "R001"
  name := "Line Too Long"
  description := s!"Lines should not exceed {limit} characters"
  severity := .warning
  category := .readability
  scan := scan limit

end ScriptLint.LineLength
