import ScriptLint.Fault
import ScriptLint.Report.Color

/-!
# Notices

Beside its report a run tells the user what went wrong and, if asked, what it did. A notice is a
heading and a message, and sometimes a detail and a suggestion, each on a line of its own.
-/

namespace ScriptLint

inductive Heading where
  | error (kind : String)
  | warning
  | info
  deriving DecidableEq, Repr

namespace Heading

def text : Heading → String
  | error kind => "✖ " ++ kind ++ ":"
  | warning => "⚠ Warning:"
  | info => "ℹ"

def color : Heading → Ansi
  | error _ => .red
  | warning => .yellow
  | info => .cyan

end Heading

/-- The parts of a notice as they are shown. -/
structure NoticeText where
  heading : Heading
  message : String
  detail : Option String := none
  suggestion : Option String := none
  deriving DecidableEq, Repr

namespace NoticeText

def headingLine (colored : Bool) (notice : NoticeText) : String :=
  (if colored then
    Ansi.bold.code ++ notice.heading.color.code ++ notice.heading.text ++ Ansi.reset.code
  else notice.heading.text) ++ " " ++ notice.message ++ "\n"

def detailLine (colored : Bool) (detail : String) : String :=
  "  " ++ paint colored .dim ("× " ++ detail) ++ "\n"

def suggestionLine (colored : Bool) (suggestion : String) : String :=
  "  " ++ paint colored .cyan "help:" ++ " " ++ suggestion ++ "\n"

def render (colored : Bool) (notice : NoticeText) : String :=
  headingLine colored notice ++
    (notice.detail.map (detailLine colored)).getD "" ++
    (notice.suggestion.map (suggestionLine colored)).getD ""

end NoticeText

/-- What a run tells the user beside its report. -/
inductive Notice where
  /-- A fault that ends the run. -/
  | failure (fault : Fault)
  /-- A fault that the run recovers from. -/
  | setback (fault : Fault)
  | warning (message : String) (suggestion : Option String)
  | info (message : String)
  deriving DecidableEq, Repr

namespace Notice

def toText : Notice → NoticeText
  | failure fault =>
      { heading := .error fault.kind, message := fault.message, detail := fault.detail?
        suggestion := fault.suggestion? }
  | setback fault =>
      { heading := .warning, message := fault.message, detail := fault.detail?
        suggestion := fault.suggestion? }
  | warning message suggestion => { heading := .warning, message, suggestion }
  | info message => { heading := .info, message }

def render (colored : Bool) (notice : Notice) : String :=
  notice.toText.render colored

end Notice

end ScriptLint
