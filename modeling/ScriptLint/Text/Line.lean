import ScriptLint.Text.Character
import ScriptLint.Text.Cut

/-!
# Lines of a script

A script is a sequence of lines separated by line feeds. Nothing else ends a line, so a carriage
return stays in its line and counts towards its length. A line is blank, a comment, or code.
-/

namespace ScriptLint

/-- One line of a script, without its line feed. -/
abbrev Line := List Char

/-- The lines of a text. There is always at least one. -/
def linesOf (text : String) : List Line :=
  cutAt '\n' text.toList

namespace Line

def trimStart (line : Line) : Line :=
  line.dropWhile isBlank

def trimEnd (line : Line) : Line :=
  (line.reverse.dropWhile isBlank).reverse

/-- The line without the blanks around it. -/
def trim (line : Line) : Line :=
  trimEnd (trimStart line)

def isBlankLine (line : Line) : Bool :=
  (trim line).isEmpty

/-- A comment is a line whose first character after the indentation is a number sign. -/
def isComment (line : Line) : Bool :=
  (trim line).head? == some '#'

/-- Code is what is neither blank nor a comment. -/
def isCode (line : Line) : Bool :=
  !isBlankLine line && !isComment line

/-- The blanks a line starts with. -/
def indentation (line : Line) : List Char :=
  line.takeWhile isBlank

def width (line : Line) : Nat :=
  (indentation line).length

/-- How many characters of a line a finding quotes. -/
def snippetWidth : Nat := 50

/-- The quoted part of a line: its start, without the blanks around the line. -/
def snippet (line : Line) : String :=
  String.ofList ((trim line).take snippetWidth)

end Line

/-- Lines together with their numbers, counted from `first`. -/
def numbered (first : Nat) : List Line → List (Nat × Line)
  | [] => []
  | line :: rest => (first, line) :: numbered (first + 1) rest

end ScriptLint
