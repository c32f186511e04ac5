/-!
# Coloured output

Colours are switched on and off by escape sequences around a text. Without colours a text stays as
it is.
-/

namespace ScriptLint

/-- When output is coloured. -/
inductive ColorMode where
  /-- On a terminal only. -/
  | auto
  | always
  | never
  deriving DecidableEq, Repr

namespace ColorMode

/-- Whether output is coloured, given whether it goes to a terminal that wants colours. -/
def isColored (onTerminal : Bool) : ColorMode → Bool
  | auto => onTerminal
  | always => true
  | never => false

end ColorMode

/-- The escape sequences in use. -/
inductive Ansi where
  | red
  | green
  | yellow
  | blue
  | cyan
  | bold
  | dim
  | reset
  deriving DecidableEq, Repr

namespace Ansi

def code : Ansi → String
  | red => "\x1b[31m"
  | green => "\x1b[32m"
  | yellow => "\x1b[33m"
  | blue => "\x1b[34m"
  | cyan => "\x1b[36m"
  | bold => "\x1b[1m"
  | dim => "\x1b[2m"
  | reset => "\x1b[0m"

end Ansi

/-- A text in the given colour. -/
def paint (colored : Bool) (color : Ansi) (text : String) : String :=
  if colored then color.code ++ text ++ Ansi.reset.code else text

theorem paint_false (color : Ansi) (text : String) : paint false color text = text := rfl

end ScriptLint
