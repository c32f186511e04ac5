import ScriptLint.Rule.Basic
import ScriptLint.Rule.Declaration

/-!
# Functions and loops around a line

Some rules depend on where a line stands. Only code lines count. The function around a line is the
last one declared at or before it. A loop around a line is open from its header on until a line is
indented no deeper than the header; the widths of the open headers form a stack, innermost first.
-/

namespace ScriptLint

/-- The code lines of a script with their numbers. -/
def codeLines (lines : List Line) : List (Nat × Line) :=
  (numbered 1 lines).filter fun entry => entry.2.isCode

/-- The functions that the engine calls once a frame. -/
def frameCallbacks : List String :=
  ["_process", "_physics_process"]

def isFrameCallback (name : List Char) : Bool :=
  frameCallbacks.any fun callback => sameName callback (String.ofList name)

/-- The frame callback around a line, given the one around the line before it. -/
def callbackAt (before : Option (List Char)) (line : Line) : Option (List Char) :=
  match declaredFunction? line.trim with
  | some name => if isFrameCallback name then some name else none
  | none => before

/-- The indentation widths of the open loop headers, innermost first. -/
abbrev LoopStack := List Nat

namespace LoopStack

/-- Closes every loop on top whose header is indented at least `width` deep. -/
def close (width : Nat) (loops : LoopStack) : LoopStack :=
  loops.dropWhile fun header => width ≤ header

/-- Opens the loop of the line, if the line is a header. -/
def enter (line : Line) (loops : LoopStack) : LoopStack :=
  if isLoopHeader line.trim then line.width :: loops else loops

end LoopStack

end ScriptLint
