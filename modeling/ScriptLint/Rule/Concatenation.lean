import ScriptLint.Rule.Scope

/-!
# Strings that grow in a loop

Adding a string literal to a variable in a loop copies the string each time around. A function
declaration ends all loops before it, however it is indented.
-/

namespace ScriptLint.Concatenation

/-- A word, the operator that adds to it, and a quotation mark. -/
def addition : Pattern :=
  [.one isWord, .gap, .exactly "+=", .gap, .one isQuote]

def hit (entry : Nat × Line) : Hit where
  line := entry.1
  message :=
    "String concatenation in loop detected. Use Array and join() for better performance"
  snippet := entry.2.snippet

/-- The loops around a line, given those open after the line before it. -/
def loopsAt (before : LoopStack) (line : Line) : LoopStack :=
  if (declaredFunction? line.trim).isSome then [] else before.close line.width

/-- The hits among code lines, given the loops open before them. -/
def scanFrom (loops : LoopStack) : List (Nat × Line) → List Hit
  | [] => []
  | entry :: rest =>
      let loops := loopsAt loops entry.2
      let later := scanFrom (loops.enter entry.2) rest
      if !loops.isEmpty && addition.occursIn entry.2 then hit entry :: later else later

/-- Strings should not be put together in a loop. -/
def rule : Rule where
  id := "P002"
  name := "String Concatenation in Loop"
  description :=
    "Avoid string concatenation in loops. Use Array.join() or PackedStringArray instead"
  severity := .warning
  category := .performance
  scan := fun lines => scanFrom [] (codeLines lines)

end ScriptLint.Concatenation
