import ScriptLint.Rule.Scope

/-!
# Expensive work in the loops of a frame callback

Looking nodes up or creating them in a loop that runs every frame is slow. A loop header itself
belongs to the loops around it, not to its own body.
-/

namespace ScriptLint.FrameLoop

/-- Node lookups, wherever they stand. -/
def lookups : List Pattern :=
  [[.exactly "get_node", .gap, .exactly "("],
   [.exactly "$"],
   [.exactly "find_node", .gap, .exactly "("],
   [.exactly "get_tree", .gap, .exactly "("]]

/-- Creation of nodes, by a word of its own. -/
def creations : List Pattern :=
  [[.exactly "instance", .gap, .exactly "("],
   [.exactly "instantiate", .gap, .exactly "("]]

def isExpensive (line : Line) : Bool :=
  (lookups.any fun lookup => lookup.occursIn line) ||
    creations.any fun creation => creation.occursAtWordStart line

def hit (name : List Char) (entry : Nat × Line) : Hit where
  line := entry.1
  message := "Expensive operation in loop within " ++ String.ofList name ++
    "(). Cache results outside the loop"
  snippet := entry.2.snippet

/-- The hits among code lines, given the callback and the loops around the line before them. -/
def scanFrom (callback : Option (List Char)) (loops : LoopStack) :
    List (Nat × Line) → List Hit
  | [] => []
  | entry :: rest =>
      let callback := callbackAt callback entry.2
      let loops := loops.close entry.2.width
      let later := scanFrom callback (loops.enter entry.2) rest
      match callback with
      | none => later
      | some name =>
          if !loops.isEmpty && isExpensive entry.2 then hit name entry :: later else later

/-- Frame callbacks should not do expensive work in loops. -/
def rule : Rule where
  id := "P001"
  name := "Process in Loop"
  description := "Avoid expensive operations in loops within _process() or _physics_process()"
  severity := .warning
  category := .performance
  scan := fun lines => scanFrom none [] (codeLines lines)

end ScriptLint.FrameLoop
