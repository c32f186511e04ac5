import ScriptLint.Rule.Scope

/-!
# Node lookups in a frame callback

A node that is looked up every frame should be looked up once. The shorthand lookup does not count
on a line that deals with events.
-/

namespace ScriptLint.NodeLookup

/-- What may follow the dollar sign of a shorthand lookup. -/
def isShorthandStart (c : Char) : Bool :=
  isWord c || c == '\x22' || c == '%'

def looksUpNode (line : Line) : Bool :=
  containsText "get_node(" line ||
    (Pattern.occursIn [.exactly "$", .one isShorthandStart] line &&
      !containsText "event" (lowered line))

def hit (name : List Char) (entry : Nat × Line) : Hit where
  line := entry.1
  message := "get_node() or $ called in " ++ String.ofList name ++
    "(). Cache the reference in _ready() for better performance"
  snippet := entry.2.snippet

/-- The hits among code lines, given the callback around the line before them. -/
def scanFrom (callback : Option (List Char)) : List (Nat × Line) → List Hit
  | [] => []
  | entry :: rest =>
      let callback := callbackAt callback entry.2
      let later := scanFrom callback rest
      match callback with
      | none => later
      | some name => if looksUpNode entry.2 then hit name entry :: later else later

/-- Frame callbacks should use cached nodes. -/
def rule : Rule where
  id := "P004"
  name := "Get Node in Process"
  description :=
    "Cache node references in _ready() instead of calling get_node() in _process()"
  severity := .warning
  category := .performance
  scan := fun lines => scanFrom none (codeLines lines)

end ScriptLint.NodeLookup
