/-!
# Texts of a given width

Columns of a listing have a minimal width. A longer text keeps its length.
-/

namespace ScriptLint

def spaces (count : Nat) : String :=
  String.ofList (List.replicate count ' ')

/-- Fills a text up with blanks on its right. -/
def padEnd (width : Nat) (text : String) : String :=
  text ++ spaces (width - text.length)

/-- Fills a text up with blanks on its left. -/
def padStart (width : Nat) (text : String) : String :=
  spaces (width - text.length) ++ text

/-- Fills a text up with blanks on both sides; an odd one goes to the right. -/
def centred (width : Nat) (text : String) : String :=
  let missing := width - text.length
  spaces (missing / 2) ++ text ++ spaces (missing - missing / 2)

/-- The first characters of a text. -/
def truncated (width : Nat) (text : String) : String :=
  String.ofList (text.toList.take width)

end ScriptLint
