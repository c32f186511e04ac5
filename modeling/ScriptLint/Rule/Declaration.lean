import ScriptLint.Text.Pattern

/-!
# Declarations

A declaration is a keyword, blanks and a name. A function declaration goes on with an opening
parenthesis, which blanks may separate from the name. The name is the whole run of word characters
after the keyword.
-/

namespace ScriptLint

/-- The name that follows a keyword at the start of a text, and the text after the name. -/
def nameAfter (keyword : String) (text : List Char) : Option (List Char × List Char) :=
  match Pattern.strip [.letters keyword, .space] text with
  | none => none
  | some rest =>
      if (rest.takeWhile isWord).isEmpty then none
      else some (rest.takeWhile isWord, rest.dropWhile isWord)

/-- The class that a text starts to declare. -/
def declaredClass? (text : List Char) : Option (List Char) :=
  (nameAfter "class" text).map Prod.fst

/-- The function that a text starts to declare. -/
def declaredFunction? (text : List Char) : Option (List Char) :=
  (nameAfter "func" text).bind fun found =>
    if Pattern.startsOn [.gap, .exactly "("] found.2 then some found.1 else none

/-- A loop header starts with one of the two loop keywords and a blank. -/
def isLoopHeader (text : List Char) : Bool :=
  Pattern.startsOn [.letters "for", .space] text ||
    Pattern.startsOn [.letters "while", .space] text

end ScriptLint
