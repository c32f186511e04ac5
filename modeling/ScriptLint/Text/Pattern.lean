import ScriptLint.Text.Line

/-!
# Patterns

A pattern is a sequence of pieces, each of which takes a fixed part off the front of a text. Runs of
blanks are taken as long as they go and no piece that follows one can start with a blank, so a
pattern takes off at most one part and there is nothing to try twice.
-/

namespace ScriptLint

/-- What a pattern can ask for next. -/
inductive Piece where
  /-- A word, whatever the case of its letters. It is given in lowercase. -/
  | letters (word : String)
  /-- A text, letter for letter. -/
  | exactly (text : String)
  /-- Any one character of the class. -/
  | one (allowed : Char → Bool)
  /-- All blanks that follow, possibly none. -/
  | gap
  /-- All blanks that follow, at least one. -/
  | space

/-- A sequence of pieces. -/
abbrev Pattern := List Piece

/-- Takes a word off the front of a text, comparing characters by `same`. -/
def stripWord (same : Char → Char → Bool) : List Char → List Char → Option (List Char)
  | [], text => some text
  | _ :: _, [] => none
  | w :: ws, c :: cs => if same w c then stripWord same ws cs else none

namespace Piece

/-- What remains of a text that starts with the piece. -/
def strip : Piece → List Char → Option (List Char)
  | letters word, text => stripWord (fun w c => w == foldCase c) word.toList text
  | exactly wanted, text => stripWord (· == ·) wanted.toList text
  | one allowed, c :: rest => if allowed c then some rest else none
  | one _, [] => none
  | gap, text => some (text.dropWhile isBlank)
  | space, c :: rest => if isBlank c then some (rest.dropWhile isBlank) else none
  | space, [] => none

end Piece

namespace Pattern

/-- What remains of a text that starts with the pattern. -/
def strip : Pattern → List Char → Option (List Char)
  | [], text => some text
  | piece :: rest, text => (piece.strip text).bind (strip rest)

def startsOn (pattern : Pattern) (text : List Char) : Bool :=
  (strip pattern text).isSome

end Pattern

/-- Whether some suffix of a text, the empty one included, passes the test. -/
def anySuffix (test : List Char → Bool) : List Char → Bool
  | [] => test []
  | c :: rest => test (c :: rest) || anySuffix test rest

/-- What a search finds at the leftmost suffix where it finds anything. -/
def firstSuffix? {α : Type} (find : List Char → Option α) : List Char → Option α
  | [] => find []
  | c :: rest =>
      match find (c :: rest) with
      | some found => some found
      | none => firstSuffix? find rest

namespace Pattern

/-- Whether a text contains the pattern. -/
def occursIn (pattern : Pattern) (text : List Char) : Bool :=
  anySuffix (startsOn pattern) text

/-- Whether a text contains the pattern at a place where no word character stands before it;
`inWord` tells whether one stands before the text itself. -/
def occursFrom (pattern : Pattern) (inWord : Bool) : List Char → Bool
  | [] => !inWord && startsOn pattern []
  | c :: rest =>
      (!inWord && startsOn pattern (c :: rest)) || occursFrom pattern (isWord c) rest

/-- Whether a text contains the pattern at the start of a word. -/
def occursAtWordStart (pattern : Pattern) (text : List Char) : Bool :=
  occursFrom pattern false text

end Pattern

/-- Whether a text contains a word, letter for letter. -/
def containsText (word : String) (text : List Char) : Bool :=
  Pattern.occursIn [.exactly word] text

end ScriptLint
