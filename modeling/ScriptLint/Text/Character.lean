import ScriptLint.Text.WordTable

/-!
# Character classes

Scripts are read character by character, and three questions come up again and again: does a
character separate words, does it belong to a word, and which letter is it when case is ignored.
Blank and word characters are disjoint classes, which is what makes every pattern of this library
match in at most one way.
-/

namespace ScriptLint

/-- The characters that separate or indent words. -/
def blanks : List Char :=
  ['\t', '\n', '\x0b', '\x0c', '\r', ' ', '\u0085', '\u00a0', '\u1680', '\u2000', '\u2001',
   '\u2002', '\u2003', '\u2004', '\u2005', '\u2006', '\u2007', '\u2008', '\u2009', '\u200a',
   '\u2028', '\u2029', '\u202f', '\u205f', '\u3000']

def isBlank (c : Char) : Bool :=
  blanks.contains c

/-- The characters that may stand in an identifier. -/
def isWord (c : Char) : Bool :=
  if c.toNat < 128 then
    c.isAlphanum || c == '_'
  else
    wordRanges.any fun range => range.1 ≤ c.toNat && c.toNat ≤ range.2

/-- Either kind of quotation mark opens and closes a string literal. -/
def isQuote (c : Char) : Bool :=
  c == '\x22' || c == '\x27'

/-- The lowercase ASCII letter a character stands for when case is ignored. Beyond ASCII only the
long s and the kelvin sign stand for one; every other character stands for itself. -/
def foldCase (c : Char) : Char :=
  if c = '\u017f' then 's' else if c = '\u212a' then 'k' else c.toLower

/-- The lowercase form of a character, as far as an ASCII word can tell it from another. Beyond
ASCII only the kelvin sign and the dotted capital I have a lowercase form that holds an ASCII
letter, so every other character may stand for itself. -/
def lowerForm (c : Char) : List Char :=
  if c = '\u212a' then ['k'] else if c = '\u0130' then ['i', '\u0307'] else [c.toLower]

/-- A text with every character in its lowercase form. -/
def lowered (text : List Char) : List Char :=
  text.flatMap lowerForm

/-- Two names agree when they differ at most in the case of ASCII letters. -/
def sameName (a b : String) : Bool :=
  a.toList.map Char.toLower == b.toList.map Char.toLower

/-- No blank belongs to a word. -/
theorem blanks_not_isWord : (blanks.all fun b => !isWord b) = true := by decide +kernel

theorem not_isWord_of_isBlank {c : Char} (h : isBlank c = true) : isWord c = false := by
  have hmem : c ∈ blanks := by simpa [isBlank] using h
  have hnot := List.all_eq_true.mp blanks_not_isWord c hmem
  simpa using hnot

end ScriptLint
