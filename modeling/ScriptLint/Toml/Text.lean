import ScriptLint.Toml.Number

/-!
# TOML strings

A string stands between quotation marks of one of two kinds. Between double quotation marks a
backslash starts an escape; between single ones it stands for itself. Three marks in a row delimit a
string that may run over several lines, whose first line break does not count.
-/

namespace ScriptLint

namespace Toml

/-- The characters that may stand unescaped in a line: tabs, but no other control characters. -/
def isPlain (c : Char) : Bool :=
  c == '\t' || (0x20 ≤ c.toNat && c.toNat != 0x7f)

/-- The character that exactly `count` hexadecimal digits at the start of a text stand for. -/
def escapedCode? (count : Nat) (text : List Char) : Option Char :=
  let read := text.take count
  if read.length = count && read.all fun c => (digit? 16 c).isSome then
    let value := valueOf 16 read
    if value < 0xd800 || (0xdfff < value && value < 0x110000) then some (Char.ofNat value) else none
  else none

/-- The character that an escape stands for and the number of characters after the backslash. -/
def escape? (text : List Char) : Option (Char × Nat) :=
  match text with
  | [] => none
  | c :: rest =>
      match c with
      | 'b' => some ('\x08', 1)
      | 't' => some ('\t', 1)
      | 'n' => some ('\n', 1)
      | 'f' => some ('\x0c', 1)
      | 'r' => some ('\r', 1)
      | 'e' => some ('\x1b', 1)
      | '\x22' => some ('\x22', 1)
      | '\\' => some ('\\', 1)
      | 'x' => (escapedCode? 2 rest).map fun char => (char, 3)
      | 'u' => (escapedCode? 4 rest).map fun char => (char, 5)
      | 'U' => (escapedCode? 8 rest).map fun char => (char, 9)
      | _ => none

/-- The number of characters of a line break at the start of a text. -/
def lineBreakLength (text : List Char) : Nat :=
  match text with
  | '\n' :: _ => 1
  | '\r' :: '\n' :: _ => 2
  | _ => 0

/-- Reads a string with escapes up to its closing mark, and returns what follows it. -/
def basicFrom (skipped : Nat) (read : List Char) : List Char → Option (String × List Char)
  | [] => none
  | c :: rest =>
      match skipped with
      | n + 1 => basicFrom n read rest
      | 0 =>
          if c = '\x22' then some (String.ofList read.reverse, rest)
          else if c = '\\' then
            match escape? rest with
            | some (char, used) => basicFrom used (char :: read) rest
            | none => none
          else if isPlain c then basicFrom 0 (c :: read) rest
          else none

/-- Reads a string without escapes up to its closing mark, and returns what follows it. -/
def literalFrom (read : List Char) : List Char → Option (String × List Char)
  | [] => none
  | c :: rest =>
      if c = '\x27' then some (String.ofList read.reverse, rest)
      else if isPlain c then literalFrom (c :: read) rest
      else none

def isLineBlank (c : Char) : Bool :=
  c == ' ' || c == '\t'

/-- The length of the longest run of blanks and line breaks at the start of a text. -/
def blankLength (skipped counted : Nat) : List Char → Nat
  | [] => counted
  | c :: rest =>
      match skipped with
      | n + 1 => blankLength n (counted + 1) rest
      | 0 =>
          if isLineBlank c then blankLength 0 (counted + 1) rest
          else
            match lineBreakLength (c :: rest) with
            | 0 => counted
            | used + 1 => blankLength used (counted + 1) rest

/-- The length of what a backslash at the end of a line swallows: the blanks and line breaks up to
the next visible character. -/
def continuation? (text : List Char) : Option Nat :=
  let blanks := (text.takeWhile isLineBlank).length
  if lineBreakLength (text.drop blanks) = 0 then none else some (blankLength 0 0 text)

/-- Closes a string of several lines. Up to two marks before the closing three belong to it. -/
def closeLong (mark : Char) (read text : List Char) : Option (String × List Char) :=
  let marks := (text.takeWhile (· == mark)).length
  let kept := Nat.min (marks - 3) 2
  some (String.ofList (List.replicate kept mark ++ read).reverse, text.drop (kept + 3))

/-- Reads a string of several lines with escapes up to its closing marks. -/
def longBasicFrom (skipped : Nat) (read : List Char) : List Char → Option (String × List Char)
  | [] => none
  | c :: rest =>
      match skipped with
      | n + 1 => longBasicFrom n read rest
      | 0 =>
          if c = '\x22' && rest.take 2 = ['\x22', '\x22'] then closeLong '\x22' read (c :: rest)
          else if c = '\\' then
            match continuation? rest with
            | some used => longBasicFrom used read rest
            | none =>
                match escape? rest with
                | some (char, used) => longBasicFrom used (char :: read) rest
                | none => none
          else if isPlain c || lineBreakLength (c :: rest) != 0 then
            longBasicFrom 0 (c :: read) rest
          else none

/-- Reads a string of several lines without escapes up to its closing marks. -/
def longLiteralFrom (read : List Char) : List Char → Option (String × List Char)
  | [] => none
  | c :: rest =>
      if c = '\x27' && rest.take 2 = ['\x27', '\x27'] then closeLong '\x27' read (c :: rest)
      else if isPlain c || lineBreakLength (c :: rest) != 0 then longLiteralFrom (c :: read) rest
      else none

/-- A text without the line break at its start. -/
def dropLineBreak (text : List Char) : List Char :=
  text.drop (lineBreakLength text)

/-- The string of one line at the start of a text, as it may also stand in a key. -/
def shortString? : List Char → Option (String × List Char)
  | '\x22' :: rest => basicFrom 0 [] rest
  | '\x27' :: rest => literalFrom [] rest
  | _ => none

/-- The string at the start of a text. -/
def string? : List Char → Option (String × List Char)
  | '\x22' :: '\x22' :: '\x22' :: rest => longBasicFrom 0 [] (dropLineBreak rest)
  | '\x27' :: '\x27' :: '\x27' :: rest => longLiteralFrom [] (dropLineBreak rest)
  | text => shortString? text

end Toml

end ScriptLint
