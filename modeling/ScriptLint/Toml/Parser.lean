import ScriptLint.Toml.Moment
import ScriptLint.Toml.Text
import ScriptLint.Toml.Tree

/-!
# Reading TOML

A document is a sequence of headers and key-value pairs, one a line, with comments at the end of any
line. Arrays and inline tables may run over several lines and may be nested eighty deep. A key has
eighty parts at most.
-/

namespace ScriptLint

namespace Toml

def skipBlanks (text : List Char) : List Char :=
  text.dropWhile isLineBlank

/-- What follows a comment, if there is one. -/
def skipComment? (text : List Char) : Option (List Char) :=
  match text with
  | '#' :: rest =>
      let after := rest.dropWhile isPlain
      if after.isEmpty || lineBreakLength after != 0 then some after else none
  | _ => some text

/-- Skips blanks, comments and line breaks up to the next visible character. -/
def skipLines : Nat → List Char → Option (List Char)
  | 0, _ => none
  | fuel + 1, text =>
      match skipComment? (skipBlanks text) with
      | none => none
      | some after =>
          if lineBreakLength after = 0 then some after else skipLines fuel (dropLineBreak after)

/-- Skips to the visible character that comes next, on whatever line. -/
def nextVisible? (text : List Char) : Option (List Char) :=
  skipLines (text.length + 1) text

def isBareKeyChar (c : Char) : Bool :=
  c.isAlphanum || c == '_' || c == '-'

/-- One part of a key. -/
def keyPart? (text : List Char) : Option (String × List Char) :=
  match text with
  | '\x22' :: _ => shortString? text
  | '\x27' :: _ => shortString? text
  | _ =>
      if (text.takeWhile isBareKeyChar).isEmpty then none
      else some (String.ofList (text.takeWhile isBareKeyChar), text.dropWhile isBareKeyChar)

/-- How many parts a key may have. -/
def maxKeyParts : Nat := 80

/-- The parts of a dotted key of at most the given number of parts, and what follows the key and the
blanks after it. -/
def keyFrom : Nat → List Char → Option (List String × List Char)
  | 0, _ => none
  | parts + 1, text =>
      match keyPart? (skipBlanks text) with
      | none => none
      | some (part, rest) =>
          match skipBlanks rest with
          | '.' :: after => (keyFrom parts after).map fun found => (part :: found.1, found.2)
          | after => some ([part], after)

/-- The parts of a key, and what follows the key and the blanks after it. -/
def key? (text : List Char) : Option (List String × List Char) :=
  keyFrom maxKeyParts text

/-- Splits the last part off a key. -/
def splitLast? (parts : List String) : Option (List String × String) :=
  parts.getLast?.map fun last => (parts.dropLast, last)

def isScalarChar (c : Char) : Bool :=
  c.isAlphanum || c == '_' || c == '-' || c == '+' || c == '.' || c == ':'

/-- The extent of a scalar without quotation marks. A date and a time may be one blank apart. -/
def scalarExtent (text : List Char) : List Char × List Char :=
  let first := text.takeWhile isScalarChar
  let rest := text.dropWhile isScalarChar
  match rest with
  | ' ' :: c :: after =>
      if c.isDigit && (afterDate? first).any List.isEmpty then
        (first ++ ' ' :: (c :: after).takeWhile isScalarChar,
          (c :: after).dropWhile isScalarChar)
      else (first, rest)
  | _ => (first, rest)

def scalar? (text : List Char) : Option Toml :=
  if text = "true".toList then some (.boolean true)
  else if text = "false".toList then some (.boolean false)
  else integer? text <|> float? text <|> moment? text

/-- How deep arrays and inline tables may be nested. -/
def maxDepth : Nat := 80

mutual

/-- Reads one value; `depth` is how many more levels it may have. -/
def valueFrom : Nat → Nat → List Char → Option (Toml × List Char)
  | 0, _, _ => none
  | fuel + 1, depth, text =>
      match text with
      | [] => none
      | c :: rest =>
          if c = '\x22' || c = '\x27' then
            (string? text).map fun found => (.string found.1, found.2)
          else if c = '[' then
            match depth with
            | 0 => none
            | depth + 1 =>
                (itemsFrom fuel depth rest).map fun found => (.array found.1, found.2)
          else if c = '\x7b' then
            match depth with
            | 0 => none
            | depth + 1 =>
                (pairsFrom fuel depth [] rest).map fun found =>
                  (.table (entriesToToml found.1), found.2)
          else
            let (literal, after) := scalarExtent text
            (scalar? literal).map fun value => (value, after)

/-- Reads the items of an array up to its closing bracket. -/
def itemsFrom : Nat → Nat → List Char → Option (List Toml × List Char)
  | 0, _, _ => none
  | fuel + 1, depth, text =>
      match nextVisible? text with
      | none => none
      | some (']' :: rest) => some ([], rest)
      | some start =>
          match valueFrom fuel depth start with
          | none => none
          | some (item, after) =>
              match nextVisible? after with
              | some (',' :: rest) =>
                  (itemsFrom fuel depth rest).map fun found => (item :: found.1, found.2)
              | some (']' :: rest) => some ([item], rest)
              | _ => none

/-- Reads the pairs of an inline table up to its closing brace. -/
def pairsFrom : Nat → Nat → Entries → List Char → Option (Entries × List Char)
  | 0, _, _, _ => none
  | fuel + 1, depth, entries, text =>
      match nextVisible? text with
      | none => none
      | some start =>
          if start.head? = some '\x7d' then some (entries, start.drop 1)
          else
            match pairFrom fuel depth entries start with
            | none => none
            | some (entries, after) =>
                match nextVisible? after with
                | some (c :: rest) =>
                    if c = ',' then pairsFrom fuel depth entries rest
                    else if c = '\x7d' then some (entries, rest)
                    else none
                | _ => none

/-- Reads a key and its value into a table. -/
def pairFrom : Nat → Nat → Entries → List Char → Option (Entries × List Char)
  | 0, _, _, _ => none
  | fuel + 1, depth, entries, text =>
      match key? text with
      | some (parts, '=' :: rest) =>
          match splitLast? parts, valueFrom fuel depth (skipBlanks rest) with
          | some (path, last), some (value, after) =>
              (entries.add last value path).map fun entries => (entries, after)
          | _, _ => none
      | _ => none

end

/-- A document being read: its entries and the path of the table that pairs go to. -/
structure Draft where
  entries : Entries := []
  path : List String := []

/-- Reads the key of a header, and what follows its closing brackets. -/
def headerKey? (closing : List Char) (text : List Char) :
    Option (List String × String × List Char) :=
  match key? text with
  | none => none
  | some (parts, after) =>
      if after.take closing.length = closing then
        (splitLast? parts).map fun found => (found.1, found.2, after.drop closing.length)
      else none

/-- Reads one header or pair. -/
def statement? (draft : Draft) (text : List Char) : Option (Draft × List Char) :=
  match text with
  | '[' :: '[' :: rest => do
      let (path, key, after) ← headerKey? [']', ']'] rest
      let entries ← draft.entries.alter (Entries.openElement key) path
      return ({ entries, path := path ++ [key] }, after)
  | '[' :: rest => do
      let (path, key, after) ← headerKey? [']'] rest
      let entries ← draft.entries.alter (Entries.openTable key) path
      return ({ entries, path := path ++ [key] }, after)
  | _ =>
      match key? text with
      | some (parts, '=' :: rest) => do
          let (dotted, key) ← splitLast? parts
          let start := skipBlanks rest
          let (value, after) ← valueFrom (2 * start.length + 2) maxDepth start
          let entries ← draft.entries.alter (Entries.add key value dotted) draft.path
          return ({ draft with entries }, after)
      | _ => none

/-- What follows the end of a statement, which must be the end of its line. -/
def endOfLine? (text : List Char) : Option (List Char) :=
  match skipComment? (skipBlanks text) with
  | none => none
  | some after =>
      if after.isEmpty || lineBreakLength after != 0 then some after else none

/-- Reads all statements. -/
def statementsFrom : Nat → Draft → List Char → Option Draft
  | 0, _, _ => none
  | fuel + 1, draft, text =>
      match nextVisible? text with
      | none => none
      | some [] => some draft
      | some start =>
          match statement? draft start with
          | none => none
          | some (next, after) =>
              match endOfLine? after with
              | none => none
              | some rest => statementsFrom fuel next rest

/-- The document that a text spells. A byte order mark at its start does not count. -/
def parse? (text : String) : Option (List (String × Toml)) :=
  let chars := text.toList
  let start := if chars.head? = some '\ufeff' then chars.drop 1 else chars
  (statementsFrom (start.length + 1) {} start).map fun draft => entriesToToml draft.entries

end Toml

end ScriptLint
