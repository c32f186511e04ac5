import ScriptLint.Json.Basic
import ScriptLint.Text.Digits

/-!
# Writing JSON

Documents are written with one item or member a line, two blanks a level, and no blanks in an empty
array or object. A literal that denotes no text is written as half of a surrogate pair, which reads
back as what it is.
-/

namespace ScriptLint

namespace Json

/-- How a character is written in a string literal. -/
def escaped (c : Char) : List Char :=
  match c with
  | '\x22' => ['\\', '\x22']
  | '\\' => ['\\', '\\']
  | '\x08' => ['\\', 'b']
  | '\x0c' => ['\\', 'f']
  | '\n' => ['\\', 'n']
  | '\r' => ['\\', 'r']
  | '\t' => ['\\', 't']
  | _ =>
      if c.toNat < 0x20 then
        ['\\', 'u', '0', '0', hexDigit (c.toNat / 16), hexDigit (c.toNat % 16)]
      else [c]

/-- A string literal. -/
def quoted : Option String → List Char
  | some text => '\x22' :: text.toList.flatMap escaped ++ ['\x22']
  | none => "\"\\ud800\"".toList

/-- A line break and the indentation of the next line. -/
def lineBreak (depth : Nat) : List Char :=
  '\n' :: List.replicate (2 * depth) ' '

mutual

/-- The text of a value that stands at the given depth. -/
def pretty (depth : Nat) : Json → List Char
  | .null => "null".toList
  | .bool true => "true".toList
  | .bool false => "false".toList
  | .natural value => Nat.toDigits 10 value
  | .number literal => literal.toList
  | .string text => quoted text
  | .array [] => ['[', ']']
  | .array (first :: rest) =>
      '[' :: lineBreak (depth + 1) ++ pretty (depth + 1) first ++
        prettyItems (depth + 1) rest ++ lineBreak depth ++ [']']
  | .object [] => ['\x7b', '\x7d']
  | .object ((name, value) :: rest) =>
      '\x7b' :: lineBreak (depth + 1) ++ quoted name ++ [':', ' '] ++ pretty (depth + 1) value ++
        prettyMembers (depth + 1) rest ++ lineBreak depth ++ ['\x7d']

/-- The text of the items after the first. -/
def prettyItems (depth : Nat) : List Json → List Char
  | [] => []
  | item :: rest =>
      ',' :: lineBreak depth ++ pretty depth item ++ prettyItems depth rest

/-- The text of the members after the first. -/
def prettyMembers (depth : Nat) : List (Option String × Json) → List Char
  | [] => []
  | (name, value) :: rest =>
      ',' :: lineBreak depth ++ quoted name ++ [':', ' '] ++ pretty depth value ++
        prettyMembers depth rest

end

/-- The text of a document. It does not end in a line break. -/
def render (document : Json) : String :=
  String.ofList (pretty 0 document)

end Json

end ScriptLint
