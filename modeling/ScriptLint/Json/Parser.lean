import ScriptLint.Json.Lexer

/-!
# Reading JSON

A document is one value and nothing after it. Every step of reading takes a token away or goes one
level deeper at a token, so twice the number of tokens bounds the number of nested steps.
-/

namespace ScriptLint

namespace Json

mutual

/-- Reads one value. -/
def valueFrom : Nat → List JsonToken → Option (Json × List JsonToken)
  | 0, _ => none
  | fuel + 1, tokens =>
      match tokens with
      | .null :: rest => some (.null, rest)
      | .bool value :: rest => some (.bool value, rest)
      | .natural value :: rest => some (.natural value, rest)
      | .number literal :: rest => some (.number literal, rest)
      | .string text :: rest => some (.string text, rest)
      | .openBracket :: .closeBracket :: rest => some (.array [], rest)
      | .openBracket :: rest =>
          (itemsFrom fuel rest).map fun found => (.array found.1, found.2)
      | .openBrace :: .closeBrace :: rest => some (.object [], rest)
      | .openBrace :: rest =>
          (membersFrom fuel rest).map fun found => (.object found.1, found.2)
      | _ => none

/-- Reads the items of an array up to its closing bracket. -/
def itemsFrom : Nat → List JsonToken → Option (List Json × List JsonToken)
  | 0, _ => none
  | fuel + 1, tokens =>
      match valueFrom fuel tokens with
      | some (item, .closeBracket :: rest) => some ([item], rest)
      | some (item, .comma :: rest) =>
          (itemsFrom fuel rest).map fun found => (item :: found.1, found.2)
      | _ => none

/-- Reads the members of an object up to its closing brace. -/
def membersFrom : Nat → List JsonToken → Option (List (Option String × Json) × List JsonToken)
  | 0, _ => none
  | fuel + 1, tokens =>
      match tokens with
      | .string name :: .colon :: rest =>
          match valueFrom fuel rest with
          | some (value, .closeBrace :: rest) => some ([(name, value)], rest)
          | some (value, .comma :: rest) =>
              (membersFrom fuel rest).map fun found => ((name, value) :: found.1, found.2)
          | _ => none
      | _ => none

end

/-- The document that tokens spell. -/
def ofTokens? (tokens : List JsonToken) : Option Json :=
  match valueFrom (2 * tokens.length + 1) tokens with
  | some (document, []) => some document
  | _ => none

/-- The document that a text spells. -/
def parse? (text : String) : Option Json :=
  (lex text).bind ofTokens?

end Json

end ScriptLint
