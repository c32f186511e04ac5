/-!
# JSON values

A JSON document is a tree of values, and its text is a sequence of tokens with insignificant blanks
between them. A string literal can hold half of a surrogate pair, which stands for no character;
such a literal denotes no text at all.
-/

namespace ScriptLint

inductive Json where
  | null
  | bool (value : Bool)
  | natural (value : Nat)
  /-- A number that is not written as a natural number. -/
  | number (literal : String)
  /-- A string, or none if its literal denotes no text. -/
  | string (text : Option String)
  | array (items : List Json)
  | object (members : List (Option String × Json))
  deriving Repr

inductive JsonToken where
  | openBrace
  | closeBrace
  | openBracket
  | closeBracket
  | colon
  | comma
  | null
  | bool (value : Bool)
  | natural (value : Nat)
  | number (literal : String)
  | string (text : Option String)
  deriving DecidableEq, Repr

namespace Json

/-- A string that denotes a text. -/
def text (text : String) : Json :=
  .string (some text)

/-- A member whose name denotes a text. -/
def member (name : String) (value : Json) : Option String × Json :=
  (some name, value)

/-- The value that a present value stands for, and null for an absent one. -/
def ofOption {α : Type} (encode : α → Json) : Option α → Json
  | none => .null
  | some value => encode value

end Json

end ScriptLint
