import ScriptLint.Rule.Basic

/-!
# Queries put together from text

A database statement is at risk when, somewhere after its verb, the line has a format placeholder or
adds a further operand.
-/

namespace ScriptLint.Query

def verbs : List String :=
  ["select", "insert", "update", "delete", "drop", "create"]

/-- The ways in which a value gets into the text of a statement. -/
def insertions : List Pattern :=
  [[.letters "%s"], [.letters "%d"], [.exactly "+", .gap, .one isWord]]

/-- Whether a value gets in right at the start of the text. -/
def startsInsertion (text : List Char) : Bool :=
  insertions.any fun insertion => insertion.startsOn text

/-- The text before the last place where a value gets in. -/
def beforeLastInsertion? : List Char → Option (List Char)
  | [] => none
  | c :: rest =>
      match beforeLastInsertion? rest with
      | some before => some (c :: before)
      | none => if startsInsertion (c :: rest) then some [] else none

def namesVerb (text : List Char) : Bool :=
  verbs.any fun verb => Pattern.occursIn [.letters verb] text

/-- Whether the line inserts a value after some verb. What comes after the last insertion has no say
in it. -/
def buildsStatement (line : Line) : Bool :=
  (beforeLastInsertion? line).any namesVerb

/-- Statements should take their values as parameters. -/
def rule : Rule where
  id := "S003"
  name := "SQL Injection Risk"
  description := "Avoid string concatenation in SQL queries"
  severity := .error
  category := .security
  scan := scanEachLine buildsStatement
    ("Potential SQL injection risk. Use parameterized queries instead of " ++
      "string concatenation")

end ScriptLint.Query
