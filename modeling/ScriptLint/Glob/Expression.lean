import ScriptLint.Glob.Decision
import ScriptLint.Text.Digits

/-!
# Glob patterns as regular expressions

Every pattern has a regular expression on bytes that matches the same paths. Expressions are
nested: groups, alternatives, sequences, repetitions and classes each add a level. Beyond a limit a
pattern is refused, unless it decides by a text alone.
-/

namespace ScriptLint

namespace Glob

/-- How deep an expression may be nested. -/
def maxNesting : Nat := 250

/-- The characters that an expression escapes to have them stand for themselves. -/
def expressionMarks : List Char :=
  "\\.+*?()|[]\x7b\x7d^$#&-~".toList

/-- A character in an expression. Beyond ASCII its bytes are given one by one. -/
def literalExpression (c : Char) : String :=
  if c.toNat < 128 then
    if expressionMarks.contains c then "\\" ++ String.singleton c else String.singleton c
  else
    String.join <| (String.utf8EncodeChar c).map fun b =>
      "\\x" ++ String.ofList [hexDigit (b.toNat / 16), hexDigit (b.toNat % 16)]

def rangeExpression (range : Char × Char) : String :=
  if range.1 = range.2 then literalExpression range.1
  else literalExpression range.1 ++ "-" ++ literalExpression range.2

mutual

def tokenExpression (literalSeparators : Bool) : GlobToken → String
  | .literal c => literalExpression c
  | .any => if literalSeparators then "[^/]" else "."
  | .star => if literalSeparators then "[^/]*" else ".*"
  | .leadingDirs => "(?:/?|.*/)"
  | .innerDirs => "(?:/|/.*/)"
  | .trailingDirs => "/.*"
  | .charClass negated ranges =>
      "[" ++ (if negated then "^" else "") ++ String.join (ranges.map rangeExpression) ++ "]"
  | .alternatives branches =>
      if areVacuous branches then ""
      else "(?:" ++ "|".intercalate (branchExpressions literalSeparators branches) ++ ")"

def sequenceExpression (literalSeparators : Bool) : List GlobToken → String
  | [] => ""
  | token :: rest =>
      tokenExpression literalSeparators token ++ sequenceExpression literalSeparators rest

/-- The expressions of the branches that are not empty. -/
def branchExpressions (literalSeparators : Bool) : List (List GlobToken) → List String
  | [] => []
  | branch :: rest =>
      let others := branchExpressions literalSeparators rest
      if allVacuous branch then others
      else sequenceExpression literalSeparators branch :: others

end

/-- The expression of a whole pattern. -/
def expression (glob : Glob) : String :=
  "(?-u)^" ++ sequenceExpression glob.style.separatorsAreLiteral glob.tokens ++ "$"

/-- How many bytes and ranges of bytes a range of characters stands for in a class. -/
def rangeSize (range : Char × Char) : Nat :=
  let low := (String.utf8EncodeChar range.1).length
  if range.1 = range.2 then low else low + (String.utf8EncodeChar range.2).length - 1

def classSize : List (Char × Char) → Nat
  | [] => 0
  | range :: rest => rangeSize range + classSize rest

/-- How many items a token adds to the sequence it stands in. -/
def itemCount : GlobToken → Nat
  | .literal c => (String.utf8EncodeChar c).length
  | .trailingDirs => 2
  | .alternatives branches => if areVacuous branches then 0 else 1
  | _ => 1

def itemsIn : List GlobToken → Nat
  | [] => 0
  | token :: rest => itemCount token + itemsIn rest

mutual

/-- How deep the expression of a token is nested. -/
def tokenNesting (literalSeparators : Bool) : GlobToken → Nat
  | .literal _ => 0
  | .any => if literalSeparators then 1 else 0
  | .star => if literalSeparators then 2 else 1
  | .leadingDirs => 4
  | .innerDirs => 4
  | .trailingDirs => 1
  | .charClass _ ranges => if 1 < classSize ranges then 2 else 1
  | .alternatives branches =>
      if areVacuous branches then 0
      else
        let several := 1 < (branches.filter fun branch => !allVacuous branch).length
        (if several then 2 else 1) + deepestBranch literalSeparators branches

def deepestToken (literalSeparators : Bool) : List GlobToken → Nat
  | [] => 0
  | token :: rest =>
      max (tokenNesting literalSeparators token) (deepestToken literalSeparators rest)

/-- The deepest nesting among branches. A branch of several items is a sequence. -/
def deepestBranch (literalSeparators : Bool) : List (List GlobToken) → Nat
  | [] => 0
  | branch :: rest =>
      max ((if 1 < itemsIn branch then 1 else 0) + deepestToken literalSeparators branch)
        (deepestBranch literalSeparators rest)

end

/-- How deep the expression of a whole pattern is nested. It is a sequence, because it starts and
ends with what holds it to the whole path. -/
def nesting (glob : Glob) : Nat :=
  1 + deepestToken glob.style.separatorsAreLiteral glob.tokens

def isTooDeep (glob : Glob) : Bool :=
  maxNesting < glob.nesting

/-- What is wrong with the nesting of patterns that are used together. Those that look at the
extension first are tried one by one, and those that look at the whole path all at once. -/
def nestingError? (globs : List Glob) : Option GlobError :=
  let alone := globs.filter fun glob => glob.decision == .pathWithExtension
  let together := globs.filter fun glob => glob.decision == .pattern
  ((alone.find? isTooDeep).map fun glob => GlobError.tooDeep glob.expression).or
    ((together.findIdx? isTooDeep).map GlobError.tooDeepAmong)

end Glob

end ScriptLint
