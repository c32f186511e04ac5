/-!
# Glob patterns

A glob pattern is a sequence of tokens. A star and a question mark stand for arbitrary characters, a
double star between separators stands for any number of directories, brackets hold a class of
characters, and braces hold alternatives.
-/

namespace ScriptLint

/-- One piece of a glob pattern. -/
inductive GlobToken where
  | literal (c : Char)
  /-- A question mark. -/
  | any
  /-- A star. -/
  | star
  /-- A double star at the start, with the separator after it. -/
  | leadingDirs
  /-- A double star between two separators, with both of them. -/
  | innerDirs
  /-- A double star at the end, with the separator before it. -/
  | trailingDirs
  | charClass (negated : Bool) (ranges : List (Char × Char))
  | alternatives (branches : List (List GlobToken))
  deriving Repr

/-- How a pattern is read and matched. -/
structure GlobStyle where
  /-- Whether stars and question marks stop at separators. -/
  separatorsAreLiteral : Bool := false
  /-- Whether a bracket that is never closed stands for itself. -/
  strayBracketIsLiteral : Bool := false
  deriving DecidableEq, Repr

structure Glob where
  style : GlobStyle
  tokens : List GlobToken
  deriving Repr

namespace Glob

mutual

/-- Whether a token stands for nothing at all, as a group of empty alternatives does. -/
def isVacuous : GlobToken → Bool
  | .alternatives branches => areVacuous branches
  | _ => false

def allVacuous : List GlobToken → Bool
  | [] => true
  | token :: rest => isVacuous token && allVacuous rest

def areVacuous : List (List GlobToken) → Bool
  | [] => true
  | branch :: rest => allVacuous branch && areVacuous rest

end

end Glob

/-- What is wrong with a pattern. -/
inductive GlobError where
  | unclosedClass
  | invalidRange (low high : Char)
  | unopenedAlternatives
  | unclosedAlternatives
  | danglingEscape
  /-- A pattern with the given expression is nested too deep. -/
  | tooDeep (expression : String)
  /-- Of the patterns that are tried together, the one at the given place is nested too deep. -/
  | tooDeepAmong (place : Nat)
  deriving DecidableEq, Repr

namespace GlobError

def reason : GlobError → String
  | unclosedClass => "unclosed character class; missing ']'"
  | invalidRange low high =>
      "invalid range; '" ++ String.singleton low ++ "' > '" ++ String.singleton high ++ "'"
  | unopenedAlternatives =>
      "unopened alternate group; missing '\x7b' (maybe escape '\x7d' with '[\x7d]'?)"
  | unclosedAlternatives =>
      "unclosed alternate group; missing '\x7d' (maybe escape '\x7b' with '[\x7b]'?)"
  | danglingEscape => "dangling '\\'"
  | tooDeep _ => "error parsing pattern 0"
  | tooDeepAmong place => "error parsing pattern " ++ toString place

/-- The full text of an error. It shows the pattern, or the expression if that is to blame. -/
def message (pattern : String) (error : GlobError) : String :=
  match error with
  | tooDeepAmong _ => error.reason
  | tooDeep expression => "error parsing glob '" ++ expression ++ "': " ++ error.reason
  | _ => "error parsing glob '" ++ pattern ++ "': " ++ error.reason

end GlobError

end ScriptLint
