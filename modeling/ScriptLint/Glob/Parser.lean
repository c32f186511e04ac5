import ScriptLint.Glob.Basic

/-!
# Reading glob patterns

A pattern is read from left to right. A construct of several characters is recognised at its first
character, which then tells how many of the following characters belong to it.
-/

namespace ScriptLint

namespace Glob

/-- A group of alternatives that is still open: the branches read so far and the tokens before the
group, both last first. -/
structure OpenGroup where
  branches : List (List GlobToken)
  before : List GlobToken

/-- What has been read of a pattern. -/
structure Draft where
  /-- The tokens of the branch being read, last first. -/
  tokens : List GlobToken := []
  /-- The open groups, innermost first. -/
  groups : List OpenGroup := []
  /-- Whether a bracket was found that is never closed, so that no later one opens a class. -/
  strayBracket : Bool := false

namespace Draft

def push (draft : Draft) (token : GlobToken) : Draft :=
  { draft with tokens := token :: draft.tokens }

def openGroup (draft : Draft) : Draft :=
  { draft with
    tokens := []
    groups := { branches := [], before := draft.tokens } :: draft.groups }

/-- Ends a branch. Outside of any group a comma stands for itself. -/
def comma (draft : Draft) : Draft :=
  match draft.groups with
  | [] => draft.push (.literal ',')
  | group :: outer =>
      { draft with
        tokens := []
        groups := { group with branches := draft.tokens.reverse :: group.branches } :: outer }

def closeGroup (draft : Draft) : Except GlobError Draft :=
  match draft.groups with
  | [] => .error .unopenedAlternatives
  | group :: outer =>
      let branches := (draft.tokens.reverse :: group.branches).reverse
      .ok { draft with tokens := .alternatives branches :: group.before, groups := outer }

def finish (draft : Draft) : Except GlobError (List GlobToken) :=
  if draft.groups.isEmpty then .ok draft.tokens.reverse else .error .unclosedAlternatives

/-- Two stars that do not stand between separators. -/
def plainStars (draft : Draft) : Draft × Nat :=
  ((draft.push .star).push .star, 0)

/-- Reads a double star, given the character before it and the text after it. Also returns how many
characters of that text belong to it. -/
def doubleStar (draft : Draft) (before : Option Char) (after : List Char) : Draft × Nat :=
  match draft.tokens with
  | [] =>
      match after with
      | [] => (draft.push .leadingDirs, 0)
      | c :: _ => if c = '/' then (draft.push .leadingDirs, 1) else draft.plainStars
  | last :: earlier =>
      let inGroup := !draft.groups.isEmpty
      let opensBranch := inGroup && (before == some ',' || before == some '\x7b')
      if before != some '/' && !opensBranch then draft.plainStars
      else
        let directories (token : GlobToken) : Draft :=
          match last with
          | .leadingDirs | .trailingDirs => draft
          | _ => { draft with tokens := token :: earlier }
        match after with
        | [] => (directories .trailingDirs, 0)
        | c :: _ =>
            if c = '/' then (directories .innerDirs, 1)
            else if inGroup && (c == ',' || c == '\x7d') then (directories .trailingDirs, 0)
            else draft.plainStars

end Draft

/-- Reads a class up to its closing bracket. `ranges` holds what was read, last first; `first` tells
that nothing was read yet, and `inRange` that the last range still wants its upper end. Also returns
how many characters belong to the class. -/
def classFrom (first inRange : Bool) (ranges : List (Char × Char)) (used : Nat) :
    List Char → Except GlobError (List (Char × Char) × Nat)
  | [] => .error .unclosedClass
  | c :: rest =>
      if c = ']' && !first then
        .ok ((if inRange then ('-', '-') :: ranges else ranges).reverse, used + 1)
      else if c = '-' && !first && !inRange then
        classFrom false true ranges (used + 1) rest
      else
        match inRange, ranges with
        | true, (low, _) :: earlier =>
            if c < low then .error (.invalidRange low c)
            else classFrom false false ((low, c) :: earlier) (used + 1) rest
        | _, _ => classFrom false false ((c, c) :: ranges) (used + 1) rest

/-- Reads the class after an opening bracket. Also returns how many characters belong to it. -/
def readClass (text : List Char) : Except GlobError (GlobToken × Nat) :=
  match text with
  | c :: rest =>
      if c = '!' || c = '^' then
        (classFrom true false [] 1 rest).map fun found => (.charClass true found.1, found.2)
      else (classFrom true false [] 0 text).map fun found => (.charClass false found.1, found.2)
  | [] => .error .unclosedClass

/-- Reads the rest of a pattern, whose first `skipped` characters belong to the last token. -/
def parseFrom (style : GlobStyle) (skipped : Nat) (before : Option Char) (draft : Draft) :
    List Char → Except GlobError Draft
  | [] => .ok draft
  | c :: rest =>
      match skipped with
      | n + 1 => parseFrom style n (some c) draft rest
      | 0 =>
          match c with
          | '?' => parseFrom style 0 (some c) (draft.push .any) rest
          | '*' =>
              match rest with
              | '*' :: after =>
                  let (next, used) := draft.doubleStar before after
                  parseFrom style (1 + used) (some c) next rest
              | _ => parseFrom style 0 (some c) (draft.push .star) rest
          | '[' =>
              if draft.strayBracket then
                parseFrom style 0 (some c) (draft.push (.literal '[')) rest
              else
                match readClass rest with
                | .ok (token, used) => parseFrom style used (some c) (draft.push token) rest
                | .error .unclosedClass =>
                    if style.strayBracketIsLiteral then
                      parseFrom style 0 (some c)
                        { draft.push (.literal '[') with strayBracket := true } rest
                    else .error .unclosedClass
                | .error error => .error error
          | '\x7b' => parseFrom style 0 (some c) draft.openGroup rest
          | '\x7d' =>
              match draft.closeGroup with
              | .ok next => parseFrom style 0 (some c) next rest
              | .error error => .error error
          | ',' => parseFrom style 0 (some c) draft.comma rest
          | '\\' =>
              match rest with
              | [] => .error .danglingEscape
              | escaped :: _ => parseFrom style 1 (some c) (draft.push (.literal escaped)) rest
          | _ => parseFrom style 0 (some c) (draft.push (.literal c)) rest

/-- Reads a pattern. -/
def parse (style : GlobStyle) (pattern : String) : Except GlobError Glob := do
  let draft ← parseFrom style 0 none {} pattern.toList
  let tokens ← draft.finish
  return { style, tokens }

end Glob

end ScriptLint
