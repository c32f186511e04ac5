import ScriptLint.Glob.Basic

/-!
# What glob patterns decide by

Most patterns need not be tried on a whole path: a pattern may ask only for a file name, for an
extension, or for how the path starts or ends. A pattern is decided by the first of these that it
fits. Only a path with a file name can have the name or the extension that is asked for.
-/

namespace ScriptLint

/-- What a pattern looks at. -/
inductive GlobDecision where
  /-- The whole file name. -/
  | name
  /-- The whole path, letter for letter. -/
  | path
  /-- The extension alone. -/
  | extension
  | start
  | ending
  /-- The extension first, and then the whole path. -/
  | pathWithExtension
  /-- The whole path. -/
  | pattern
  deriving DecidableEq, Repr

namespace Glob

/-- The character that a token stands for, if it stands for just one. -/
def literal? : GlobToken → Option Char
  | .literal c => some c
  | _ => none

/-- The text that tokens stand for, if they stand for just one. -/
def text? (tokens : List GlobToken) : Option (List Char) :=
  tokens.mapM literal?

def isLeadingDirs : GlobToken → Bool
  | .leadingDirs => true
  | _ => false

def isStar : GlobToken → Bool
  | .star => true
  | _ => false

def isTrailingDirs : GlobToken → Bool
  | .trailingDirs => true
  | _ => false

/-- The tokens after a double star at the start. -/
def withoutLeadingDirs (tokens : List GlobToken) : List GlobToken :=
  match tokens with
  | .leadingDirs :: rest => rest
  | _ => tokens

/-- The whole file name that a pattern asks for, in whatever directory. -/
def wantedName? (tokens : List GlobToken) : Option (List Char) :=
  match tokens with
  | .leadingDirs :: rest =>
      match text? rest with
      | some (c :: name) => if (c :: name).contains '/' then none else some (c :: name)
      | _ => none
  | _ => none

/-- The extension that a pattern asks for after an arbitrary name, in whatever directory. -/
def wantedExtension? (glob : Glob) : Option (List Char) :=
  match withoutLeadingDirs glob.tokens with
  | .star :: .literal '.' :: rest =>
      if glob.style.separatorsAreLiteral && !(glob.tokens.head?.any isLeadingDirs) then none
      else
        match text? rest with
        | some ending => if ending.contains '/' || ending.contains '.' then none else some ending
        | none => none
  | _ => none

/-- The start that a pattern asks for, before anything at all. -/
def wantedStart? (glob : Glob) : Option (List Char) :=
  match glob.tokens.getLast? with
  | none => none
  | some last =>
      if isTrailingDirs last then (text? glob.tokens.dropLast).map (· ++ ['/'])
      else if isStar last then
        if glob.style.separatorsAreLiteral then none
        else (text? glob.tokens.dropLast).filter fun start => !start.isEmpty
      else text? glob.tokens

/-- The end that a pattern asks for, after anything at all. -/
def wantedEnd? (glob : Glob) : Option (List Char) :=
  let start : List Char :=
    match glob.tokens with
    | .leadingDirs :: .literal _ :: _ => ['/']
    | _ => []
  let ending? :=
    match withoutLeadingDirs glob.tokens with
    | [] => none
    | .star :: rest => if glob.style.separatorsAreLiteral then none else text? rest
    | rest => text? rest
  (ending?.map (start ++ ·)).filter fun ending => !ending.isEmpty && ending != ['/']

/-- The extension that the literal end of a pattern asks for. -/
def endsInExtension (tokens : List GlobToken) : Bool :=
  match (tokens.reverse.map literal?).find? fun c =>
      c == none || c == some '/' || c == some '.' with
  | some (some '.') => true
  | _ => false

/-- What a pattern decides by. -/
def decision (glob : Glob) : GlobDecision :=
  if (wantedName? glob.tokens).isSome then .name
  else if !(text? glob.tokens).all List.isEmpty then .path
  else if (wantedExtension? glob).isSome then .extension
  else if (wantedStart? glob).isSome then .start
  else if (wantedEnd? glob).isSome then .ending
  else if endsInExtension glob.tokens then .pathWithExtension
  else .pattern

/-- Whether a pattern does not apply to a path without a file name. -/
def needsFileName (glob : Glob) : Bool :=
  match glob.decision with
  | .name | .extension | .pathWithExtension => true
  | .path | .start | .ending | .pattern => false

end Glob

end ScriptLint
