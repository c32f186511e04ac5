import ScriptLint.Glob.Decision

/-!
# Matching glob patterns

A pattern is matched against the bytes of a whole path. Matching keeps track of all places in the
path that the tokens so far can reach: the place before the first byte and those after each byte.
-/

namespace ScriptLint

abbrev Bytes := List UInt8

def bytesOf (text : String) : Bytes :=
  text.toUTF8.data.toList

/-- Which places of a path are reached, from its start to its end. There is one place more than
there are bytes. -/
abbrev Reach := List Bool

namespace Reach

/-- Nothing but the start of a path. -/
def start (path : Bytes) : Reach :=
  true :: path.map fun _ => false

/-- No place of a path at all. -/
def nowhere (path : Bytes) : Reach :=
  false :: path.map fun _ => false

def either (a b : Reach) : Reach :=
  List.zipWith (· || ·) a b

/-- The places right after an allowed byte at a reached place. -/
def advance (allowed : UInt8 → Bool) (path : Bytes) (reach : Reach) : Reach :=
  false :: List.zipWith (fun b reached => reached && allowed b) path reach

/-- The places after any number of allowed bytes; `running` tells that such bytes lead up to the
first place. -/
def spreadFrom (running : Bool) (allowed : UInt8 → Bool) : Bytes → Reach → Reach
  | _, [] => []
  | [], here :: _ => [running || here]
  | b :: path, here :: reach =>
      (running || here) :: spreadFrom ((running || here) && allowed b) allowed path reach

/-- The places after a run of allowed bytes of any length. -/
def spread (allowed : UInt8 → Bool) (path : Bytes) (reach : Reach) : Reach :=
  spreadFrom false allowed path reach

/-- Whether the end of the path is reached. -/
def atEnd (reach : Reach) : Bool :=
  reach.getLast? == some true

end Reach

namespace Glob

def separator : UInt8 := 0x2f

/-- The places after any number of directories. -/
def enterDirs (path : Bytes) (reach : Reach) : Reach :=
  reach.either ((reach.spread (fun _ => true) path).advance (· == separator) path)

/-- The bytes of a range of characters. A class looks at single bytes, so that of two characters
beyond ASCII it is the last byte of the lower and the first byte of the higher that span a range. -/
def rangeHolds (range : Char × Char) (b : UInt8) : Bool :=
  let low := String.utf8EncodeChar range.1
  let high := String.utf8EncodeChar range.2
  if range.1 = range.2 then low.contains b
  else
    low.dropLast.contains b || high.tail.contains b ||
      match low.getLast?, high.head? with
      | some first, some last => first ≤ b && b ≤ last
      | _, _ => false

mutual

/-- The places of a path that a token can reach from the given ones. -/
def step (literalSeparators : Bool) (path : Bytes) (token : GlobToken) (reach : Reach) : Reach :=
  match token with
  | .literal c =>
      (String.utf8EncodeChar c).foldl (fun reach wanted => reach.advance (· == wanted) path) reach
  | .any => reach.advance (fun b => !(literalSeparators && b == separator)) path
  | .star => reach.spread (fun b => !(literalSeparators && b == separator)) path
  | .leadingDirs => enterDirs path reach
  | .innerDirs => enterDirs path (reach.advance (· == separator) path)
  | .trailingDirs => (reach.advance (· == separator) path).spread (fun _ => true) path
  | .charClass negated ranges =>
      reach.advance (fun b => (ranges.any fun range => rangeHolds range b) != negated) path
  | .alternatives branches =>
      if areVacuous branches then reach else stepAny literalSeparators path branches reach

/-- The places that a sequence of tokens can reach. -/
def stepAll (literalSeparators : Bool) (path : Bytes) (tokens : List GlobToken) (reach : Reach) :
    Reach :=
  match tokens with
  | [] => reach
  | token :: rest => stepAll literalSeparators path rest (step literalSeparators path token reach)

/-- The places that some branch can reach. Empty branches count for nothing. -/
def stepAny (literalSeparators : Bool) (path : Bytes) (branches : List (List GlobToken))
    (reach : Reach) : Reach :=
  match branches with
  | [] => Reach.nowhere path
  | branch :: rest =>
      let others := stepAny literalSeparators path rest reach
      if allVacuous branch then others
      else (stepAll literalSeparators path branch reach).either others

end

/-- Whether the text of a path ends in a file name. -/
def hasFileName (path : Bytes) : Bool :=
  !path.isEmpty && (path.reverse.takeWhile (· != separator)).reverse != [0x2e, 0x2e]

/-- Whether a pattern matches a whole path. A double star alone matches every path. -/
def isMatch (glob : Glob) (path : String) : Bool :=
  let text := bytesOf path
  match glob.tokens with
  | [.leadingDirs] => true
  | tokens =>
      (stepAll glob.style.separatorsAreLiteral text tokens (Reach.start text)).atEnd &&
        (hasFileName text || !glob.needsFileName)

end Glob

end ScriptLint
