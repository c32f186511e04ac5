import ScriptLint.Rule.Basic

/-!
# Subscriptions that are never cancelled

A script subscribes to a signal of a target with `target.connect("signal"` and cancels that with
`target.disconnect("signal"`. A subscription is the pair of target and signal. One that no line of
the script cancels, before or after, is reported where it is first made.
-/

namespace ScriptLint

/-- A signal of a dotted target. -/
structure Subscription where
  target : List Char
  signal : List Char
  deriving DecidableEq, Repr

namespace Subscription

/-- A target starts with an ASCII letter or an underscore. -/
def isTargetStart (c : Char) : Bool :=
  c.isAlpha || c == '_'

def isTargetPart (c : Char) : Bool :=
  isWord c || c == '.'

/-- The signal named by the text after an opening parenthesis, and the text after the signal. -/
def signal? (text : List Char) : Option (List Char × List Char) :=
  match Pattern.strip [.gap, .one isQuote] text with
  | none => none
  | some rest =>
      match rest.takeWhile (fun c => !isQuote c), rest.dropWhile (fun c => !isQuote c) with
      | _ :: _, [] => none
      | [], _ => none
      | name, _ :: after => some (name, after)

/-- The target of a dotted call, which is the call without the method at its end. -/
def targetOf? (method : String) (call : List Char) : Option (List Char) :=
  (stripWord (· == ·) method.toList.reverse call.reverse).map List.reverse

/-- The subscription at the very start of a text, and the text after it. The dotted call is the
whole run up to the parenthesis, so its method can only be its end. -/
def atStart? (method : String) : List Char → Option (Subscription × List Char)
  | [] => none
  | c :: rest =>
      if isTargetStart c then
        match targetOf? method (rest.takeWhile isTargetPart),
            Pattern.strip [.exactly "("] (rest.dropWhile isTargetPart) with
        | some tail, some after =>
            (signal? after).map fun found =>
              ({ target := c :: tail, signal := found.1 }, found.2)
        | _, _ => none
      else none

/-- How many of the characters after `c` can start no subscription if `c` starts none. A run has one
end, so if its first possible target fails there, all targets further inside fail as well. -/
def hopeless (c : Char) (rest : List Char) : Nat :=
  if isTargetStart c then (rest.takeWhile isTargetPart).length else 0

/-- The subscriptions of a text from left to right. The first `skipped` characters cannot start one,
or they belong to one already found. -/
def allFrom (method : String) (skipped : Nat) : List Char → List Subscription
  | [] => []
  | c :: rest =>
      match skipped with
      | n + 1 => allFrom method n rest
      | 0 =>
          match atStart? method (c :: rest) with
          | some (found, after) =>
              found :: allFrom method (rest.length - after.length) rest
          | none => allFrom method (hopeless c rest) rest

def madeIn (line : Line) : List Subscription :=
  allFrom ".connect" 0 line

def cancelledIn (line : Line) : List Subscription :=
  allFrom ".disconnect" 0 line

/-- The subscriptions that the lines make, each with the line that makes it. -/
def made (lines : List (Nat × Line)) : List (Subscription × Nat × Line) :=
  lines.flatMap fun entry => (madeIn entry.2).map fun found => (found, entry)

/-- Keeps the first entry of every subscription. -/
def firstOfEach (known : List Subscription) :
    List (Subscription × Nat × Line) → List (Subscription × Nat × Line)
  | [] => []
  | entry :: rest =>
      if known.contains entry.1 then firstOfEach known rest
      else entry :: firstOfEach (entry.1 :: known) rest

def hit (entry : Subscription × Nat × Line) : Hit where
  line := entry.2.1
  message := "Signal '" ++ String.ofList entry.1.signal ++ "' connected on '" ++
    String.ofList entry.1.target ++ "' but never disconnected. " ++
    "Consider disconnecting in _exit_tree() to prevent memory leaks"
  snippet := entry.2.2.snippet

def scan (lines : List Line) : List Hit :=
  let spoken := (numbered 1 lines).filter fun entry => !entry.2.isComment
  let cancelled := spoken.flatMap fun entry => cancelledIn entry.2
  ((firstOfEach [] (made spoken)).filter fun entry => !cancelled.contains entry.1).map hit

/-- Subscriptions should be cancelled when a node goes away. -/
def rule : Rule where
  id := "P003"
  name := "Signal Not Disconnected"
  description := "Signals connected with connect() should be disconnected in cleanup to " ++
    "prevent memory leaks"
  severity := .info
  category := .performance
  scan := scan

end Subscription

end ScriptLint
