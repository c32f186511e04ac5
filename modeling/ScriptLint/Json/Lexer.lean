import ScriptLint.Json.Basic
import ScriptLint.Text.Digits

/-!
# The tokens of a JSON text

Every token is recognised at its first character, together with the number of characters that belong
to it. What matters about a string is the text it denotes, so the way in which its characters are
escaped is gone after this stage.
-/

namespace ScriptLint

namespace Json

def isJsonBlank (c : Char) : Bool :=
  c == ' ' || c == '\n' || c == '\t' || c == '\r'

/-- The number that four hexadecimal digits stand for. -/
def hexUnit? (a b c d : Char) : Option Nat :=
  match hexValue? a, hexValue? b, hexValue? c, hexValue? d with
  | some a, some b, some c, some d => some (((a * 16 + b) * 16 + c) * 16 + d)
  | _, _, _, _ => none

/-- The character that follows a backslash, for those that stand for a single character. -/
def simpleEscape? (c : Char) : Option Char :=
  match c with
  | '\x22' => some '\x22'
  | '\\' => some '\\'
  | '/' => some '/'
  | 'b' => some '\x08'
  | 'f' => some '\x0c'
  | 'n' => some '\n'
  | 'r' => some '\r'
  | 't' => some '\t'
  | _ => none

def isHighSurrogate (unit : Nat) : Bool :=
  0xd800 ≤ unit && unit ≤ 0xdbff

def isLowSurrogate (unit : Nat) : Bool :=
  0xdc00 ≤ unit && unit ≤ 0xdfff

/-- The character that the two halves of a surrogate pair stand for. -/
def pairedChar (high low : Nat) : Char :=
  Char.ofNat (0x10000 + (high - 0xd800) * 0x400 + (low - 0xdc00))

/-- What has been read of a string. -/
structure StringDraft where
  /-- The text so far, last character first, or none once half of a pair stood alone. -/
  text : Option (List Char) := some []
  /-- The first half of a surrogate pair, if it was just read. -/
  high : Option Nat := none

namespace StringDraft

def addChar (draft : StringDraft) (c : Char) : StringDraft :=
  match draft.high with
  | some _ => { text := none }
  | none => { text := draft.text.map (c :: ·) }

/-- Adds the unit that an escape of four digits stands for. -/
def addUnit (draft : StringDraft) (unit : Nat) : StringDraft :=
  match draft.high with
  | some high =>
      if isLowSurrogate unit then { text := draft.text.map (pairedChar high unit :: ·) }
      else { text := none, high := if isHighSurrogate unit then some unit else none }
  | none =>
      if isHighSurrogate unit then { draft with high := some unit }
      else if isLowSurrogate unit then { text := none }
      else { text := draft.text.map (Char.ofNat unit :: ·) }

def finish (draft : StringDraft) : Option String :=
  match draft.high with
  | some _ => none
  | none => draft.text.map fun read => String.ofList read.reverse

end StringDraft

/-- Reads a string up to its closing quotation mark. Also returns how many characters were read. -/
def stringFrom (draft : StringDraft) (used : Nat) : List Char → Option (Option String × Nat)
  | [] => none
  | '\\' :: 'u' :: a :: b :: c :: d :: rest =>
      match hexUnit? a b c d with
      | none => none
      | some unit => stringFrom (draft.addUnit unit) (used + 6) rest
  | '\\' :: c :: rest =>
      match simpleEscape? c with
      | none => none
      | some char => stringFrom (draft.addChar char) (used + 2) rest
  | c :: rest =>
      if c = '\x22' then some (draft.finish, used + 1)
      else if c.toNat < 0x20 then none
      else stringFrom (draft.addChar c) (used + 1) rest

def digitsOf (text : List Char) : List Char :=
  text.takeWhile Char.isDigit

/-- The digits before the point of a number. A leading zero stands alone. -/
def integerPart? (text : List Char) : Option (List Char) :=
  match text with
  | '0' :: _ => some ['0']
  | c :: _ => if c.isDigit then some (digitsOf text) else none
  | [] => none

/-- The point of a number and the digits after it. -/
def fractionPart? (text : List Char) : Option (List Char) :=
  match text with
  | '.' :: rest => if (digitsOf rest).isEmpty then none else some ('.' :: digitsOf rest)
  | _ => some []

def signPart (text : List Char) : List Char :=
  match text with
  | '+' :: _ => ['+']
  | '-' :: _ => ['-']
  | _ => []

/-- The exponent of a number with its mark and sign. -/
def exponentPart? (text : List Char) : Option (List Char) :=
  match text with
  | c :: rest =>
      if c = 'e' || c = 'E' then
        let sign := signPart rest
        let digits := digitsOf (rest.drop sign.length)
        if digits.isEmpty then none else some (c :: sign ++ digits)
      else some []
  | [] => some []

/-- The number at the start of a text and its length. -/
def numberAt? (text : List Char) : Option (JsonToken × Nat) := do
  let sign : List Char := if text.head? = some '-' then ['-'] else []
  let afterSign := text.drop sign.length
  let integer ← integerPart? afterSign
  let fraction ← fractionPart? (afterSign.drop integer.length)
  let exponent ← exponentPart? (afterSign.drop (integer.length + fraction.length))
  let literal := sign ++ integer ++ fraction ++ exponent
  if literal = integer then return (.natural (valueOfDigits integer), literal.length)
  else return (.number (String.ofList literal), literal.length)

/-- The literal word at the start of a text. -/
def wordAt? (word : String) (token : JsonToken) (text : List Char) : Option (JsonToken × Nat) :=
  if text.take word.length = word.toList then some (token, word.length) else none

/-- The token at the start of a text and its length. -/
def tokenAt? (text : List Char) : Option (JsonToken × Nat) :=
  match text with
  | [] => none
  | c :: rest =>
      match c with
      | '\x7b' => some (.openBrace, 1)
      | '\x7d' => some (.closeBrace, 1)
      | '[' => some (.openBracket, 1)
      | ']' => some (.closeBracket, 1)
      | ':' => some (.colon, 1)
      | ',' => some (.comma, 1)
      | '\x22' => (stringFrom {} 1 rest).map fun found => (.string found.1, found.2)
      | 'n' => wordAt? "null" .null text
      | 't' => wordAt? "true" (.bool true) text
      | 'f' => wordAt? "false" (.bool false) text
      | _ => numberAt? text

/-- The tokens of a text whose first `skipped` characters belong to a token already read. -/
def lexFrom (skipped : Nat) : List Char → Option (List JsonToken)
  | [] => some []
  | c :: rest =>
      match skipped with
      | n + 1 => lexFrom n rest
      | 0 =>
          if isJsonBlank c then lexFrom 0 rest
          else
            match tokenAt? (c :: rest) with
            | none => none
            | some (token, used) => (lexFrom (used - 1) rest).map (token :: ·)

/-- The tokens of a text, or none if it cannot be cut into tokens. -/
def lex (text : String) : Option (List JsonToken) :=
  lexFrom 0 text.toList

end Json

end ScriptLint
