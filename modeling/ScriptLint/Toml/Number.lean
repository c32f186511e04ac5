import ScriptLint.Text.Digits
import ScriptLint.Toml.Basic

/-!
# TOML numbers

Digits may be grouped by single underscores, each between two digits. A decimal number has no
leading zero. Integers must fit 128 bits and numbers with a fraction must not exceed the largest
finite double.
-/

namespace ScriptLint

namespace Toml

/-- The value of a digit in the given base. -/
def digit? (base : Nat) (c : Char) : Option Nat :=
  (hexValue? c).filter fun value => value < base

/-- The digits of a group-separated number, given whether an underscore may stand next. -/
def ungroup (base : Nat) (afterDigit : Bool) : List Char → Option (List Char)
  | [] => if afterDigit then some [] else none
  | '_' :: rest => if afterDigit then ungroup base false rest else none
  | c :: rest =>
      if (digit? base c).isSome then (ungroup base true rest).map (c :: ·) else none

def digits? (base : Nat) (text : List Char) : Option (List Char) :=
  ungroup base false text

def valueOf (base : Nat) (digits : List Char) : Nat :=
  digits.foldl (fun value c => base * value + (digit? base c).getD 0) 0

/-- The digits of a decimal number without a leading zero. -/
def decimal? (text : List Char) : Option (List Char) :=
  match text with
  | '0' :: _ :: _ => none
  | _ => digits? 10 text

/-- Splits off a leading sign. -/
def splitSign : List Char → Option Char × List Char
  | '+' :: rest => (some '+', rest)
  | '-' :: rest => (some '-', rest)
  | text => (none, text)

def integerInRange (value : Int) : Option Toml :=
  if -(Nat.pow 2 127 : Int) ≤ value && value < (Nat.pow 2 128 : Int) then some (.integer value)
  else none

def integer? (text : List Char) : Option Toml :=
  match text with
  | '0' :: 'x' :: rest => (digits? 16 rest).bind fun read => integerInRange (valueOf 16 read)
  | '0' :: 'o' :: rest => (digits? 8 rest).bind fun read => integerInRange (valueOf 8 read)
  | '0' :: 'b' :: rest => (digits? 2 rest).bind fun read => integerInRange (valueOf 2 read)
  | _ =>
      match splitSign text with
      | (some '-', rest) => (decimal? rest).bind fun read => integerInRange (-(valueOf 10 read))
      | (_, rest) => (decimal? rest).bind fun read => integerInRange (valueOf 10 read)

/-- Whether `mantissa · 10 ^ exponent` rounds to a finite double. -/
def isFinite (mantissa : List Char) (exponent : Int) : Bool :=
  let significant := mantissa.dropWhile (· == '0')
  let magnitude := significant.length + exponent
  if significant.isEmpty || magnitude < 300 then true
  else if magnitude > 320 then false
  else
    let limit := Nat.pow 2 1024 - Nat.pow 2 970
    if exponent ≥ 0 then valueOf 10 significant * Nat.pow 10 exponent.toNat < limit
    else valueOf 10 significant < limit * Nat.pow 10 (-exponent).toNat

/-- The exponent after its mark. -/
def exponent? (text : List Char) : Option Int :=
  match splitSign text with
  | (some '-', rest) => (digits? 10 rest).map fun read => -(valueOf 10 read : Int)
  | (_, rest) => (digits? 10 rest).map fun read => (valueOf 10 read : Int)

def isExponentMark (c : Char) : Bool :=
  c == 'e' || c == 'E'

/-- The digits after the point and the exponent, given the text after the integer part. -/
def fraction? (text : List Char) : Option (List Char × Int) :=
  let afterPoint? : Option (List Char × List Char) :=
    match text with
    | '.' :: rest =>
        (digits? 10 (rest.takeWhile fun c => !isExponentMark c)).map fun read =>
          (read, rest.dropWhile fun c => !isExponentMark c)
    | _ => some ([], text)
  match afterPoint? with
  | none => none
  | some (read, []) => some (read, 0)
  | some (read, c :: rest) =>
      if isExponentMark c then (exponent? rest).map fun exponent => (read, exponent) else none

def float? (text : List Char) : Option Toml :=
  let unsigned := (splitSign text).2
  if unsigned = "inf".toList || unsigned = "nan".toList then some (.float (String.ofList text))
  else
    let isPart (c : Char) : Bool := c != '.' && !isExponentMark c
    match decimal? (unsigned.takeWhile isPart), unsigned.dropWhile isPart with
    | some whole, c :: rest =>
        match fraction? (c :: rest) with
        | some (part, exponent) =>
            if isFinite (whole ++ part) (exponent - part.length) then
              some (.float (String.ofList text))
            else none
        | none => none
    | _, _ => none

end Toml

end ScriptLint
