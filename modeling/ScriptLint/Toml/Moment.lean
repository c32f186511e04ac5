import ScriptLint.Text.Digits
import ScriptLint.Toml.Basic

/-!
# TOML dates and times

A moment is a date, a time, or a date and a time with an optional offset. Seconds may be left out,
and a minute may have a leap second.
-/

namespace ScriptLint

namespace Toml

/-- The number that exactly `count` decimal digits at the start of a text spell. -/
def fixedDigits? (count : Nat) (text : List Char) : Option (Nat × List Char) :=
  let read := text.take count
  if read.length = count && read.all Char.isDigit then
    some (valueOfDigits read, text.drop count)
  else none

def skipChar? (wanted : Char) : List Char → Option (List Char)
  | [] => none
  | c :: rest => if c = wanted then some rest else none

def daysIn (year month : Nat) : Nat :=
  if month = 2 then
    if (year % 4 = 0 && year % 100 != 0) || year % 400 = 0 then 29 else 28
  else if [4, 6, 9, 11].contains month then 30 else 31

/-- What follows a date at the start of a text. -/
def afterDate? (text : List Char) : Option (List Char) := do
  let (year, rest) ← fixedDigits? 4 text
  let rest ← skipChar? '-' rest
  let (month, rest) ← fixedDigits? 2 rest
  let rest ← skipChar? '-' rest
  let (day, rest) ← fixedDigits? 2 rest
  if 1 ≤ month && month ≤ 12 && 1 ≤ day && day ≤ daysIn year month then some rest else none

/-- What follows hours and minutes at the start of a text. -/
def afterMinutes? (text : List Char) : Option (List Char) := do
  let (hour, rest) ← fixedDigits? 2 text
  let rest ← skipChar? ':' rest
  let (minute, rest) ← fixedDigits? 2 rest
  if hour ≤ 23 && minute ≤ 59 then some rest else none

/-- What follows a fraction of a second, if there is one. -/
def afterFraction? (text : List Char) : Option (List Char) :=
  match text with
  | '.' :: rest =>
      if (rest.takeWhile Char.isDigit).isEmpty then none else some (rest.dropWhile Char.isDigit)
  | _ => some text

/-- What follows a time at the start of a text. -/
def afterTime? (text : List Char) : Option (List Char) := do
  let rest ← afterMinutes? text
  match rest with
  | ':' :: rest =>
      let (second, rest) ← fixedDigits? 2 rest
      if second ≤ 60 then afterFraction? rest else none
  | _ => some rest

/-- What follows an offset, if there is one. -/
def afterOffset? (text : List Char) : Option (List Char) :=
  match text with
  | [] => some []
  | c :: rest =>
      if c = 'Z' || c = 'z' then some rest
      else if c = '+' || c = '-' then afterMinutes? rest
      else some text

def isDelimiter (c : Char) : Bool :=
  c == 'T' || c == 't' || c == ' '

/-- Whether a text is a date, possibly with a time and an offset. -/
def isDated (text : List Char) : Bool :=
  match afterDate? text with
  | none => false
  | some [] => true
  | some (c :: rest) =>
      isDelimiter c && ((afterTime? rest).bind afterOffset?).any List.isEmpty

def moment? (text : List Char) : Option Toml :=
  if isDated text || (afterTime? text).any List.isEmpty then
    some (.moment (String.ofList text))
  else none

end Toml

end ScriptLint
