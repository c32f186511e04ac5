/-!
# The order of texts

Texts are ordered character by character, and sequences of texts are ordered text by text. A text
comes before all of its continuations.
-/

namespace ScriptLint

/-- Whether one sequence equals another or comes before it, where `before` orders the elements. -/
def lexLe {α : Type} [DecidableEq α] (before : α → α → Bool) : List α → List α → Bool
  | [], _ => true
  | _ :: _, [] => false
  | a :: as, b :: bs => if a = b then lexLe before as bs else before a b

/-- Whether one text equals another or comes before it. -/
def textLe (a b : List Char) : Bool :=
  lexLe (fun x y => decide (x < y)) a b

/-- Whether one sequence of texts equals another or comes before it. -/
def textsLe (a b : List (List Char)) : Bool :=
  lexLe textLe a b

end ScriptLint
