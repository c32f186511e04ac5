/-!
# Cutting at marks

A sequence with marks in it is a list of parts: the lines of a text, the names in a path, the ids
in a list. There is always one part more than there are marks.
-/

namespace ScriptLint

variable {α : Type} [DecidableEq α]

/-- Cuts a sequence at its marks; `current` holds the part being read, last element first. -/
def cutFrom (mark : α) (current : List α) : List α → List (List α)
  | [] => [current.reverse]
  | c :: rest =>
      if c = mark then current.reverse :: cutFrom mark [] rest
      else cutFrom mark (c :: current) rest

/-- The parts between the marks of a sequence. -/
def cutAt (mark : α) (sequence : List α) : List (List α) :=
  cutFrom mark [] sequence

theorem cutFrom_ne_nil (mark : α) (current sequence : List α) :
    cutFrom mark current sequence ≠ [] := by
  induction sequence generalizing current with
  | nil => simp [cutFrom]
  | cons c rest ih =>
      by_cases h : c = mark
      · simp [cutFrom, h]
      · simpa [cutFrom, h] using ih (c :: current)

theorem cutAt_ne_nil (mark : α) (sequence : List α) : cutAt mark sequence ≠ [] :=
  cutFrom_ne_nil mark [] sequence

end ScriptLint
