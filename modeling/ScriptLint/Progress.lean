/-!
# Progress

A run counts the files it is done with. Copies of a counter are handles on the same count, so that a
value that is passed on stands for all of them.
-/

namespace ScriptLint

structure Progress where
  total : Nat
  completed : Nat := 0
  finished : Bool := false
  deriving DecidableEq, Repr

namespace Progress

/-- One more file is done. -/
def advance (progress : Progress) : Progress :=
  { progress with completed := progress.completed + 1 }

/-- Nothing more is shown. The count stays. -/
def finish (progress : Progress) : Progress :=
  { progress with finished := true }

end Progress

end ScriptLint
