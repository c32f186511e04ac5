import ScriptLint.Proofs.LoopBodies

/-!
# The order of open loops

The rules on loops carry a stack with the widths of the open headers. A line first closes headers
from the top, then it is looked at, and then it may open a header of its own. Kept up on every line,
this order of things makes the widths grow from the bottom of the stack to its top, and that is what
closing from the top relies on: it stops at the first header that is narrower than the line, which
closes all that is to be closed only if no wider header lies below.

The stack is in order at every point of both scans, between two lines and in the middle of one.
-/

namespace ScriptLint

namespace LoopStack

/-- The widths grow from the bottom to the top of the stack, so that closing and opening loops have
the meaning that they have for the headers as a whole. -/
structure IsOrdered (loops : LoopStack) : Prop where
  nested : loops.IsNested
  /-- Closing from the top leaves the headers that are narrower, and all of them. -/
  close_eq : ∀ width, loops.close width = loops.filter fun header => header < width
  /-- A header of the width up to which loops were closed may be opened. -/
  nested_open : ∀ width, IsNested (width :: loops.close width)
  isEmpty_close_iff : ∀ width,
    (loops.close width).isEmpty = true ↔ ∀ header ∈ loops, ¬ header < width

variable {loops : LoopStack}

theorem IsNested.open_close (h : loops.IsNested) (width : Nat) :
    IsNested (width :: loops.close width) := by
  refine List.pairwise_cons.mpr ⟨?_, h.close width⟩
  intro header hheader
  exact (h.mem_close.mp hheader).2

theorem IsNested.isEmpty_close_iff (h : loops.IsNested) (width : Nat) :
    (loops.close width).isEmpty = true ↔ ∀ header ∈ loops, ¬ header < width := by
  rw [List.isEmpty_iff, h.close_eq_filter, List.filter_eq_nil_iff]
  simp only [decide_eq_true_eq]

/-- All that a stack is used for follows from its being nested. -/
theorem IsNested.isOrdered (h : loops.IsNested) : loops.IsOrdered where
  nested := h
  close_eq := h.close_eq_filter
  nested_open := h.open_close
  isEmpty_close_iff := h.isEmpty_close_iff

end LoopStack

/-! ## Expensive work -/

namespace FrameLoop

/-- The scan goes on from the state that the lines so far leave behind. -/
theorem scan_eq_append {lines : List Line} {before after : List (Nat × Line)}
    (hcode : codeLines lines = before ++ after) :
    rule.scan lines = scanner.run (none, []) before ++
      scanFrom (scanner.stateAfter (none, []) before).1
        (scanner.stateAfter (none, []) before).2 after := by
  rw [scan_eq_run, hcode, Scanner.run_append, scanFrom_eq_run]

theorem isNested_stateAfter (seen : List (Nat × Line)) :
    (scanner.stateAfter (none, []) seen).2.IsNested := by
  rw [stateAfter_eq]
  exact LoopStack.isNested_openAfter seen

end FrameLoop

/-! ## Growing strings -/

namespace Concatenation

theorem scan_eq_append {lines : List Line} {before after : List (Nat × Line)}
    (hcode : codeLines lines = before ++ after) :
    rule.scan lines = scanner.run [] before ++
      scanFrom (scanner.stateAfter [] before) after := by
  rw [scan_eq_run, hcode, Scanner.run_append, scanFrom_eq_run]

theorem isNested_stateAfter (seen : List (Nat × Line)) :
    (scanner.stateAfter [] seen).IsNested := by
  rw [stateAfter_eq]
  exact LoopStack.isNested_openAfter seen

/-- A declaration leaves no loop, any other line those that it does not close. -/
theorem isNested_loopsAt {loops : LoopStack} (h : loops.IsNested) (line : Line) :
    (loopsAt loops line).IsNested := by
  show (loops.around declares line).IsNested
  exact h.around line

end Concatenation

/-- **The stack of open loops is in order at every point of a scan.** However the code lines of a
script are split into those that a scan has read and those still to come, the scan reports what it
found in the first and goes on from the stack that they leave behind. That stack is in order, and so
is the one that is left when the next line has closed loops. -/
theorem openLoops_ordered (text : String) {before after : List (Nat × Line)}
    (hcode : codeLines (linesOf text) = before ++ after) :
    (∃ callback loops,
      FrameLoop.scanner.stateAfter (none, []) before = (callback, loops) ∧
      FrameLoop.rule.scan (linesOf text) =
        FrameLoop.scanner.run (none, []) before ++ FrameLoop.scanFrom callback loops after ∧
      loops.IsOrdered ∧
      ∀ entry ∈ after.head?, (loops.close entry.2.width).IsOrdered) ∧
    ∃ loops,
      Concatenation.scanner.stateAfter [] before = loops ∧
      Concatenation.rule.scan (linesOf text) =
        Concatenation.scanner.run [] before ++ Concatenation.scanFrom loops after ∧
      loops.IsOrdered ∧
      ∀ entry ∈ after.head?, (Concatenation.loopsAt loops entry.2).IsOrdered := by
  constructor
  · have hnested := FrameLoop.isNested_stateAfter before
    refine ⟨_, _, rfl, FrameLoop.scan_eq_append hcode, hnested.isOrdered, ?_⟩
    intro entry _
    exact (hnested.close entry.2.width).isOrdered
  · have hnested := Concatenation.isNested_stateAfter before
    refine ⟨_, rfl, Concatenation.scan_eq_append hcode, hnested.isOrdered, ?_⟩
    intro entry _
    exact (Concatenation.isNested_loopsAt hnested entry.2).isOrdered

/-- Two loops, one in the other, and then a function as deep as the inner header. -/
def loopsBeforeFunction : String :=
  "while a:\n\tfor b in c:\n\tfunc d():"

def headersBeforeFunction : List (Nat × Line) :=
  [(1, "while a:".toList), (2, "\tfor b in c:".toList)]

/-- Both scans come to the declaration with two open headers. There the one closes the inner header
and the other both. -/
theorem openLoops_ordered_beforeFunction :
    codeLines (linesOf loopsBeforeFunction) =
        headersBeforeFunction ++ [(3, "\tfunc d():".toList)] ∧
      (FrameLoop.scanner.stateAfter (none, []) headersBeforeFunction = (none, [1, 0]) ∧
        LoopStack.IsOrdered [1, 0] ∧
        LoopStack.close (Line.width "\tfunc d():".toList) [1, 0] = [0] ∧
        LoopStack.IsOrdered [0]) ∧
      Concatenation.scanner.stateAfter [] headersBeforeFunction = [1, 0] ∧
      Concatenation.loopsAt [1, 0] "\tfunc d():".toList = [] ∧
      LoopStack.IsOrdered [] := by
  have hcode : codeLines (linesOf loopsBeforeFunction) =
      headersBeforeFunction ++ [(3, "\tfunc d():".toList)] := by decide +kernel
  have hcallback : FrameLoop.scanner.stateAfter (none, []) headersBeforeFunction =
      (none, [1, 0]) := by decide +kernel
  have hloops : Concatenation.scanner.stateAfter [] headersBeforeFunction = [1, 0] := by
    decide +kernel
  have hinner : LoopStack.close (Line.width "\tfunc d():".toList) [1, 0] = [0] := by
    decide +kernel
  have hboth : Concatenation.loopsAt [1, 0] "\tfunc d():".toList = [] := by decide +kernel
  obtain ⟨⟨_, loops, hstate, -, hordered, hclosed⟩, others, hothers, -, -, hended⟩ :=
    openLoops_ordered loopsBeforeFunction hcode
  obtain ⟨-, rfl⟩ := Prod.mk.inj (hcallback.symm.trans hstate)
  obtain rfl : [1, 0] = others := hloops.symm.trans hothers
  exact ⟨hcode, ⟨hcallback, hordered, hinner, hinner ▸ hclosed _ rfl⟩, hloops, hboth,
    hboth ▸ hended _ rfl⟩

end ScriptLint
