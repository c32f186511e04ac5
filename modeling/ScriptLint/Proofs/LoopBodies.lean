import ScriptLint.Proofs.Rule.Surroundings
import ScriptLint.Proofs.WellFormedFindings

/-!
# What is reported in the bodies of loops

Two rules report lines in loops: expensive work in the loops of a frame callback, and strings that
grow in a loop. Both walk down the code lines with a stack of open loops. What they report is said
here without the stack, by the lines before the reported one: there is a header above it, and all
lines from there on are indented deeper than the header.

The rules differ in what a function declaration does. For the first it decides whether anything is
reported from there on and leaves the loops alone. For the second it ends all loops, however deep
it stands.
-/

namespace ScriptLint

/-- A line after some others stands in the body of a loop whose header is among them. -/
def StandsInLoop (before : List (Nat × Line)) (entry : Nat × Line) : Prop :=
  ∃ outside header body, before = outside ++ header :: body ∧ OpensLoop header.2.trim ∧
    ∀ line ∈ body ++ [entry], header.2.width < line.2.width

/-- A line after some others stands in the body of a loop whose header is among them, with no
function declared since the header. -/
def StandsInLoopOfFunction (before : List (Nat × Line)) (entry : Nat × Line) : Prop :=
  ∃ outside header body, before = outside ++ header :: body ∧ OpensLoop header.2.trim ∧
    ∀ line ∈ body ++ [entry], header.2.width < line.2.width ∧
      ∀ name, ¬ DeclaresFunction line.2.trim name

/-! ## Expensive work -/

/-- The name of a frame callback, whatever the case of its letters. -/
def IsCallbackName (name : List Char) : Prop :=
  name.map Char.toLower = "_process".toList ∨
    name.map Char.toLower = "_physics_process".toList

theorem isFrameCallback_iff {name : List Char} :
    isFrameCallback name = true ↔ IsCallbackName name := by
  have hprocess : "_process".toList.map Char.toLower = "_process".toList := by decide
  have hphysics : "_physics_process".toList.map Char.toLower = "_physics_process".toList := by
    decide
  simp only [isFrameCallback, frameCallbacks, List.any_cons, List.any_nil, Bool.or_false,
    Bool.or_eq_true, sameName, String.toList_ofList, beq_iff_eq, hprocess, hphysics]
  exact or_congr eq_comm eq_comm

namespace FrameLoop

theorem mem_hits_iff {state : Option (List Char) × LoopStack} {entry : Nat × Line}
    {found : Hit} :
    found ∈ scanner.hits state entry ↔
      ∃ name, callbackAt state.1 entry.2 = some name ∧
        (state.2.close entry.2.width).isEmpty = false ∧ isExpensive entry.2 = true ∧
        found = hit name entry := by
  simp only [scanner]
  cases callbackAt state.1 entry.2 with
  | none => simp
  | some name =>
      dsimp only
      split
      · next h =>
          rw [Bool.and_eq_true, Bool.not_eq_true'] at h
          simp [h.1, h.2]
      · next h =>
          rw [Bool.and_eq_true, Bool.not_eq_true'] at h
          constructor
          · intro hmem
            cases hmem
          · rintro ⟨_, -, hopen, hexpensive, -⟩
            exact absurd ⟨hopen, hexpensive⟩ h

/-- No line ends loops by what it is. -/
theorem stateAfter_eq (seen : List (Nat × Line)) :
    scanner.stateAfter (none, []) seen =
      (callbackAfter seen, LoopStack.openAfter (fun _ => false) seen) := by
  induction seen using List.reverseRecOn with
  | nil => rfl
  | append_singleton seen entry ih =>
      rw [Scanner.stateAfter_concat, ih, callbackAfter_concat, LoopStack.openAfter_concat]
      rfl

theorem isEmpty_close_eq_false_iff {before : List (Nat × Line)} {entry : Nat × Line} :
    ((LoopStack.openAfter (fun _ => false) before).close entry.2.width).isEmpty = false ↔
      StandsInLoop before entry := by
  have h := LoopStack.isEmpty_around_eq_false_iff (fun _ => false) before entry
  simpa [LoopStack.around, StandsInLoop] using h

end FrameLoop

/-- **Expensive work is reported exactly in the open loops of frame callbacks.** A code line is
reported if the last function declared up to it is a callback, if it stands in the body of a loop,
whichever function that was opened in, and if it does expensive work. The message names the callback
as it is spelled where it is declared. Each line is reported once, in the order of lines. -/
theorem frameLoop_check_exact (path text : String) :
    (∀ finding, finding ∈ FrameLoop.rule.check path text ↔
      ∃ before entry after name,
        codeLines (linesOf text) = before ++ entry :: after ∧
        (LastDeclares (before ++ [entry]) name ∧ IsCallbackName name) ∧
        StandsInLoop before entry ∧
        FrameLoop.DoesExpensiveWork entry.2 ∧
        finding = FrameLoop.rule.finding path
          { line := entry.1
            message := "Expensive operation in loop within " ++ String.ofList name ++
              "(). Cache results outside the loop"
            snippet := entry.2.snippet }) ∧
    (FrameLoop.rule.check path text).Pairwise fun a b => a.line < b.line := by
  constructor
  · intro finding
    simp only [Rule.check, List.mem_map, FrameLoop.scan_eq_run, Scanner.mem_run_iff,
      FrameLoop.mem_hits_iff, FrameLoop.stateAfter_eq, FrameLoop.isEmpty_close_eq_false_iff,
      FrameLoop.isExpensive_iff, ← callbackAfter_concat, callbackAfter_eq_some_iff,
      isFrameCallback_iff]
    constructor
    · rintro ⟨_, ⟨before, entry, after, hcode, name, hcallback, hloop, hwork, rfl⟩, rfl⟩
      exact ⟨before, entry, after, name, hcode, hcallback, hloop, hwork, rfl⟩
    · rintro ⟨before, entry, after, name, hcode, hcallback, hloop, hwork, rfl⟩
      exact ⟨_, ⟨before, entry, after, hcode, name, hcallback, hloop, hwork, rfl⟩, rfl⟩
  · rw [Rule.check, FrameLoop.scan_eq_run]
    exact List.pairwise_map.mpr
      (FrameLoop.scanner_reportsEach.wellFormedHits _ (linesOf text)).ordered

/-! ## Growing strings -/

namespace Concatenation

theorem mem_hits_iff {loops : LoopStack} {entry : Nat × Line} {found : Hit} :
    found ∈ scanner.hits loops entry ↔
      (loopsAt loops entry.2).isEmpty = false ∧ addition.occursIn entry.2 = true ∧
        found = hit entry := by
  simp only [scanner]
  split
  · next h =>
      rw [Bool.and_eq_true, Bool.not_eq_true'] at h
      simp [h.1, h.2]
  · next h =>
      rw [Bool.and_eq_true, Bool.not_eq_true'] at h
      constructor
      · intro hmem
        cases hmem
      · rintro ⟨hopen, hadds, -⟩
        exact absurd ⟨hopen, hadds⟩ h

def declares (line : Line) : Bool :=
  (declaredFunction? line.trim).isSome

theorem declares_eq_false_iff {line : Line} :
    declares line = false ↔ ∀ name, ¬ DeclaresFunction line.trim name := by
  rw [declares, Option.isSome_eq_false_iff, Option.isNone_iff_eq_none,
    declaredFunction?_eq_none_iff]

/-- A function declaration ends all loops. -/
theorem stateAfter_eq (seen : List (Nat × Line)) :
    scanner.stateAfter [] seen = LoopStack.openAfter declares seen := by
  induction seen using List.reverseRecOn with
  | nil => rfl
  | append_singleton seen entry ih =>
      rw [Scanner.stateAfter_concat, ih, LoopStack.openAfter_concat]
      rfl

theorem isEmpty_loopsAt_eq_false_iff {before : List (Nat × Line)} {entry : Nat × Line} :
    (loopsAt (LoopStack.openAfter declares before) entry.2).isEmpty = false ↔
      StandsInLoopOfFunction before entry := by
  have h := LoopStack.isEmpty_around_eq_false_iff declares before entry
  simp only [declares_eq_false_iff] at h
  exact h

end Concatenation

/-- **Growing strings are reported exactly in the loops of the current function.** A code line is
reported if it stands in the body of a loop with no function declared since the header, and if it
adds a string literal to a word. Each line is reported once, in the order of lines. -/
theorem concatenation_check_exact (path text : String) :
    (∀ finding, finding ∈ Concatenation.rule.check path text ↔
      ∃ before entry after,
        codeLines (linesOf text) = before ++ entry :: after ∧
        StandsInLoopOfFunction before entry ∧
        Concatenation.AddsText entry.2 ∧
        finding = Concatenation.rule.finding path
          { line := entry.1
            message := "String concatenation in loop detected. " ++
              "Use Array and join() for better performance"
            snippet := entry.2.snippet }) ∧
    (Concatenation.rule.check path text).Pairwise fun a b => a.line < b.line := by
  constructor
  · intro finding
    simp only [Rule.check, List.mem_map, Concatenation.scan_eq_run, Scanner.mem_run_iff,
      Concatenation.mem_hits_iff, Concatenation.stateAfter_eq,
      Concatenation.isEmpty_loopsAt_eq_false_iff, Concatenation.occursIn_addition_iff]
    constructor
    · rintro ⟨_, ⟨before, entry, after, hcode, hloop, hadds, rfl⟩, rfl⟩
      exact ⟨before, entry, after, hcode, hloop, hadds, rfl⟩
    · rintro ⟨before, entry, after, hcode, hloop, hadds, rfl⟩
      exact ⟨_, ⟨before, entry, after, hcode, hloop, hadds, rfl⟩, rfl⟩
  · rw [Rule.check, Concatenation.scan_eq_run]
    exact List.pairwise_map.mpr
      (Concatenation.scanner_reportsEach.wellFormedHits _ (linesOf text)).ordered

end ScriptLint
