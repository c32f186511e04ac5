import ScriptLint.Proofs.Rule.Recognition
import ScriptLint.Proofs.Rule.Run

/-!
# The loops and the function around a line

A scanner knows what stands around a line from a state that it carries from line to line. Here the
state is described by the lines alone. The callback around a line is the last function declared, if
that is a callback. A loop is open after some code exactly if all lines since its header are
indented deeper than the header, and none of them is of a kind that ends loops.

The second needs that the stack of open loops is nested, each header narrower than the ones on top
of it: only then does closing loops from the top close all that are not narrower than a line.
-/

namespace ScriptLint

/-! ## Stacks of loops -/

namespace LoopStack

/-- Each open loop stands inside the next one, which has a narrower header. -/
def IsNested (loops : LoopStack) : Prop :=
  loops.Pairwise fun inner outer => outer < inner

variable {loops : LoopStack}

/-- Closing from the top leaves exactly the narrower headers, wherever they stand. -/
theorem IsNested.close_eq_filter (h : loops.IsNested) (width : Nat) :
    loops.close width = loops.filter fun header => header < width := by
  induction loops with
  | nil => rfl
  | cons header outer ih =>
      obtain ⟨hheader, houter⟩ := List.pairwise_cons.mp h
      rw [close, List.dropWhile_cons, List.filter_cons]
      by_cases hopen : header < width
      · -- everything below is narrower still, so nothing is filtered out
        have hall : ∀ other ∈ outer, decide (other < width) = true := by
          intro other hother
          exact decide_eq_true (Nat.lt_trans (hheader other hother) hopen)
        rw [if_neg (by simpa using hopen), if_pos (by simpa using hopen),
          List.filter_eq_self.mpr hall]
      · rw [if_pos (by simpa using hopen), if_neg (by simpa using hopen)]
        exact ih houter

theorem IsNested.mem_close (h : loops.IsNested) {width header : Nat} :
    header ∈ loops.close width ↔ header ∈ loops ∧ header < width := by
  rw [h.close_eq_filter, List.mem_filter, decide_eq_true_eq]

theorem IsNested.close (h : loops.IsNested) (width : Nat) : (loops.close width).IsNested :=
  h.sublist (List.dropWhile_sublist _)

/-- A header that is wider than all open ones may be opened on top of them. -/
theorem IsNested.enter (h : loops.IsNested) {line : Line}
    (hwider : ∀ header ∈ loops, header < line.width) : (loops.enter line).IsNested := by
  rw [LoopStack.enter]
  split
  · exact List.pairwise_cons.mpr ⟨hwider, h⟩
  · exact h

theorem mem_enter {line : Line} {header : Nat} :
    header ∈ loops.enter line ↔
      (OpensLoop line.trim ∧ line.width = header) ∨ header ∈ loops := by
  rw [enter, ← isLoopHeader_iff]
  by_cases h : isLoopHeader line.trim = true
  · rw [if_pos h, List.mem_cons]
    simp [h, eq_comm]
  · rw [if_neg h]
    simp [h]

/-- The loops around a line, given those open before it. A line that passes `ends` ends them all. -/
def around (ends : Line → Bool) (line : Line) (loops : LoopStack) : LoopStack :=
  if ends line then [] else loops.close line.width

/-- The loops open after some code. -/
def openAfter (ends : Line → Bool) (seen : List (Nat × Line)) : LoopStack :=
  seen.foldl (fun loops entry => (loops.around ends entry.2).enter entry.2) []

variable {ends : Line → Bool}

theorem openAfter_concat (seen : List (Nat × Line)) (entry : Nat × Line) :
    openAfter ends (seen ++ [entry]) =
      ((openAfter ends seen).around ends entry.2).enter entry.2 := by
  rw [openAfter, List.foldl_append]
  rfl

theorem IsNested.around (h : loops.IsNested) (line : Line) :
    (loops.around ends line).IsNested := by
  rw [LoopStack.around]
  split
  · exact .nil
  · exact h.close line.width

theorem IsNested.mem_around (h : loops.IsNested) {line : Line} {header : Nat} :
    header ∈ loops.around ends line ↔
      header ∈ loops ∧ header < line.width ∧ ends line = false := by
  rw [LoopStack.around]
  cases ends line with
  | true => simp
  | false => simp [h.mem_close]

/-- **The open loops are nested**, whatever the code is. -/
theorem isNested_openAfter (seen : List (Nat × Line)) : (openAfter ends seen).IsNested := by
  induction seen using List.reverseRecOn with
  | nil => exact .nil
  | append_singleton seen entry ih =>
      rw [openAfter_concat]
      refine (ih.around entry.2).enter ?_
      intro header hheader
      exact (ih.mem_around.mp hheader).2.1

end LoopStack

/-! ## Loops open after some code -/

/-- The last line is split off at an entry with `P`, or it comes after such an entry. -/
theorem exists_split_concat_iff {α : Type} {P : α → Prop} {Q : α → α → Prop} {seen : List α}
    {last : α} :
    (∃ before entry after, seen ++ [last] = before ++ entry :: after ∧ P entry ∧
        ∀ later ∈ after, Q entry later) ↔
      P last ∨ ∃ before entry after, seen = before ++ entry :: after ∧ P entry ∧
        (∀ later ∈ after, Q entry later) ∧ Q entry last := by
  constructor
  · rintro ⟨before, entry, after, hsplit, hentry, hlater⟩
    rcases List.eq_nil_or_concat' after with rfl | ⟨front, final, rfl⟩
    · obtain ⟨-, hsame⟩ := List.append_inj' hsplit rfl
      cases hsame
      exact Or.inl hentry
    · rw [← List.cons_append, ← List.append_assoc] at hsplit
      obtain ⟨hseen, hsame⟩ := List.append_inj' hsplit rfl
      cases hsame
      rw [List.forall_mem_append, List.forall_mem_singleton] at hlater
      exact Or.inr ⟨before, entry, front, hseen, hentry, hlater⟩
  · rintro (hlast | ⟨before, entry, after, rfl, hentry, hlater, hlast⟩)
    · exact ⟨seen, last, [], rfl, hlast, List.forall_mem_nil _⟩
    · refine ⟨before, entry, after ++ [last], by simp, hentry, ?_⟩
      rw [List.forall_mem_append, List.forall_mem_singleton]
      exact ⟨hlater, hlast⟩

namespace LoopStack

variable {ends : Line → Bool}

/-- **A loop is open exactly while all lines are deeper than its header** and none ends loops. -/
theorem mem_openAfter_iff {seen : List (Nat × Line)} {width : Nat} :
    width ∈ openAfter ends seen ↔
      ∃ before header body, seen = before ++ header :: body ∧
        (OpensLoop header.2.trim ∧ header.2.width = width) ∧
        ∀ entry ∈ body, header.2.width < entry.2.width ∧ ends entry.2 = false := by
  induction seen using List.reverseRecOn with
  | nil => simp [openAfter]
  | append_singleton seen entry ih =>
      rw [openAfter_concat, mem_enter, (isNested_openAfter seen).mem_around, ih,
        exists_split_concat_iff]
      refine or_congr_right ?_
      constructor
      · rintro ⟨⟨before, header, body, hseen, ⟨hopens, rfl⟩, hbody⟩, hentry⟩
        exact ⟨before, header, body, hseen, ⟨hopens, rfl⟩, hbody, hentry⟩
      · rintro ⟨before, header, body, hseen, ⟨hopens, rfl⟩, hbody, hentry⟩
        exact ⟨⟨before, header, body, hseen, ⟨hopens, rfl⟩, hbody⟩, hentry⟩

/-- A loop is open around a line if the line is deeper than its header as well. -/
theorem isEmpty_around_eq_false_iff (ends : Line → Bool) (before : List (Nat × Line))
    (entry : Nat × Line) :
    ((openAfter ends before).around ends entry.2).isEmpty = false ↔
      ∃ outside header body, before = outside ++ header :: body ∧ OpensLoop header.2.trim ∧
        ∀ line ∈ body ++ [entry], header.2.width < line.2.width ∧ ends line.2 = false := by
  rw [List.isEmpty_eq_false_iff_exists_mem]
  simp only [(isNested_openAfter before).mem_around, mem_openAfter_iff, List.forall_mem_append,
    List.forall_mem_singleton]
  constructor
  · rintro ⟨width, ⟨outside, header, body, hbefore, ⟨hopens, rfl⟩, hbody⟩, hentry⟩
    exact ⟨outside, header, body, hbefore, hopens, hbody, hentry⟩
  · rintro ⟨outside, header, body, hbefore, hopens, hbody, hentry⟩
    exact ⟨header.2.width, ⟨outside, header, body, hbefore, ⟨hopens, rfl⟩, hbody⟩, hentry⟩

end LoopStack

/-! ## The last function -/

/-- The last function declared in some code has the given name. -/
def LastDeclares (seen : List (Nat × Line)) (name : List Char) : Prop :=
  ∃ before declaration after, seen = before ++ declaration :: after ∧
    DeclaresFunction declaration.2.trim name ∧
    ∀ line ∈ after, ∀ other, ¬ DeclaresFunction line.2.trim other

theorem lastDeclares_concat_iff {seen : List (Nat × Line)} {entry : Nat × Line}
    {name : List Char} :
    LastDeclares (seen ++ [entry]) name ↔
      DeclaresFunction entry.2.trim name ∨
        (LastDeclares seen name ∧ ∀ other, ¬ DeclaresFunction entry.2.trim other) := by
  rw [LastDeclares, exists_split_concat_iff]
  refine or_congr_right ?_
  constructor
  · rintro ⟨before, declaration, after, hseen, hdeclares, hafter, hother⟩
    exact ⟨⟨before, declaration, after, hseen, hdeclares, hafter⟩, hother⟩
  · rintro ⟨⟨before, declaration, after, hseen, hdeclares, hafter⟩, hother⟩
    exact ⟨before, declaration, after, hseen, hdeclares, hafter, hother⟩

/-- The callback around the line that comes after some code, unless the line declares one. -/
def callbackAfter (seen : List (Nat × Line)) : Option (List Char) :=
  seen.foldl (fun callback entry => callbackAt callback entry.2) none

theorem callbackAfter_concat (seen : List (Nat × Line)) (entry : Nat × Line) :
    callbackAfter (seen ++ [entry]) = callbackAt (callbackAfter seen) entry.2 := by
  rw [callbackAfter, List.foldl_append]
  rfl

theorem callbackAt_eq_some_iff {before : Option (List Char)} {line : Line} {name : List Char} :
    callbackAt before line = some name ↔
      (DeclaresFunction line.trim name ∧ isFrameCallback name = true) ∨
        (before = some name ∧ ∀ other, ¬ DeclaresFunction line.trim other) := by
  rw [callbackAt, ← declaredFunction?_eq_some_iff, ← declaredFunction?_eq_none_iff]
  cases declaredFunction? line.trim with
  | none => simp
  | some declared =>
      by_cases h : isFrameCallback declared = true
      · simp only [h, if_true, Option.some.injEq, reduceCtorEq, and_false, or_false]
        constructor
        · rintro rfl
          exact ⟨rfl, h⟩
        · exact And.left
      · simp only [h, Bool.false_eq_true, if_false, Option.some.injEq, reduceCtorEq, and_false,
          or_false, false_iff]
        rintro ⟨rfl, hcallback⟩
        exact h hcallback

/-- **The callback around a line is the last function declared**, if that is a callback. -/
theorem callbackAfter_eq_some_iff {seen : List (Nat × Line)} {name : List Char} :
    callbackAfter seen = some name ↔ LastDeclares seen name ∧ isFrameCallback name = true := by
  induction seen using List.reverseRecOn with
  | nil => simp [callbackAfter, LastDeclares]
  | append_singleton seen entry ih =>
      rw [callbackAfter_concat, callbackAt_eq_some_iff, ih, lastDeclares_concat_iff]
      constructor
      · rintro (⟨hdeclares, hcallback⟩ | ⟨⟨hlast, hcallback⟩, hother⟩)
        · exact ⟨Or.inl hdeclares, hcallback⟩
        · exact ⟨Or.inr ⟨hlast, hother⟩, hcallback⟩
      · rintro ⟨hdeclares | ⟨hlast, hother⟩, hcallback⟩
        · exact Or.inl ⟨hdeclares, hcallback⟩
        · exact Or.inr ⟨⟨hlast, hcallback⟩, hother⟩

/-! ## Scanners -/

namespace Scanner

variable {σ : Type} (scanner : Scanner σ)

theorem stateAfter_concat (state : σ) (seen : List (Nat × Line)) (entry : Nat × Line) :
    scanner.stateAfter state (seen ++ [entry]) =
      scanner.step (scanner.stateAfter state seen) entry := by
  rw [stateAfter, List.foldl_append]
  rfl

/-- What a run reports is what is reported at one of the lines, in the state after those before. -/
theorem mem_run_iff {state : σ} {entries : List (Nat × Line)} {hit : Hit} :
    hit ∈ scanner.run state entries ↔
      ∃ before entry after, entries = before ++ entry :: after ∧
        hit ∈ scanner.hits (scanner.stateAfter state before) entry := by
  induction entries generalizing state with
  | nil => simp [run]
  | cons first rest ih =>
      rw [run, List.mem_append, ih]
      constructor
      · rintro (h | ⟨before, entry, after, rfl, h⟩)
        · exact ⟨[], first, rest, rfl, h⟩
        · exact ⟨first :: before, entry, after, rfl, h⟩
      · rintro ⟨before, entry, after, hsplit, h⟩
        cases before with
        | nil =>
            obtain ⟨rfl, rfl⟩ := List.cons.inj hsplit
            exact Or.inl h
        | cons head before =>
            obtain ⟨rfl, rfl⟩ := List.cons.inj hsplit
            exact Or.inr ⟨before, entry, after, rfl, h⟩

end Scanner

end ScriptLint
