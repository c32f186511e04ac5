import Mathlib.Data.List.Forall2
import ScriptLint.Text.Line

/-!
# Texts and their lines

Cutting a text into lines loses nothing: a text is the same thing as a nonempty sequence of lines
without line feeds. `joinLines` is the way back, so an edit of lines is an edit of a text. Two
texts with a line feed between them have the lines of the one followed by those of the other.
-/

namespace ScriptLint

/-! ## Cutting at marks -/

/-- Puts parts together with a mark between each two of them. -/
def joinAt {α : Type} (mark : α) : List (List α) → List α
  | [] => []
  | [part] => part
  | part :: rest => part ++ mark :: joinAt mark rest

theorem joinAt_cons {α : Type} (mark : α) (part : List α) {rest : List (List α)}
    (h : rest ≠ []) :
    joinAt mark (part :: rest) = part ++ mark :: joinAt mark rest := by
  cases rest with
  | nil => exact absurd rfl h
  | cons next rest => rfl

theorem notMem_joinAt {α : Type} {mark c : α} (hmark : c ≠ mark) {parts : List (List α)}
    (hparts : ∀ part ∈ parts, c ∉ part) : c ∉ joinAt mark parts := by
  induction parts with
  | nil => exact List.not_mem_nil
  | cons part rest ih =>
      obtain ⟨hpart, hrest⟩ := List.forall_mem_cons.mp hparts
      by_cases h : rest = []
      · subst h
        exact hpart
      · rw [joinAt_cons mark part h]
        simp [hpart, hmark, ih hrest]

section Cut

variable {α : Type} [DecidableEq α]

theorem cutFrom_append_cons (mark : α) (current a b : List α) :
    cutFrom mark current (a ++ mark :: b) = cutFrom mark current a ++ cutAt mark b := by
  induction a generalizing current with
  | nil => simp [cutFrom, cutAt]
  | cons c rest ih =>
      rw [List.cons_append]
      by_cases h : c = mark
      · simp only [cutFrom, if_pos h, ih, List.cons_append]
      · simp only [cutFrom, if_neg h, ih]

/-- A mark between two sequences separates their parts. -/
theorem cutAt_append_cons (mark : α) (a b : List α) :
    cutAt mark (a ++ mark :: b) = cutAt mark a ++ cutAt mark b :=
  cutFrom_append_cons mark [] a b

theorem cutFrom_of_notMem (mark : α) (current : List α) {part : List α} (h : mark ∉ part) :
    cutFrom mark current part = [current.reverse ++ part] := by
  induction part generalizing current with
  | nil => simp [cutFrom]
  | cons c rest ih =>
      rw [List.mem_cons, not_or] at h
      have hc : ¬ c = mark := fun e => h.1 e.symm
      rw [cutFrom, if_neg hc, ih _ h.2]
      simp

theorem cutAt_of_notMem (mark : α) {part : List α} (h : mark ∉ part) :
    cutAt mark part = [part] := by
  rw [cutAt, cutFrom_of_notMem mark [] h]
  rfl

theorem notMem_of_mem_cutFrom {mark : α} {current sequence : List α} (hcurrent : mark ∉ current) :
    ∀ part ∈ cutFrom mark current sequence, mark ∉ part := by
  induction sequence generalizing current with
  | nil => simpa [cutFrom] using hcurrent
  | cons c rest ih =>
      intro part hpart
      by_cases h : c = mark
      · rw [cutFrom, if_pos h, List.mem_cons] at hpart
        rcases hpart with rfl | hpart
        · simpa using hcurrent
        · exact ih List.not_mem_nil part hpart
      · -- the part being read stays free of marks
        rw [cutFrom, if_neg h] at hpart
        refine ih ?_ part hpart
        rw [List.mem_cons, not_or]
        exact ⟨fun e => h e.symm, hcurrent⟩

theorem cutAt_joinAt (mark : α) {parts : List (List α)} (hne : parts ≠ [])
    (hparts : ∀ part ∈ parts, mark ∉ part) : cutAt mark (joinAt mark parts) = parts := by
  induction parts with
  | nil => exact absurd rfl hne
  | cons part rest ih =>
      have hpart : mark ∉ part := hparts part List.mem_cons_self
      by_cases h : rest = []
      · subst h
        exact cutAt_of_notMem mark hpart
      · have hrest := ih h (fun p hp => hparts p (List.mem_cons_of_mem _ hp))
        rw [joinAt_cons mark part h, cutAt_append_cons, cutAt_of_notMem mark hpart, hrest]
        rfl

end Cut

/-! ## Lines -/

theorem linesOf_ne_nil (text : String) : linesOf text ≠ [] :=
  cutAt_ne_nil '\n' text.toList

theorem linesOf_append (a b : String) :
    linesOf (a ++ "\n" ++ b) = linesOf a ++ linesOf b := by
  have htext : (a ++ "\n" ++ b).toList = a.toList ++ '\n' :: b.toList := by simp
  rw [linesOf, htext, cutAt_append_cons]
  rfl

theorem lineFeed_notMem {text : String} {line : Line} (h : line ∈ linesOf text) : '\n' ∉ line :=
  notMem_of_mem_cutFrom List.not_mem_nil line h

/-- The text with the given lines. -/
def joinLines (lines : List Line) : String :=
  String.ofList (joinAt '\n' lines)

theorem linesOf_joinLines {lines : List Line} (hne : lines ≠ [])
    (hlines : ∀ line ∈ lines, '\n' ∉ line) : linesOf (joinLines lines) = lines := by
  rw [linesOf, joinLines, String.toList_ofList]
  exact cutAt_joinAt '\n' hne hlines

/-! ## Numbers of lines -/

theorem numbered_append (first : Nat) (a b : List Line) :
    numbered first (a ++ b) = numbered first a ++ numbered (first + a.length) b := by
  induction a generalizing first with
  | nil => rfl
  | cons line rest ih =>
      rw [List.cons_append, numbered, ih, numbered, List.length_cons]
      simp only [List.cons_append, Nat.add_assoc, Nat.add_comm 1]

theorem numbered_add (first shift : Nat) (lines : List Line) :
    numbered (first + shift) lines =
      (numbered first lines).map fun entry => (entry.1 + shift, entry.2) := by
  induction lines generalizing first with
  | nil => rfl
  | cons line rest ih =>
      rw [numbered, Nat.add_right_comm, ih, numbered, List.map_cons]

theorem mem_numbered_bounds {first : Nat} {lines : List Line} {entry : Nat × Line}
    (h : entry ∈ numbered first lines) : first ≤ entry.1 ∧ entry.1 < first + lines.length := by
  induction lines generalizing first with
  | nil => simp [numbered] at h
  | cons line rest ih =>
      rw [numbered, List.mem_cons] at h
      rw [List.length_cons]
      rcases h with rfl | h
      · exact ⟨Nat.le_refl _, by simp⟩
      · have hrest := ih h
        omega

/-- Lines that are related one by one stay so with their numbers. -/
theorem forall₂_numbered {R : Line → Line → Prop} {lines lines' : List Line}
    (h : List.Forall₂ R lines lines') (first : Nat) :
    List.Forall₂ (fun entry entry' => entry'.1 = entry.1 ∧ R entry.2 entry'.2)
      (numbered first lines) (numbered first lines') := by
  induction h generalizing first with
  | nil => exact .nil
  | cons hline _ ih => exact .cons ⟨rfl, hline⟩ (ih (first + 1))

end ScriptLint
