import Mathlib.Data.Char
import Mathlib.Data.List.Lex
import Mathlib.Order.Lattice
import ScriptLint.Text.Order

/-!
# The order of texts is the lexicographic order

The comparisons of texts and of sequences of texts decide the lexicographic order of the library,
so they are linear orders.
-/

namespace ScriptLint

section Lexicographic

variable {α : Type} [DecidableEq α] [LinearOrder α] {before : α → α → Bool}

/-- A comparison that agrees with an order on different elements decides the lexicographic order. -/
theorem lexLe_iff (hbefore : ∀ x y, x ≠ y → (before x y = true ↔ x < y)) (a b : List α) :
    lexLe before a b = true ↔ a = b ∨ a < b := by
  induction a generalizing b with
  | nil => cases b <;> simp [lexLe]
  | cons x a ih =>
      cases b with
      | nil => simp [lexLe]
      | cons y b =>
          rw [lexLe, List.cons_lt_cons_iff, List.cons.injEq]
          by_cases h : x = y
          · rw [if_pos h, ih]
            simp [h]
          · rw [if_neg h, hbefore x y h]
            simp [h]

variable (hbefore : ∀ x y, x ≠ y → (before x y = true ↔ x < y))

include hbefore

theorem lexLe_iff_lt {a b : List α} (h : a ≠ b) : lexLe before a b = true ↔ a < b := by
  rw [lexLe_iff hbefore]
  simp [h]

theorem lexLe_total (a b : List α) : (lexLe before a b || lexLe before b a) = true := by
  rw [Bool.or_eq_true, lexLe_iff hbefore, lexLe_iff hbefore]
  rcases lt_trichotomy a b with h | h | h
  · exact Or.inl (Or.inr h)
  · exact Or.inl (Or.inl h)
  · exact Or.inr (Or.inr h)

theorem lexLe_trans {a b c : List α} (hab : lexLe before a b = true)
    (hbc : lexLe before b c = true) : lexLe before a c = true := by
  rw [lexLe_iff hbefore] at hab hbc ⊢
  rcases hab with rfl | hab
  · exact hbc
  · rcases hbc with rfl | hbc
    · exact Or.inr hab
    · exact Or.inr (lt_trans hab hbc)

/-- Elements with different keys are strictly in order once they are sorted by their keys. -/
theorem pairwise_mergeSort_lexLe {β : Type} {key : β → List α} {elements : List β}
    (h : elements.Pairwise fun a b => key a ≠ key b) :
    (elements.mergeSort fun a b => lexLe before (key a) (key b)).Pairwise
      fun a b => key a < key b := by
  have hsorted : (elements.mergeSort fun a b => lexLe before (key a) (key b)).Pairwise
      fun a b => lexLe before (key a) (key b) = true := by
    apply List.pairwise_mergeSort
    · intro a b c hab hbc
      exact lexLe_trans hbefore hab hbc
    · intro a b
      exact lexLe_total hbefore (key a) (key b)
  have hdistinct : (elements.mergeSort fun a b => lexLe before (key a) (key b)).Pairwise
      fun a b => key a ≠ key b :=
    (List.mergeSort_perm _ _).symm.pairwise h Ne.symm
  refine (hsorted.and hdistinct).imp ?_
  rintro a b ⟨hle, hne⟩
  exact (lexLe_iff_lt hbefore hne).mp hle

end Lexicographic

theorem textLe_iff_lt {a b : List Char} (h : a ≠ b) : textLe a b = true ↔ a < b :=
  lexLe_iff_lt (fun _ _ _ => decide_eq_true_iff) h

variable {β : Type} {elements : List β}

theorem pairwise_mergeSort_textLe {key : β → List Char}
    (h : elements.Pairwise fun a b => key a ≠ key b) :
    (elements.mergeSort fun a b => textLe (key a) (key b)).Pairwise fun a b => key a < key b :=
  pairwise_mergeSort_lexLe (fun _ _ _ => decide_eq_true_iff) h

theorem pairwise_mergeSort_textsLe {key : β → List (List Char)}
    (h : elements.Pairwise fun a b => key a ≠ key b) :
    (elements.mergeSort fun a b => textsLe (key a) (key b)).Pairwise fun a b => key a < key b :=
  pairwise_mergeSort_lexLe (fun _ _ => textLe_iff_lt) h

end ScriptLint
