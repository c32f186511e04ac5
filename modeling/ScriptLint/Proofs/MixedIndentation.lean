import Mathlib.Order.Bounds.Basic
import ScriptLint.Proofs.Text.Lines
import ScriptLint.Proofs.Text.Margins
import ScriptLint.Rule.Indentation

/-!
# Where indentation becomes mixed

The rule on indentation goes down a script and remembers which of the two styles it has met. What it
reports is said here without this memory. Some lines are mixed if both styles occur among them, and
lines that are mixed stay so whatever follows. The rule therefore reports the end of the shortest
mixed start of the script, and nothing if the whole script is not mixed.
-/

namespace ScriptLint

/-- The mark stands in the line with nothing but blanks before it. -/
def Line.IsIndentedWith (mark : Char) (line : Line) : Prop :=
  ∃ before after, AllBlank before ∧ line = before ++ mark :: after

theorem Line.mem_indentation_iff {mark : Char} (hmark : isBlank mark = true) {line : Line} :
    mark ∈ line.indentation ↔ line.IsIndentedWith mark := by
  rw [Line.indentation]
  constructor
  · intro hmem
    obtain ⟨before, after, hrun⟩ := List.append_of_mem hmem
    have hblank : AllBlank (before ++ mark :: after) := hrun ▸ allBlank_takeWhile line
    refine ⟨before, after ++ line.dropWhile isBlank, ?_, ?_⟩
    · intro c hc
      exact hblank c (List.mem_append_left _ hc)
    · rw [← List.cons_append, ← List.append_assoc, ← hrun, List.takeWhile_append_dropWhile]
  · rintro ⟨before, after, hbefore, rfl⟩
    rw [List.takeWhile_append_of_pos hbefore, List.takeWhile_cons_of_pos hmark]
    exact List.mem_append_right _ List.mem_cons_self

namespace Indentation

/-- Some line is indented with the mark, possibly among other blanks. -/
def Uses (mark : Char) (lines : List Line) : Prop :=
  ∃ line ∈ lines, line.IsIndentedWith mark

/-- Both styles of indentation occur in the lines, be it in different lines or in one. -/
def IsMixed (lines : List Line) : Prop :=
  Uses '\t' lines ∧ Uses ' ' lines

theorem Uses.of_subset {mark : Char} {lines lines' : List Line} (h : Uses mark lines)
    (hsubset : lines ⊆ lines') : Uses mark lines' := by
  obtain ⟨line, hline, hmark⟩ := h
  exact ⟨line, hsubset hline, hmark⟩

theorem IsMixed.of_subset {lines lines' : List Line} (h : IsMixed lines)
    (hsubset : lines ⊆ lines') : IsMixed lines' :=
  ⟨h.1.of_subset hsubset, h.2.of_subset hsubset⟩

theorem uses_concat_iff {mark : Char} {seen : List Line} {line : Line} :
    Uses mark (seen ++ [line]) ↔ Uses mark seen ∨ line.IsIndentedWith mark := by
  simp only [Uses, List.mem_append, List.mem_singleton, or_and_right, exists_or, exists_eq_left]

/-! ## The search -/

/-- The flags tell which styles occur in the lines seen so far. -/
structure Remembers (seen : List Line) (tabs spaces : Bool) : Prop where
  tabs : tabs = true ↔ Uses '\t' seen
  spaces : spaces = true ↔ Uses ' ' seen

theorem remembers_nil : Remembers [] false false := by
  constructor <;> simp [Uses]

variable {seen : List Line} {tabs spaces : Bool}

theorem Remembers.step (h : Remembers seen tabs spaces) (line : Line) :
    Remembers (seen ++ [line]) (tabs || line.indentation.contains '\t')
      (spaces || line.indentation.contains ' ') where
  tabs := by
    rw [Bool.or_eq_true, h.tabs, List.contains_iff_mem, Line.mem_indentation_iff rfl,
      uses_concat_iff]
  spaces := by
    rw [Bool.or_eq_true, h.spaces, List.contains_iff_mem, Line.mem_indentation_iff rfl,
      uses_concat_iff]

theorem Remembers.isMixed_iff (h : Remembers seen tabs spaces) :
    (tabs && spaces) = true ↔ IsMixed seen := by
  rw [Bool.and_eq_true, h.tabs, h.spaces]
  rfl

/-- One line more ends the search or is remembered. -/
theorem firstMixed_numbered_cons (first : Nat) (line : Line) (rest : List Line) :
    firstMixed tabs spaces (numbered first (line :: rest)) =
      if ((tabs || line.indentation.contains '\t') && (spaces || line.indentation.contains ' '))
      then some (first, line)
      else firstMixed (tabs || line.indentation.contains '\t')
        (spaces || line.indentation.contains ' ') (numbered (first + 1) rest) := rfl

/-- If nothing is found, the lines are not mixed. -/
theorem not_isMixed_of_firstMixed {lines : List Line} (h : Remembers seen tabs spaces)
    (hclean : ¬ IsMixed seen)
    (hnone : firstMixed tabs spaces (numbered (seen.length + 1) lines) = none) :
    ¬ IsMixed (seen ++ lines) := by
  induction lines generalizing seen tabs spaces with
  | nil => rwa [List.append_nil]
  | cons line rest ih =>
      have hstep := h.step line
      rw [firstMixed_numbered_cons] at hnone
      split at hnone
      · cases hnone
      · next hflags =>
          have hlater := ih hstep (fun hmixed => hflags (hstep.isMixed_iff.mpr hmixed))
            (by rwa [List.length_append])
          rwa [List.append_assoc] at hlater

/-- What is found is the end of the shortest mixed start. -/
theorem isLeast_of_firstMixed {lines : List Line} {number : Nat} {line : Line}
    (h : Remembers seen tabs spaces) (hclean : ¬ IsMixed seen)
    (hsome : firstMixed tabs spaces (numbered (seen.length + 1) lines) = some (number, line)) :
    IsLeast {count | IsMixed ((seen ++ lines).take count)} number := by
  induction lines generalizing seen tabs spaces with
  | nil => cases hsome
  | cons head rest ih =>
      have hstep := h.step head
      rw [firstMixed_numbered_cons] at hsome
      split at hsome
      · next hflags =>
          have hstart : (seen ++ head :: rest).take (seen.length + 1) = seen ++ [head] := by
            simp [List.take_append, List.take_of_length_le]
          cases hsome
          constructor
          · show IsMixed _
            rw [hstart]
            exact hstep.isMixed_iff.mp hflags
          · intro count hcount
            by_contra hless
            have hle : count ≤ seen.length := by omega
            have hseen : (seen ++ line :: rest).take count = seen.take count :=
              List.take_append_of_le_length hle
            have hmixed : IsMixed (seen.take count) := hseen ▸ hcount
            exact hclean (hmixed.of_subset (List.take_subset count seen))
      · next hflags =>
          have hlater := ih hstep (fun hmixed => hflags (hstep.isMixed_iff.mpr hmixed))
            (by rwa [List.length_append])
          rwa [List.append_assoc] at hlater

/-! ## The rule -/

/-- The rule reports the line that the search finds, or nothing. -/
theorem check_cases (path text : String) :
    (rule.check path text = [] ∧ ¬ IsMixed (linesOf text)) ∨
      ∃ finding, rule.check path text = [finding] ∧
        IsLeast {count | IsMixed ((linesOf text).take count)} finding.line := by
  have hclean : ¬ IsMixed [] := by simp [IsMixed, Uses]
  have hcheck : rule.check path text = (scan (linesOf text)).map (rule.finding path) := rfl
  rw [hcheck, scan]
  cases hfirst : firstMixed false false (numbered 1 (linesOf text)) with
  | none => exact Or.inl ⟨rfl, not_isMixed_of_firstMixed remembers_nil hclean hfirst⟩
  | some entry => exact Or.inr ⟨_, rfl, isLeast_of_firstMixed remembers_nil hclean hfirst⟩

theorem isMixed_iff_exists_take {lines : List Line} :
    IsMixed lines ↔ ∃ count, IsMixed (lines.take count) := by
  constructor
  · intro h
    exact ⟨lines.length, by rwa [List.take_length]⟩
  · rintro ⟨count, h⟩
    exact h.of_subset (List.take_subset count lines)

theorem check_eq_nil_iff {path text : String} :
    rule.check path text = [] ↔ ¬ IsMixed (linesOf text) := by
  rcases check_cases path text with ⟨hnil, hclean⟩ | ⟨finding, hfinding, hleast⟩
  · exact iff_of_true hnil hclean
  · refine iff_of_false ?_ (not_not_intro (isMixed_iff_exists_take.mpr ⟨_, hleast.1⟩))
    rw [hfinding]
    exact List.cons_ne_nil _ _

end Indentation

/-- **Mixed indentation is reported where it first shows.** The one finding lies on the last line of
the shortest start of the script in which both styles occur, comments and blank lines included; if
there is no such start, there is no finding. So a script is clean if it keeps to one style, and that
does not depend on the order of its lines. -/
theorem indentation_check_exact (path text : String) :
    (∀ number,
      (∃ finding, Indentation.rule.check path text = [finding] ∧ finding.line = number) ↔
        IsLeast {count | Indentation.IsMixed ((linesOf text).take count)} number) ∧
    (Indentation.rule.check path text = [] ↔
      ¬ ∃ count, Indentation.IsMixed ((linesOf text).take count)) ∧
    (Indentation.rule.check path text = [] ↔
      (∀ line ∈ linesOf text, ¬ line.IsIndentedWith '\t') ∨
        ∀ line ∈ linesOf text, ¬ line.IsIndentedWith ' ') ∧
    ∀ other, (linesOf other).Perm (linesOf text) →
      (Indentation.rule.check path other = [] ↔ Indentation.rule.check path text = []) := by
  refine ⟨?_, ?_, ?_, ?_⟩
  · intro number
    rcases Indentation.check_cases path text with ⟨hnil, hclean⟩ | ⟨found, hfound, hleast⟩
    · rw [hnil]
      refine iff_of_false (by simp) ?_
      intro hleast
      exact hclean (Indentation.isMixed_iff_exists_take.mpr ⟨number, hleast.1⟩)
    · rw [hfound]
      constructor
      · rintro ⟨finding, hsame, rfl⟩
        cases hsame
        exact hleast
      · intro hnumber
        exact ⟨found, rfl, hleast.unique hnumber⟩
  · rw [Indentation.check_eq_nil_iff, Indentation.isMixed_iff_exists_take]
  · rw [Indentation.check_eq_nil_iff, Indentation.IsMixed, not_and_or]
    simp only [Indentation.Uses, not_exists, not_and]
  · intro other hperm
    rw [Indentation.check_eq_nil_iff, Indentation.check_eq_nil_iff, not_iff_not]
    exact ⟨fun h => h.of_subset hperm.subset, fun h => h.of_subset hperm.symm.subset⟩

/-- A comment may bring in the second style. In another order the same lines are reported too, at
the line that then comes second. -/
theorem indentation_check_exact_reordered :
    (linesOf "\u3000\t# a\n\nb\n  # c").Perm (linesOf "  # c\n\u3000\t# a\nb\n") ∧
      (Indentation.rule.check "a.gd" "\u3000\t# a\n\nb\n  # c" = [] ↔
        Indentation.rule.check "a.gd" "  # c\n\u3000\t# a\nb\n" = []) ∧
      (Indentation.rule.check "a.gd" "\u3000\t# a\n\nb\n  # c").map Finding.line = [4] ∧
      (Indentation.rule.check "a.gd" "  # c\n\u3000\t# a\nb\n").map Finding.line = [2] := by
  have hperm : (linesOf "\u3000\t# a\n\nb\n  # c").Perm (linesOf "  # c\n\u3000\t# a\nb\n") := by
    decide +kernel
  have hexact := indentation_check_exact "a.gd" "  # c\n\u3000\t# a\nb\n"
  exact ⟨hperm, hexact.2.2.2 _ hperm, by decide +kernel, by decide +kernel⟩

end ScriptLint
