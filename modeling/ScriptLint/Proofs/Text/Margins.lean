import Mathlib.Data.List.TakeWhile
import ScriptLint.Proofs.Text.Lines

/-!
# Margins

The blanks around a line are its margins. A line is its trimmed text between two margins, and a
function of lines ignores margins when it gives the same for a text with and without them. Such a
function sees nothing of a line but its trimmed text.
-/

namespace ScriptLint

/-! ## Blank texts -/

/-- A text of nothing but blanks. -/
def AllBlank (text : List Char) : Prop :=
  ∀ c ∈ text, isBlank c = true

instance : DecidablePred AllBlank :=
  fun text => List.decidableBAll (fun c => isBlank c = true) text

theorem allBlank_nil : AllBlank [] := by
  intro c hc
  cases hc

theorem allBlank_cons {c : Char} {text : List Char} :
    AllBlank (c :: text) ↔ isBlank c = true ∧ AllBlank text :=
  List.forall_mem_cons

theorem AllBlank.reverse {text : List Char} (h : AllBlank text) : AllBlank text.reverse :=
  fun c hc => h c (List.mem_reverse.mp hc)

theorem AllBlank.dropWhile {text : List Char} (h : AllBlank text) :
    text.dropWhile isBlank = [] := by
  rw [List.dropWhile_eq_nil_iff]
  exact h

theorem allBlank_takeWhile (text : List Char) : AllBlank (text.takeWhile isBlank) :=
  List.all_eq_true.mp List.all_takeWhile

/-- A class of characters without blanks. -/
def HasNoBlank (allowed : Char → Bool) : Prop :=
  ∀ c, isBlank c = true → allowed c = false

/-- What holds of each blank in the table holds of every blank. -/
theorem forall_isBlank {P : Char → Prop} [DecidablePred P]
    (h : (blanks.all fun c => decide (P c)) = true) : ∀ c, isBlank c = true → P c := by
  intro c hc
  have hmem : c ∈ blanks := by simpa [isBlank] using hc
  exact of_decide_eq_true (List.all_eq_true.mp h c hmem)

theorem hasNoBlank_isWord : HasNoBlank isWord :=
  fun _ hc => not_isWord_of_isBlank hc

theorem hasNoBlank_isQuote : HasNoBlank isQuote :=
  forall_isBlank (by decide)

theorem foldCase_of_isBlank : ∀ c, isBlank c = true → foldCase c = c :=
  forall_isBlank (by decide)

theorem lowerForm_of_isBlank : ∀ c, isBlank c = true → lowerForm c = [c] :=
  forall_isBlank (by decide)

theorem lowered_append (a b : List Char) : lowered (a ++ b) = lowered a ++ lowered b :=
  List.flatMap_append

theorem AllBlank.lowered {text : List Char} (h : AllBlank text) : lowered text = text := by
  induction text with
  | nil => rfl
  | cons c rest ih =>
      rw [allBlank_cons] at h
      have hrest : ScriptLint.lowered rest = rest := ih h.2
      rw [ScriptLint.lowered, List.flatMap_cons, lowerForm_of_isBlank c h.1]
      rw [ScriptLint.lowered] at hrest
      rw [hrest]
      rfl

theorem takeWhile_append_of_dropWhile_ne_nil {p : Char → Bool} {text : List Char}
    (h : text.dropWhile p ≠ []) (after : List Char) :
    (text ++ after).takeWhile p = text.takeWhile p := by
  rw [List.takeWhile_append, if_neg]
  -- a run as long as the text would leave nothing to drop
  intro hlength
  apply h
  have hall := List.takeWhile_append_dropWhile (p := p) (l := text)
  have hsum := congrArg List.length hall
  rw [List.length_append, hlength] at hsum
  exact List.length_eq_zero_iff.mp (by omega)

/-- A class without blanks stops in the text or right after it. -/
theorem takeWhile_append_blanks {allowed : Char → Bool} (hclass : HasNoBlank allowed)
    (text : List Char) {after : List Char} (hafter : AllBlank after) :
    (text ++ after).takeWhile allowed = text.takeWhile allowed := by
  induction text with
  | nil =>
      cases after with
      | nil => rfl
      | cons c rest =>
          have hc : allowed c = false := hclass c (hafter c List.mem_cons_self)
          simp [hc]
  | cons c rest ih =>
      rw [List.cons_append, List.takeWhile_cons, List.takeWhile_cons, ih]

theorem dropWhile_append_blanks {allowed : Char → Bool} (hclass : HasNoBlank allowed)
    (text : List Char) {after : List Char} (hafter : AllBlank after) :
    (text ++ after).dropWhile allowed = text.dropWhile allowed ++ after := by
  induction text with
  | nil =>
      cases after with
      | nil => rfl
      | cons c rest =>
          have hc : allowed c = false := hclass c (hafter c List.mem_cons_self)
          simp [hc]
  | cons c rest ih =>
      rw [List.cons_append, List.dropWhile_cons, List.dropWhile_cons, ih]
      split <;> rfl

/-- What is sought after a gap at the end of the text is not found in the margin either. -/
theorem afterGap_append_blanks {β : Type} {find : List Char → Option β} {widen : β → β}
    {after : List Char} (hafter : AllBlank after) (hnil : find [] = none)
    (hfind : ∀ text, find (text ++ after) = (find text).map widen) (text : List Char) :
    find ((text ++ after).dropWhile isBlank) = (find (text.dropWhile isBlank)).map widen := by
  rw [List.dropWhile_append]
  by_cases hdone : (text.dropWhile isBlank).isEmpty = true
  · -- the text ends in the gap, which then takes the whole margin
    rw [if_pos hdone, hafter.dropWhile, List.isEmpty_iff.mp hdone, hnil]
    rfl
  · rw [if_neg hdone, hfind]

/-! ## Trimming -/

namespace Line

theorem trimEnd_append_blanks (line : Line) {after : List Char} (h : AllBlank after) :
    trimEnd (line ++ after) = trimEnd line := by
  rw [trimEnd, List.reverse_append, List.dropWhile_append_of_pos h.reverse]
  rfl

theorem trim_blanks_append (line : Line) {before : List Char} (h : AllBlank before) :
    trim (before ++ line) = trim line := by
  rw [trim, trimStart, List.dropWhile_append_of_pos h]
  rfl

theorem trim_append_blanks (line : Line) {after : List Char} (h : AllBlank after) :
    trim (line ++ after) = trim line := by
  rw [trim, trimStart, List.dropWhile_append]
  by_cases hline : (line.dropWhile isBlank).isEmpty = true
  · rw [if_pos hline, h.dropWhile, trim, trimStart, List.isEmpty_iff.mp hline]
  · rw [if_neg hline, trimEnd_append_blanks _ h]
    rfl

theorem trimEnd_append (line : Line) :
    ∃ after, AllBlank after ∧ line = trimEnd line ++ after := by
  refine ⟨(line.reverse.takeWhile isBlank).reverse, (allBlank_takeWhile _).reverse, ?_⟩
  rw [trimEnd, ← List.reverse_append, List.takeWhile_append_dropWhile, List.reverse_reverse]

/-- The line from its first character on is the trimmed text with a margin after it. -/
theorem trimStart_eq (line : Line) :
    ∃ after, AllBlank after ∧ line.trimStart = line.trim ++ after :=
  trimEnd_append line.trimStart

/-- A line is its trimmed text between two margins. -/
theorem margins (line : Line) :
    ∃ before after, AllBlank before ∧ AllBlank after ∧ line = before ++ line.trim ++ after := by
  obtain ⟨after, hafter, hstart⟩ := trimStart_eq line
  refine ⟨line.indentation, after, allBlank_takeWhile line, hafter, ?_⟩
  rw [List.append_assoc, ← hstart]
  exact List.takeWhile_append_dropWhile.symm

theorem trim_of_allBlank {line : Line} (h : AllBlank line) : trim line = [] := by
  rw [trim, trimStart, h.dropWhile]
  rfl

theorem isBlankLine_iff (line : Line) : line.isBlankLine = true ↔ line.trim = [] := by
  rw [isBlankLine, List.isEmpty_iff]

theorem isBlankLine_of_allBlank {line : Line} (h : AllBlank line) : line.isBlankLine = true := by
  rw [isBlankLine_iff, trim_of_allBlank h]

/-- A comment is not blank. -/
theorem isBlankLine_of_isComment {line : Line} (h : line.isComment = true) :
    line.isBlankLine = false := by
  rw [isComment, beq_iff_eq] at h
  rw [isBlankLine]
  cases htrim : line.trim with
  | nil => rw [htrim] at h; cases h
  | cons c rest => rfl

theorem isCode_iff (line : Line) :
    line.isCode = true ↔ line.isBlankLine = false ∧ line.isComment = false := by
  rw [isCode, Bool.and_eq_true, Bool.not_eq_true', Bool.not_eq_true']

theorem isCode_congr {line line' : Line} (h : line'.trim = line.trim) :
    line'.isCode = line.isCode := by
  rw [isCode, isCode, isBlankLine, isBlankLine, isComment, isComment, h]

theorem snippet_congr {line line' : Line} (h : line'.trim = line.trim) :
    line'.snippet = line.snippet := by
  rw [snippet, snippet, h]

end Line

/-! ## Functions that ignore margins -/

/-- The function gives the same for a text with and without margins. -/
def IgnoresMargins {β : Type} (f : List Char → β) : Prop :=
  ∀ before text after, AllBlank before → AllBlank after →
    f (before ++ text ++ after) = f text

namespace IgnoresMargins

variable {β γ δ : Type} {f : List Char → β} {g : List Char → γ}

/-- It is enough to look at one margin at a time. -/
theorem of_sides
    (hbefore : ∀ c text, isBlank c = true → f (c :: text) = f text)
    (hafter : ∀ text after, AllBlank after → f (text ++ after) = f text) :
    IgnoresMargins f := by
  intro before text after hb ha
  rw [hafter _ after ha]
  induction before with
  | nil => rfl
  | cons c rest ih =>
      rw [allBlank_cons] at hb
      rw [List.cons_append, hbefore c _ hb.1, ih hb.2]

theorem trim (h : IgnoresMargins f) (line : Line) : f line = f line.trim := by
  obtain ⟨before, after, hb, ha, hline⟩ := Line.margins line
  calc f line = f (before ++ line.trim ++ after) := congrArg f hline
    _ = f line.trim := h before line.trim after hb ha

theorem congr (h : IgnoresMargins f) {line line' : Line} (htrim : line'.trim = line.trim) :
    f line' = f line := by
  rw [h.trim line', h.trim line, htrim]

theorem map (change : β → γ) (hf : IgnoresMargins f) :
    IgnoresMargins fun text => change (f text) := by
  intro before text after hb ha
  exact congrArg change (hf before text after hb ha)

theorem map₂ (combine : β → γ → δ) (hf : IgnoresMargins f) (hg : IgnoresMargins g) :
    IgnoresMargins fun text => combine (f text) (g text) := by
  intro before text after hb ha
  show combine (f _) (g _) = combine (f _) (g _)
  rw [hf before text after hb ha, hg before text after hb ha]

/-- Asking several questions ignores margins if each of them does. -/
theorem any {ι : Type} {questions : List ι} {test : ι → List Char → Bool}
    (h : ∀ q ∈ questions, IgnoresMargins (test q)) :
    IgnoresMargins fun text => questions.any fun q => test q text := by
  intro before text after hb ha
  induction questions with
  | nil => rfl
  | cons q rest ih =>
      have hq := h q List.mem_cons_self before text after hb ha
      have hrest := ih fun r hr => h r (List.mem_cons_of_mem _ hr)
      simp only [List.any_cons, hq] at hrest ⊢
      rw [hrest]

/-- A question about the lowercase form of a text. -/
theorem comp_lowered (h : IgnoresMargins f) : IgnoresMargins fun text => f (lowered text) := by
  intro before text after hb ha
  show f (lowered (before ++ text ++ after)) = f (lowered text)
  rw [lowered_append, lowered_append, hb.lowered, ha.lowered]
  exact h before (lowered text) after hb ha

end IgnoresMargins

end ScriptLint
