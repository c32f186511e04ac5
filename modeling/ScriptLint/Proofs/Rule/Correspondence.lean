import ScriptLint.Proofs.Rule.Declaration
import ScriptLint.Proofs.Rule.LineTests

/-!
# Scripts with corresponding lines

Two scripts correspond when their lines that are not blank do so one by one: a comment to a
comment, and a line of code to one with the same trimmed text. Numbers may differ by a given
renumbering, and indentations by any change that keeps their order.

A scan follows correspondences if it reports corresponding lines alike, at the numbers that
correspond. The rules that test each line alone do so, since their tests ignore margins.
-/

namespace ScriptLint

/-! ## Renumbering -/

def Hit.renumbered (renumber : Nat → Nat) (hit : Hit) : Hit :=
  { hit with line := renumber hit.line }

def Finding.renumbered (renumber : Nat → Nat) (finding : Finding) : Finding :=
  { finding with line := renumber finding.line }

/-! ## Correspondence -/

/-- How the lines of two scripts correspond: `renumber` takes the number of a line to that of its
counterpart, and `widths` relates the widths of their indentations. -/
structure Correspondence where
  renumber : Nat → Nat
  widths : Nat → Nat → Prop
  keepsOrder : ∀ {a a' b b'}, widths a a' → widths b b' → (a < b ↔ a' < b')

namespace Correspondence

/-- Lines of code with the same trimmed text. -/
structure SameCode (c : Correspondence) (entry entry' : Nat × Line) : Prop where
  number : entry'.1 = c.renumber entry.1
  trim : entry'.2.trim = entry.2.trim
  width : c.widths entry.2.width entry'.2.width

/-- Two comments, or two lines of code with the same trimmed text. -/
inductive Counterparts (c : Correspondence) : Nat × Line → Nat × Line → Prop where
  | comment {entry entry' : Nat × Line} (h : entry.2.isComment = true)
      (h' : entry'.2.isComment = true) : Counterparts c entry entry'
  | code {entry entry' : Nat × Line} (h : entry.2.isCode = true)
      (same : c.SameCode entry entry') : Counterparts c entry entry'

/-- Only the numbers change. -/
def renumbering (renumber : Nat → Nat) : Correspondence where
  renumber := renumber
  widths := Eq
  keepsOrder := by rintro a a' b b' rfl rfl; rfl

theorem sameCode_renumbering (renumber : Nat → Nat) (entry : Nat × Line) :
    (renumbering renumber).SameCode entry (renumber entry.1, entry.2) :=
  ⟨rfl, rfl, rfl⟩

/-- Code lines whose numbers alone change correspond to what they were. -/
theorem forall₂_renumbering (renumber : Nat → Nat) (entries : List (Nat × Line)) :
    List.Forall₂ (renumbering renumber).SameCode entries
      (entries.map fun entry => (renumber entry.1, entry.2)) := by
  rw [List.forall₂_map_right_iff, List.forall₂_same]
  intro entry _
  exact sameCode_renumbering renumber entry

end Correspondence

/-- The lines that are not blank, with their numbers. -/
def filledFrom (first : Nat) (lines : List Line) : List (Nat × Line) :=
  (numbered first lines).filter fun entry => !entry.2.isBlankLine

theorem filledFrom_cons (first : Nat) (line : Line) (rest : List Line) :
    filledFrom first (line :: rest) =
      if line.isBlankLine then filledFrom (first + 1) rest
      else (first, line) :: filledFrom (first + 1) rest := by
  rw [filledFrom, numbered, List.filter_cons]
  cases line.isBlankLine <;> rfl

theorem codeLines_eq_filter (lines : List Line) :
    codeLines lines = (filledFrom 1 lines).filter fun entry => entry.2.isCode := by
  rw [codeLines, filledFrom, List.filter_filter]
  apply List.filter_congr
  intro entry _
  rw [Line.isCode]
  cases entry.2.isBlankLine with
  | false => exact (Bool.and_true _).symm
  | true => rfl

theorem Line.isCode_of_isComment {line : Line} (h : line.isComment = true) :
    ¬ line.isCode = true := by
  intro hcode
  rw [Line.isCode_iff, h] at hcode
  cases hcode.2

/-- Taking the comments away leaves code lines that correspond. -/
theorem sameCode_filter {c : Correspondence} {entries entries' : List (Nat × Line)}
    (h : List.Forall₂ c.Counterparts entries entries') :
    List.Forall₂ c.SameCode (entries.filter fun entry => entry.2.isCode)
      (entries'.filter fun entry => entry.2.isCode) := by
  induction h with
  | nil => exact .nil
  | cons hentry _ ih =>
      cases hentry with
      | comment hc hc' =>
          rw [List.filter_cons, List.filter_cons, if_neg (Line.isCode_of_isComment hc),
            if_neg (Line.isCode_of_isComment hc')]
          exact ih
      | code hcode same =>
          have hcode' := (Line.isCode_congr same.trim).trans hcode
          rw [List.filter_cons, List.filter_cons, if_pos hcode, if_pos hcode']
          exact .cons same ih

theorem sameCode_codeLines {c : Correspondence} {lines lines' : List Line}
    (h : List.Forall₂ c.Counterparts (filledFrom 1 lines) (filledFrom 1 lines')) :
    List.Forall₂ c.SameCode (codeLines lines) (codeLines lines') := by
  rw [codeLines_eq_filter, codeLines_eq_filter]
  exact sameCode_filter h

/-- The scan of code lines reports counterparts alike. -/
def FollowsCode (scan : List (Nat × Line) → List Hit) : Prop :=
  ∀ (c : Correspondence) (entries entries' : List (Nat × Line)),
    List.Forall₂ c.SameCode entries entries' →
      scan entries' = (scan entries).map (Hit.renumbered c.renumber)

/-- The scan of a script reports counterparts alike. -/
def FollowsLines (scan : List Line → List Hit) : Prop :=
  ∀ (c : Correspondence) (lines lines' : List Line),
    List.Forall₂ c.Counterparts (filledFrom 1 lines) (filledFrom 1 lines') →
      scan lines' = (scan lines).map (Hit.renumbered c.renumber)

/-- A scan of the code lines of a script alone. -/
theorem FollowsCode.followsLines_of {scanCode : List (Nat × Line) → List Hit}
    (h : FollowsCode scanCode) {scan : List Line → List Hit}
    (hscan : ∀ lines, scan lines = scanCode (codeLines lines)) : FollowsLines scan := by
  intro c lines lines' hlines
  rw [hscan, hscan]
  exact h c _ _ (sameCode_codeLines hlines)

theorem map_eq_of_forall₂ {α β γ : Type} {R : α → β → Prop} {f : α → γ} {g : β → γ}
    (hR : ∀ a b, R a b → g b = f a) {as : List α} {bs : List β} (h : List.Forall₂ R as bs) :
    bs.map g = as.map f := by
  induction h with
  | nil => rfl
  | cons hab _ ih => rw [List.map_cons, List.map_cons, hR _ _ hab, ih]

/-! ## Tests of single lines -/

/-- The hits of a test that looks at each code line alone. -/
def eachHit (test : Line → Bool) (message : String) (entries : List (Nat × Line)) : List Hit :=
  (entries.filter fun entry => test entry.2).map fun entry =>
    { line := entry.1, message, snippet := entry.2.snippet }

/-- A test that ignores margins and fails on the empty line finds nothing on blank lines. -/
theorem scanEachLine_eq {test : Line → Bool} (htest : IgnoresMargins test)
    (hnil : test [] = false) (message : String) (lines : List Line) :
    scanEachLine test message lines = eachHit test message (codeLines lines) := by
  rw [scanEachLine, eachHit, codeLines, List.filter_filter]
  congr 1
  apply List.filter_congr
  intro entry _
  rw [Line.isCode]
  by_cases hblank : entry.2.isBlankLine = true
  · rw [htest.trim entry.2, (Line.isBlankLine_iff _).mp hblank, hnil, Bool.and_false,
      Bool.false_and]
  · rw [Bool.not_eq_true] at hblank
    rw [hblank, Bool.not_false, Bool.true_and, Bool.and_comm]

theorem eachHit_follows {test : Line → Bool} (htest : IgnoresMargins test) (message : String) :
    FollowsCode (eachHit test message) := by
  intro c entries entries' h
  rw [eachHit, eachHit, List.map_map]
  have hfilter : List.Forall₂ c.SameCode (entries.filter fun entry => test entry.2)
      (entries'.filter fun entry => test entry.2) := by
    refine List.rel_filter ?_ h
    intro entry entry' same
    show test entry.2 = true ↔ test entry'.2 = true
    rw [htest.congr same.trim]
  refine map_eq_of_forall₂ ?_ hfilter
  intro entry entry' same
  show Hit.mk entry'.1 message entry'.2.snippet =
    Hit.mk (c.renumber entry.1) message entry.2.snippet
  rw [same.number, Line.snippet_congr same.trim]

theorem scanEachLine_follows {test : Line → Bool} (htest : IgnoresMargins test)
    (hnil : test [] = false) (message : String) : FollowsLines (scanEachLine test message) :=
  (eachHit_follows htest message).followsLines_of (scanEachLine_eq htest hnil message)

end ScriptLint
