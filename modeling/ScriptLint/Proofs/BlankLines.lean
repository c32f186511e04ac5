import ScriptLint.Proofs.Rule.Simulation
import ScriptLint.Settings

/-!
# Blank lines change nothing but numbers

A blank line may be put in anywhere: before the first line, after the last one, between a
declaration and its comment, in a loop. The report stays the same, except that what stands after
the new line has a number that is greater by one. If the new line is empty, this holds of every
rule. If it consists of blanks, it may be too long, and it is indented, so the rules on the length
of lines and on the kind of indentation are left out.
-/

namespace ScriptLint

/-- The text with a line put in after the first `i` lines. -/
def insertLine (i : Nat) (line : Line) (text : String) : String :=
  joinLines ((linesOf text).take i ++ line :: (linesOf text).drop i)

example : insertLine 1 [] "func f():\n\tpass" = "func f():\n\n\tpass" := by decide

theorem linesOf_insertLine (i : Nat) {line : Line} (h : '\n' ∉ line) (text : String) :
    linesOf (insertLine i line text) =
      (linesOf text).take i ++ line :: (linesOf text).drop i := by
  apply linesOf_joinLines
  · exact List.append_ne_nil_of_right_ne_nil _ (List.cons_ne_nil _ _)
  · intro other hother
    rw [List.mem_append, List.mem_cons] at hother
    rcases hother with hbefore | rfl | hafter
    · exact lineFeed_notMem (List.mem_of_mem_take hbefore)
    · exact h
    · exact lineFeed_notMem (List.mem_of_mem_drop hafter)

/-- The number of a line once a line is put in after line `i`. -/
def movedAfter (i number : Nat) : Nat :=
  if i < number then number + 1 else number

def moveEntry (i : Nat) (entry : Nat × Line) : Nat × Line :=
  (movedAfter i entry.1, entry.2)

/-- The other lines keep their numbers or have them moved on by one. -/
theorem numbered_insert (a b : List Line) (line : Line) :
    numbered 1 (a ++ line :: b) =
      (numbered 1 a).map (moveEntry a.length) ++ (1 + a.length, line) ::
        (numbered (1 + a.length) b).map (moveEntry a.length) := by
  -- the numbers in `a` are at most `a.length`, those in `b` are greater
  have hbefore : (numbered 1 a).map (moveEntry a.length) = numbered 1 a := by
    refine (List.map_congr_left ?_).trans (List.map_id _)
    intro entry hentry
    have hbounds := mem_numbered_bounds hentry
    have hnumber : movedAfter a.length entry.1 = entry.1 := if_neg (by omega)
    rw [moveEntry, hnumber]
    rfl
  have hafter : (numbered (1 + a.length) b).map (moveEntry a.length) =
      numbered (1 + a.length + 1) b := by
    rw [numbered_add (1 + a.length) 1 b]
    apply List.map_congr_left
    intro entry hentry
    have hbounds := mem_numbered_bounds hentry
    have hnumber : movedAfter a.length entry.1 = entry.1 + 1 := if_pos (by omega)
    rw [moveEntry, hnumber]
  rw [numbered_append, numbered, hbefore, hafter]

/-- A line that is not picked out changes only the numbers of those that are. -/
theorem filter_numbered_insert (test : Line → Bool) (a b : List Line) {line : Line}
    (h : test line = false) :
    ((numbered 1 (a ++ line :: b)).filter fun entry => test entry.2) =
      ((numbered 1 (a ++ b)).filter fun entry => test entry.2).map (moveEntry a.length) := by
  have hline : ¬ test (1 + a.length, line).2 = true := by
    rw [h]
    exact Bool.false_ne_true
  rw [numbered_insert, numbered_append, List.filter_append, List.filter_append, List.map_append,
    List.filter_cons, if_neg hline, List.filter_map, List.filter_map]
  rfl

/-! ## Rules that follow correspondences -/

theorem counterparts_moved (i : Nat) {entries : List (Nat × Line)}
    (h : ∀ entry ∈ entries, entry.2.isBlankLine = false) :
    List.Forall₂ (Correspondence.renumbering (movedAfter i)).Counterparts entries
      (entries.map (moveEntry i)) := by
  rw [List.forall₂_map_right_iff, List.forall₂_same]
  intro entry hentry
  cases hcomment : entry.2.isComment with
  | true => exact .comment hcomment hcomment
  | false =>
      exact .code ((Line.isCode_iff _).mpr ⟨h entry hentry, hcomment⟩)
        (Correspondence.sameCode_renumbering (movedAfter i) entry)

/-- Blank lines are not among the lines that count. -/
theorem filledFrom_insert (a b : List Line) {blank : Line} (h : blank.isBlankLine = true) :
    filledFrom 1 (a ++ blank :: b) = (filledFrom 1 (a ++ b)).map (moveEntry a.length) := by
  have htest : (!blank.isBlankLine) = false := by
    rw [h]
    rfl
  exact filter_numbered_insert (fun line => !line.isBlankLine) a b htest

theorem FollowsLines.insert {scan : List Line → List Hit} (hscan : FollowsLines scan)
    (a b : List Line) {blank : Line} (h : blank.isBlankLine = true) :
    scan (a ++ blank :: b) = (scan (a ++ b)).map (Hit.renumbered (movedAfter a.length)) := by
  apply hscan (.renumbering (movedAfter a.length))
  rw [filledFrom_insert a b h]
  apply counterparts_moved
  intro entry hentry
  have hfilled := List.of_mem_filter hentry
  rwa [Bool.not_eq_true'] at hfilled

/-! ## Length and indentation -/

/-- The empty line is within every limit. -/
theorem LineLength.scan_insert (limit : Nat) (a b : List Line) :
    scan limit (a ++ [] :: b) =
      (scan limit (a ++ b)).map (Hit.renumbered (movedAfter a.length)) := by
  have hempty : (!Line.isComment [] && decide (limit < ([] : Line).length)) = false := by simp
  have hfilter := filter_numbered_insert
    (fun line => !line.isComment && decide (limit < line.length)) a b hempty
  rw [scan, scan, hfilter, List.map_map, List.map_map]
  rfl

namespace Indentation

theorem firstMixed_map (f : Nat → Nat) (tabs spaces : Bool) (entries : List (Nat × Line)) :
    firstMixed tabs spaces (entries.map fun entry => (f entry.1, entry.2)) =
      (firstMixed tabs spaces entries).map fun entry => (f entry.1, entry.2) := by
  induction entries generalizing tabs spaces with
  | nil => rfl
  | cons entry rest ih =>
      rw [List.map_cons, firstMixed, firstMixed, ih]
      split <;> rfl

/-- An empty line adds nothing to what has been seen. As long as only one kind has been seen, it is
not the line to report. -/
theorem firstMixed_insert {tabs spaces : Bool} (h : (tabs && spaces) = false)
    (a b : List (Nat × Line)) (number : Nat) :
    firstMixed tabs spaces (a ++ (number, []) :: b) = firstMixed tabs spaces (a ++ b) := by
  induction a generalizing tabs spaces with
  | nil =>
      have htabs : (tabs || (Line.indentation []).contains '\t') = tabs := Bool.or_false tabs
      have hspaces : (spaces || (Line.indentation []).contains ' ') = spaces :=
        Bool.or_false spaces
      rw [List.nil_append, firstMixed, htabs, hspaces, h]
      rfl
  | cons entry rest ih =>
      rw [List.cons_append, List.cons_append, firstMixed, firstMixed]
      by_cases hmixed : ((tabs || entry.2.indentation.contains '\t') &&
          (spaces || entry.2.indentation.contains ' ')) = true
      · rw [if_pos hmixed, if_pos hmixed]
      · rw [if_neg hmixed, if_neg hmixed, ih (Bool.not_eq_true _ ▸ hmixed)]

theorem scan_insert (a b : List Line) :
    scan (a ++ [] :: b) = (scan (a ++ b)).map (Hit.renumbered (movedAfter a.length)) := by
  have hfirst : firstMixed false false (numbered 1 (a ++ [] :: b)) =
      (firstMixed false false (numbered 1 (a ++ b))).map (moveEntry a.length) := by
    rw [numbered_insert, firstMixed_insert rfl, ← List.map_append, ← numbered_append]
    exact firstMixed_map (movedAfter a.length) false false _
  rw [scan, scan, hfirst]
  cases firstMixed false false (numbered 1 (a ++ b)) <;> rfl

end Indentation

/-! ## All rules -/

theorem scan_insert_empty {limit : Nat} {rule : Rule} (hrule : rule ∈ catalog limit)
    (a b : List Line) :
    rule.scan (a ++ [] :: b) =
      (rule.scan (a ++ b)).map (Hit.renumbered (movedAfter a.length)) := by
  rcases mem_catalog_cases hrule with rfl | rfl | hfollows
  · exact LineLength.scan_insert limit a b
  · exact Indentation.scan_insert a b
  · exact hfollows.insert a b rfl

/-- What holds of the lines of a script holds of its text. -/
theorem check_insertLine {rule : Rule} {text : String} {i : Nat} (hi : i ≤ (linesOf text).length)
    {line : Line} (hline : '\n' ∉ line)
    (h : ∀ a b : List Line, rule.scan (a ++ line :: b) =
      (rule.scan (a ++ b)).map (Hit.renumbered (movedAfter a.length))) (path : String) :
    rule.check path (insertLine i line text) =
      (rule.check path text).map (Finding.renumbered (movedAfter i)) := by
  have hlength : ((linesOf text).take i).length = i := List.length_take_of_le hi
  rw [Rule.check, Rule.check, linesOf_insertLine i hline, h, hlength, List.take_append_drop,
    List.map_map, List.map_map]
  rfl

/-- **Blank lines change nothing but numbers.** An empty line that is put in after line `i` moves
the findings after it on by one, and a line of blanks does the same for every rule but two. -/
theorem checkText_insertLine (settings : Settings) (path text : String) {i : Nat}
    (hi : i ≤ (linesOf text).length) :
    settings.checkText path (insertLine i [] text) =
        (settings.checkText path text).map (Finding.renumbered (movedAfter i)) ∧
      ∀ blank : Line, AllBlank blank → '\n' ∉ blank →
        ∀ rule ∈ catalog settings.maxLineLength, rule.id ≠ "R001" → rule.id ≠ "R004" →
          rule.check path (insertLine i blank text) =
            (rule.check path text).map (Finding.renumbered (movedAfter i)) := by
  constructor
  · rw [Settings.checkText, Settings.checkText, List.map_flatMap]
    apply List.flatMap_congr
    intro rule hrule
    have hcatalog : rule ∈ catalog settings.maxLineLength := List.mem_of_mem_filter hrule
    exact check_insertLine hi List.not_mem_nil (scan_insert_empty hcatalog) path
  · intro blank hblank hfeed rule hrule hlength hindentation
    have hfollows := followsLines_of_mem_catalog hrule hlength hindentation
    exact check_insertLine hi hfeed
      (fun a b => hfollows.insert a b (Line.isBlankLine_of_allBlank hblank)) path

/-- A line of blanks between a declaration and its comment leaves the function documented, and what
comes later moves on. -/
theorem checkText_insertLine_documented :
    1 ≤ (linesOf "func f():\n\t# doc\nfunc g():").length ∧
      ({} : Settings).checkText "a.gd" (insertLine 1 [] "func f():\n\t# doc\nfunc g():") =
        (({} : Settings).checkText "a.gd" "func f():\n\t# doc\nfunc g():").map
          (Finding.renumbered (movedAfter 1)) ∧
      Documentation.functionRule.check "a.gd"
          (insertLine 1 [' ', '\t'] "func f():\n\t# doc\nfunc g():") =
        (Documentation.functionRule.check "a.gd" "func f():\n\t# doc\nfunc g():").map
          (Finding.renumbered (movedAfter 1)) ∧
      (Documentation.functionRule.check "a.gd" "func f():\n\t# doc\nfunc g():").map
        Finding.line = [3] := by
  have hi : 1 ≤ (linesOf "func f():\n\t# doc\nfunc g():").length := by decide +kernel
  have hrule : Documentation.functionRule ∈ catalog 100 := by simp [catalog]
  have hcheck := checkText_insertLine {} "a.gd" "func f():\n\t# doc\nfunc g():" hi
  exact ⟨hi, hcheck.1, hcheck.2 [' ', '\t'] (by decide) (by decide) _ hrule (by decide)
    (by decide), by decide +kernel⟩

end ScriptLint
