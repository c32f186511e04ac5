import ScriptLint.Proofs.Rule.Simulation

/-!
# Layout and comments do not matter

Two scripts are the same up to layout if they have as many lines, each line has the same trimmed
text in both or is a comment in both, and the indentations of code lines compare alike. Every rule
but those on the length of lines and on the kind of indentation gives the same report for both.

The edits that editors make by themselves are of this kind: changing the line ends, replacing tabs
by spaces, leaving blanks at the ends of lines. So is rewriting comments.
-/

namespace ScriptLint

/-! ## Scripts that are the same up to layout -/

/-- The lines at the same place have the same trimmed text or are both comments, and the
indentations of any two lines of code compare in one script as they do in the other. -/
structure SameUpToLayout (lines lines' : List Line) : Prop where
  length : lines.length = lines'.length
  text : ∀ pair ∈ lines.zip lines',
    (pair.1.isComment = true ∧ pair.2.isComment = true) ∨ pair.1.trim = pair.2.trim
  order : ∀ a ∈ lines.zip lines', ∀ b ∈ lines.zip lines',
    a.1.isCode = true → b.1.isCode = true →
      (a.1.width < b.1.width ↔ a.2.width < b.2.width)

namespace SameUpToLayout

variable {lines lines' : List Line}

/-- Widths correspond when some line of code has the one here and the other there. -/
def correspondence (h : SameUpToLayout lines lines') : Correspondence where
  renumber := id
  widths := fun width width' => ∃ pair ∈ lines.zip lines',
    pair.1.isCode = true ∧ pair.1.width = width ∧ pair.2.width = width'
  keepsOrder := by
    rintro _ _ _ _ ⟨a, ha, hcodeA, rfl, rfl⟩ ⟨b, hb, hcodeB, rfl, rfl⟩
    exact h.order a ha b hb hcodeA hcodeB

/-- What lines at the same place have in common. -/
def Alike (h : SameUpToLayout lines lines') (line line' : Line) : Prop :=
  (line.isComment = true ∧ line'.isComment = true) ∨
    (line'.trim = line.trim ∧
      (line.isCode = true → h.correspondence.widths line.width line'.width))

theorem forall₂_alike (h : SameUpToLayout lines lines') : List.Forall₂ h.Alike lines lines' := by
  rw [List.forall₂_iff_zip]
  refine ⟨h.length, ?_⟩
  intro line line' hmem
  rcases h.text _ hmem with hcomment | htrim
  · exact Or.inl hcomment
  · exact Or.inr ⟨htrim.symm, fun hcode => ⟨(line, line'), hmem, hcode, rfl, rfl⟩⟩

theorem forall₂_filter (h : SameUpToLayout lines lines') {entries entries' : List (Nat × Line)}
    (halike : List.Forall₂ (fun entry entry' => entry'.1 = entry.1 ∧ h.Alike entry.2 entry'.2)
      entries entries') :
    List.Forall₂ h.correspondence.Counterparts
      (entries.filter fun entry => !entry.2.isBlankLine)
      (entries'.filter fun entry => !entry.2.isBlankLine) := by
  induction halike with
  | nil => exact .nil
  | @cons entry entry' rest rest' hentry _ ih =>
      obtain ⟨hnumber, ⟨hcomment, hcomment'⟩ | ⟨htrim, hwidth⟩⟩ := hentry
      · rw [List.filter_cons, List.filter_cons, Line.isBlankLine_of_isComment hcomment,
          Line.isBlankLine_of_isComment hcomment']
        exact .cons (.comment hcomment hcomment') ih
      · have hblank : entry'.2.isBlankLine = entry.2.isBlankLine := by
          rw [Line.isBlankLine, Line.isBlankLine, htrim]
        have hcomment : entry'.2.isComment = entry.2.isComment := by
          rw [Line.isComment, Line.isComment, htrim]
        rw [List.filter_cons, List.filter_cons, hblank]
        cases hempty : entry.2.isBlankLine with
        -- a blank line is left out in both scripts
        | true => exact ih
        | false =>
            refine .cons ?_ ih
            cases hsign : entry.2.isComment with
            | true => exact .comment hsign (hcomment.trans hsign)
            | false =>
                have hcode : entry.2.isCode = true := (Line.isCode_iff _).mpr ⟨hempty, hsign⟩
                exact .code hcode ⟨hnumber, htrim, hwidth hcode⟩

theorem counterparts (h : SameUpToLayout lines lines') :
    List.Forall₂ h.correspondence.Counterparts (filledFrom 1 lines) (filledFrom 1 lines') :=
  h.forall₂_filter (forall₂_numbered h.forall₂_alike 1)

theorem scan_eq (h : SameUpToLayout lines lines') {scan : List Line → List Hit}
    (hscan : FollowsLines scan) : scan lines' = scan lines := by
  rw [hscan h.correspondence lines lines' h.counterparts]
  exact List.map_id' _

theorem check_eq {text text' : String} (h : SameUpToLayout (linesOf text) (linesOf text'))
    {rule : Rule} (hrule : FollowsLines rule.scan) (path : String) :
    rule.check path text' = rule.check path text := by
  rw [Rule.check, Rule.check, h.scan_eq hrule]

/-- Scripts are the same up to layout if an edit of each line keeps its trimmed text, or that it is
a comment, and changes the indentation of code by a function that keeps the order. -/
theorem of_forall₂ {Edit : Line → Line → Prop} (h : List.Forall₂ Edit lines lines')
    (htext : ∀ line line', Edit line line' →
      (line.isComment = true ∧ line'.isComment = true) ∨ line.trim = line'.trim)
    (change : Nat → Nat) (hchange : ∀ a b, a < b ↔ change a < change b)
    (hwidth : ∀ line line', Edit line line' → line.isCode = true →
      line'.width = change line.width) :
    SameUpToLayout lines lines' where
  length := h.length_eq
  text := fun pair hpair => htext _ _ (List.forall₂_zip h hpair)
  order := by
    intro a ha b hb hcodeA hcodeB
    rw [hwidth _ _ (List.forall₂_zip h ha) hcodeA, hwidth _ _ (List.forall₂_zip h hb) hcodeB]
    exact hchange _ _

end SameUpToLayout

/-! ## Blanks at the ends of lines -/

theorem Line.width_append {line : Line} (h : line.isBlankLine = false) (after : List Char) :
    width (line ++ after) = width line := by
  have hne : line.dropWhile isBlank ≠ [] := by
    intro hnil
    rw [Line.isBlankLine, Line.trim, Line.trimStart, hnil] at h
    cases h
  rw [width, width, indentation, indentation, takeWhile_append_of_dropWhile_ne_nil hne]

theorem Line.isBlank_of_trimStart {line : Line} {c : Char} {rest : List Char}
    (h : line.trimStart = c :: rest) : isBlank c = false := by
  have hhead := List.head?_dropWhile_not isBlank line
  rw [Line.trimStart] at h
  rw [h] at hhead
  simpa using hhead

/-- A line with another margin in place of its indentation. -/
theorem Line.width_blanks_append_trimStart {before : List Char} (h : AllBlank before)
    (line : Line) : width (before ++ line.trimStart) = before.length := by
  rw [width, indentation, List.takeWhile_append_of_pos h]
  cases hstart : line.trimStart with
  | nil => simp
  | cons c rest => simp [Line.isBlank_of_trimStart hstart]

/-- Blanks are added at the end of the line. -/
def ExtendedByBlanks (line line' : Line) : Prop :=
  ∃ after, AllBlank after ∧ line' = line ++ after

theorem sameUpToLayout_of_extended {lines lines' : List Line}
    (h : List.Forall₂ ExtendedByBlanks lines lines') : SameUpToLayout lines lines' := by
  refine SameUpToLayout.of_forall₂ h ?_ id (fun _ _ => Iff.rfl) ?_
  · rintro line _ ⟨after, hafter, rfl⟩
    exact Or.inr (Line.trim_append_blanks line hafter).symm
  · rintro line _ ⟨after, _, rfl⟩ hcode
    exact Line.width_append ((Line.isCode_iff line).mp hcode).1 after

/-! ## Line ends -/

/-- The text with a carriage return before every line feed. -/
def withCarriageReturns (text : String) : String :=
  String.ofList (text.toList.flatMap fun c => if c = '\n' then ['\r', '\n'] else [c])

theorem extended_withCarriageReturns (text : String) :
    List.Forall₂ ExtendedByBlanks (linesOf text) (linesOf (withCarriageReturns text)) := by
  -- the part being read is the same in both texts until the line feed
  have hcut : ∀ chars current : List Char,
      List.Forall₂ ExtendedByBlanks (cutFrom '\n' current chars)
        (cutFrom '\n' current
          (chars.flatMap fun c => if c = '\n' then ['\r', '\n'] else [c])) := by
    intro chars
    induction chars with
    | nil =>
        intro current
        exact .cons ⟨[], allBlank_nil, (List.append_nil _).symm⟩ .nil
    | cons c rest ih =>
        intro current
        rw [List.flatMap_cons]
        by_cases hc : c = '\n'
        · rw [if_pos hc, cutFrom, if_pos hc]
          refine .cons ⟨['\r'], by decide, ?_⟩ (ih [])
          rw [List.reverse_cons]
        · rw [if_neg hc, cutFrom, if_neg hc, List.singleton_append, cutFrom, if_neg hc]
          exact ih (c :: current)
  rw [linesOf, linesOf, withCarriageReturns, String.toList_ofList]
  exact hcut text.toList []

/-! ## Tabs -/

/-- Every line of code is indented by tabs alone. -/
def TabIndented (lines : List Line) : Prop :=
  ∀ line ∈ lines, line.isCode = true → ∀ c ∈ line.indentation, c = '\t'

instance : DecidablePred TabIndented := fun lines =>
  letI : DecidablePred fun line : Line => ∀ c ∈ line.indentation, c = '\t' :=
    fun line => List.decidableBAll (fun c => c = '\t') line.indentation
  List.decidableBAll (fun line : Line =>
    line.isCode = true → ∀ c ∈ line.indentation, c = '\t') lines

/-- The line with each of its leading tabs replaced by `count` spaces. -/
def expandTabs (count : Nat) (line : Line) : Line :=
  List.replicate (count * (line.takeWhile (· == '\t')).length) ' ' ++ line.dropWhile (· == '\t')

/-- The text with the leading tabs of each line replaced by spaces. -/
def tabsToSpaces (count : Nat) (text : String) : String :=
  joinLines ((linesOf text).map (expandTabs count))

theorem linesOf_tabsToSpaces (count : Nat) (text : String) :
    linesOf (tabsToSpaces count text) = (linesOf text).map (expandTabs count) := by
  apply linesOf_joinLines
  · intro hnil
    exact linesOf_ne_nil text (List.map_eq_nil_iff.mp hnil)
  · intro line' hline'
    obtain ⟨line, hline, rfl⟩ := List.mem_map.mp hline'
    intro hmem
    rcases List.mem_append.mp hmem with hspace | hrest
    · exact absurd (List.eq_of_mem_replicate hspace) (by decide)
    · exact lineFeed_notMem hline ((List.dropWhile_sublist _).subset hrest)

theorem trim_expandTabs (count : Nat) (line : Line) : (expandTabs count line).trim = line.trim := by
  have hspaces : ∀ n, AllBlank (List.replicate n ' ') := by
    intro n c hc
    rw [List.eq_of_mem_replicate hc]
    rfl
  have htabs : AllBlank (line.takeWhile (· == '\t')) := by
    intro c hc
    have htab := List.mem_takeWhile_imp hc
    rw [beq_iff_eq.mp htab]
    rfl
  calc (expandTabs count line).trim = Line.trim (line.dropWhile (· == '\t')) :=
        Line.trim_blanks_append _ (hspaces _)
    _ = Line.trim (line.takeWhile (· == '\t') ++ line.dropWhile (· == '\t')) :=
        (Line.trim_blanks_append _ htabs).symm
    _ = line.trim := by rw [List.takeWhile_append_dropWhile]

/-- An indentation of tabs alone grows by the same factor everywhere. -/
theorem width_expandTabs (count : Nat) {line : Line} (h : ∀ c ∈ line.indentation, c = '\t') :
    (expandTabs count line).width = count * line.width := by
  have hline : line = line.indentation ++ line.trimStart :=
    List.takeWhile_append_dropWhile.symm
  have htabs : ∀ c ∈ line.indentation, (c == '\t') = true := by
    intro c hc
    rw [h c hc]
    rfl
  -- the tabs end where the indentation ends
  have hstop : ∀ c rest, line.trimStart = c :: rest → (c == '\t') = false := by
    intro c rest hstart
    have hblank : isBlank c = false := Line.isBlank_of_trimStart hstart
    rw [beq_eq_false_iff_ne]
    rintro rfl
    cases hblank
  have htake : line.takeWhile (· == '\t') = line.indentation := by
    conv_lhs => rw [hline]
    rw [List.takeWhile_append_of_pos htabs]
    cases hstart : line.trimStart with
    | nil => simp
    | cons c rest => simp [hstop c rest hstart]
  have hdrop : line.dropWhile (· == '\t') = line.trimStart := by
    have hall := List.takeWhile_append_dropWhile (p := (· == '\t')) (l := line)
    rw [htake] at hall
    exact List.append_cancel_left (hall.trans hline)
  rw [expandTabs, htake, hdrop, Line.width_blanks_append_trimStart, List.length_replicate]
  · rfl
  · intro c hc
    rw [List.eq_of_mem_replicate hc]
    rfl

theorem sameUpToLayout_expandTabs {count : Nat} (hcount : 1 ≤ count) {lines : List Line}
    (h : TabIndented lines) : SameUpToLayout lines (lines.map (expandTabs count)) := by
  have hedit : List.Forall₂ (fun line line' =>
      line' = expandTabs count line ∧ (line.isCode = true → ∀ c ∈ line.indentation, c = '\t'))
      lines (lines.map (expandTabs count)) := by
    rw [List.forall₂_map_right_iff, List.forall₂_same]
    exact fun line hline => ⟨rfl, h line hline⟩
  refine SameUpToLayout.of_forall₂ hedit ?_ (count * ·) ?_ ?_
  · rintro line _ ⟨rfl, _⟩
    exact Or.inr (trim_expandTabs count line).symm
  · intro a b
    exact (Nat.mul_lt_mul_left hcount).symm
  · rintro line _ ⟨rfl, htabs⟩ hcode
    exact width_expandTabs count (htabs hcode)

/-! ## Comments -/

/-- The line stays as it is, or it is a comment and its text is changed. -/
def CommentRewritten (line line' : Line) : Prop :=
  line' = line ∨ (line.isComment = true ∧ line'.isComment = true)

theorem sameUpToLayout_of_rewritten {lines lines' : List Line}
    (h : List.Forall₂ CommentRewritten lines lines') : SameUpToLayout lines lines' := by
  refine SameUpToLayout.of_forall₂ h ?_ id (fun _ _ => Iff.rfl) ?_
  · rintro line line' (rfl | hcomment)
    · exact Or.inr rfl
    · exact Or.inl hcomment
  · rintro line line' (rfl | ⟨hcomment, _⟩) hcode
    · rfl
    · exact absurd hcode (Line.isCode_of_isComment hcomment)

/-! ## The rules -/

/-- **Layout and comments do not matter.** The ten rules report the same for scripts that are the
same up to layout; in particular for a script with other line ends, with spaces in place of its
tabs, with blanks at the ends of its lines or with other comments. -/
theorem check_sameUpToLayout {limit : Nat} {rule : Rule} (hrule : rule ∈ catalog limit)
    (hid : rule.id ∈ ["R002", "R003", "S001", "S002", "S003", "S004", "P001", "P002", "P003",
      "P004"]) (path : String) :
    (∀ text text', SameUpToLayout (linesOf text) (linesOf text') →
      rule.check path text' = rule.check path text) ∧
    (∀ text, rule.check path (withCarriageReturns text) = rule.check path text) ∧
    (∀ count text, 1 ≤ count → TabIndented (linesOf text) →
      rule.check path (tabsToSpaces count text) = rule.check path text) ∧
    (∀ text text', List.Forall₂ ExtendedByBlanks (linesOf text) (linesOf text') →
      rule.check path text' = rule.check path text) ∧
    (∀ text text', List.Forall₂ CommentRewritten (linesOf text) (linesOf text') →
      rule.check path text' = rule.check path text) := by
  have hlength : rule.id ≠ "R001" := by
    intro h
    rw [h] at hid
    exact absurd hid (by decide)
  have hindentation : rule.id ≠ "R004" := by
    intro h
    rw [h] at hid
    exact absurd hid (by decide)
  have hfollows := followsLines_of_mem_catalog hrule hlength hindentation
  refine ⟨?_, ?_, ?_, ?_, ?_⟩
  · intro text text' h
    exact h.check_eq hfollows path
  · intro text
    have hlines := sameUpToLayout_of_extended (extended_withCarriageReturns text)
    exact hlines.check_eq hfollows path
  · intro count text hcount htabs
    have hlines := sameUpToLayout_expandTabs hcount htabs
    rw [← linesOf_tabsToSpaces] at hlines
    exact hlines.check_eq hfollows path
  · intro text text' h
    exact (sameUpToLayout_of_extended h).check_eq hfollows path
  · intro text text' h
    exact (sameUpToLayout_of_rewritten h).check_eq hfollows path

/-- A lookup in the loop of a callback is found with tabs and with spaces, whatever the comment in
between says and whatever blanks end the lines. -/
theorem check_sameUpToLayout_loop :
    SameUpToLayout (linesOf "func _process(d):\n\tfor e in es:\n\t\t# hit\n\t\t$A\n\tx()")
        (linesOf "func _process(d): \n  for e in es:\r\n#\n   $A\n  x()\t") ∧
      FrameLoop.rule.check "a.gd" "func _process(d): \n  for e in es:\r\n#\n   $A\n  x()\t" =
        FrameLoop.rule.check "a.gd"
          "func _process(d):\n\tfor e in es:\n\t\t# hit\n\t\t$A\n\tx()" ∧
      FrameLoop.rule.check "a.gd"
          (tabsToSpaces 4 "func _process(d):\n\tfor e in es:\n\t\t# hit\n\t\t$A\n\tx()") =
        FrameLoop.rule.check "a.gd"
          "func _process(d):\n\tfor e in es:\n\t\t# hit\n\t\t$A\n\tx()" ∧
      (FrameLoop.rule.check "a.gd"
        "func _process(d):\n\tfor e in es:\n\t\t# hit\n\t\t$A\n\tx()").map Finding.line = [4] := by
  have hrule : FrameLoop.rule ∈ catalog 100 := by simp [catalog]
  have hsame : SameUpToLayout
      (linesOf "func _process(d):\n\tfor e in es:\n\t\t# hit\n\t\t$A\n\tx()")
      (linesOf "func _process(d): \n  for e in es:\r\n#\n   $A\n  x()\t") :=
    ⟨by decide +kernel, by decide +kernel, by decide +kernel⟩
  have hcheck := check_sameUpToLayout hrule (by decide) "a.gd"
  exact ⟨hsame, hcheck.1 _ _ hsame, hcheck.2.2.1 4 _ (by decide) (by decide +kernel),
    by decide +kernel⟩

end ScriptLint
