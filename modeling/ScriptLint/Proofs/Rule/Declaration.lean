import ScriptLint.Proofs.Text.Pattern
import ScriptLint.Rule.Declaration

/-!
# Declarations and margins

A declaration is recognised from the trimmed line alone: the margin after a line gives it neither a
keyword nor a name nor a parenthesis. So it makes no difference whether a rule trims a line on both
sides or only at its start before it looks for a declaration. Blank lines and comments declare
nothing.
-/

namespace ScriptLint

/-! ## Names -/

/-- The run of word characters at the start of a text, if there is one, and what follows it. -/
def wordRun (text : List Char) : Option (List Char × List Char) :=
  if (text.takeWhile isWord).isEmpty then none
  else some (text.takeWhile isWord, text.dropWhile isWord)

theorem wordRun_append_blanks (text : List Char) {after : List Char} (hafter : AllBlank after) :
    wordRun (text ++ after) = (wordRun text).map (Prod.map id (· ++ after)) := by
  rw [wordRun, wordRun, takeWhile_append_blanks hasNoBlank_isWord text hafter,
    dropWhile_append_blanks hasNoBlank_isWord text hafter]
  split <;> rfl

/-- A name is found by taking off the keyword, then the blanks, then the name. -/
theorem nameAfter_eq (keyword : String) (text : List Char) :
    nameAfter keyword text =
      ((Piece.letters keyword).strip text).bind fun rest =>
        (Piece.space.strip rest).bind wordRun := by
  rw [nameAfter, Pattern.strip]
  cases (Piece.letters keyword).strip text with
  | none => rfl
  | some rest =>
      rw [Option.bind_some, Option.bind_some, Pattern.strip_singleton]
      cases Piece.space.strip rest with
      | none => rfl
      | some name => rfl

theorem spaceThenName_append_blanks (text : List Char) {after : List Char}
    (hafter : AllBlank after) :
    (Piece.space.strip (text ++ after)).bind wordRun =
      ((Piece.space.strip text).bind wordRun).map (Prod.map id (· ++ after)) := by
  have hrun : ∀ text, wordRun (text ++ after) = (wordRun text).map (Prod.map id (· ++ after)) :=
    fun text => wordRun_append_blanks text hafter
  cases text with
  | nil =>
      cases after with
      | nil => rfl
      | cons c rest =>
          rw [allBlank_cons] at hafter
          rw [List.nil_append, Piece.strip, if_pos hafter.1, hafter.2.dropWhile]
          rfl
  | cons c rest =>
      rw [List.cons_append, Piece.strip, Piece.strip]
      by_cases hc : isBlank c = true
      · rw [if_pos hc, if_pos hc]
        exact afterGap_append_blanks hafter rfl hrun rest
      · rw [if_neg hc, if_neg hc]
        rfl

theorem nameAfter_append_blanks {keyword : String} (hkeyword : isSolidWord keyword = true)
    (text : List Char) {after : List Char} (hafter : AllBlank after) :
    nameAfter keyword (text ++ after) =
      (nameAfter keyword text).map (Prod.map id (· ++ after)) := by
  have hsolid : (Piece.letters keyword).IsSolid := hkeyword
  rw [nameAfter_eq, nameAfter_eq, hsolid.strip_append_blanks text hafter]
  cases (Piece.letters keyword).strip text with
  | none => rfl
  | some rest => exact spaceThenName_append_blanks rest hafter

theorem nameAfter_eq_none_of_comment {keyword : String} (hne : keyword.toList ≠ [])
    (hsign : '#' ∉ keyword.toList) {text : List Char} (htext : text.head? = some '#') :
    nameAfter keyword text = none := by
  cases text with
  | nil => cases htext
  | cons c rest =>
      cases htext
      rw [nameAfter_eq, Piece.strip]
      cases hword : keyword.toList with
      | nil => exact absurd hword hne
      | cons w ws =>
          have hw : (w == foldCase '#') = false := by
            rw [beq_eq_false_iff_ne]
            rintro rfl
            exact hsign (by rw [hword]; exact List.mem_cons_self)
          rw [stripWord, hw]
          rfl

theorem nameAfter_nil {keyword : String} (hne : keyword.toList ≠ []) :
    nameAfter keyword [] = none := by
  rw [nameAfter_eq, Piece.strip, stripWord_nil hne]
  rfl

/-! ## Classes and functions -/

theorem declaredClass?_append_blanks (text : List Char) {after : List Char}
    (hafter : AllBlank after) : declaredClass? (text ++ after) = declaredClass? text := by
  rw [declaredClass?, declaredClass?, nameAfter_append_blanks (by decide) text hafter,
    Option.map_map]
  rfl

theorem declaredFunction?_append_blanks (text : List Char) {after : List Char}
    (hafter : AllBlank after) : declaredFunction? (text ++ after) = declaredFunction? text := by
  have hparen : Pattern.EndsSolid [.gap, .exactly "("] := .gap (.last rfl)
  rw [declaredFunction?, declaredFunction?, nameAfter_append_blanks (by decide) text hafter]
  cases nameAfter "func" text with
  | none => rfl
  | some found =>
      simp only [Option.map_some, Option.bind_some, Prod.map_fst, Prod.map_snd, id_eq,
        hparen.startsOn_append_blanks found.2 hafter]

theorem declaredClass?_trimStart (line : Line) :
    declaredClass? line.trimStart = declaredClass? line.trim := by
  obtain ⟨after, hafter, hstart⟩ := Line.trimStart_eq line
  rw [hstart, declaredClass?_append_blanks _ hafter]

/-- A function is declared on the line from its first character on exactly when it is declared on
the trimmed line. -/
theorem declaredFunction?_trimStart (line : Line) :
    declaredFunction? line.trimStart = declaredFunction? line.trim := by
  obtain ⟨after, hafter, hstart⟩ := Line.trimStart_eq line
  rw [hstart, declaredFunction?_append_blanks _ hafter]

/-- What declares a name by one of the keywords is code. -/
theorem isCode_of_nameAfter (keyword : String) (hne : keyword.toList ≠ [])
    (hsign : '#' ∉ keyword.toList) {line : Line}
    (h : (nameAfter keyword line.trim).isSome = true) : line.isCode = true := by
  rw [Line.isCode_iff]
  constructor
  · rw [Bool.eq_false_iff]
    intro hblank
    rw [(Line.isBlankLine_iff line).mp hblank, nameAfter_nil hne] at h
    cases h
  · rw [Bool.eq_false_iff]
    intro hcomment
    rw [Line.isComment, beq_iff_eq] at hcomment
    rw [nameAfter_eq_none_of_comment hne hsign hcomment] at h
    cases h

theorem isCode_of_declaredClass? {line : Line}
    (h : (declaredClass? line.trim).isSome = true) : line.isCode = true := by
  apply isCode_of_nameAfter "class" (by decide) (by decide)
  rw [declaredClass?, Option.isSome_map] at h
  exact h

theorem isCode_of_declaredFunction? {line : Line}
    (h : (declaredFunction? line.trim).isSome = true) : line.isCode = true := by
  apply isCode_of_nameAfter "func" (by decide) (by decide)
  rw [declaredFunction?] at h
  cases hname : nameAfter "func" line.trim with
  | none => rw [hname] at h; cases h
  | some found => rfl

end ScriptLint
