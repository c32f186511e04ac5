import ScriptLint.Notice
import ScriptLint.Proofs.GroupedReport

/-!
# Colours add escape sequences and nothing else

Coloured output is written in other words than plain output: sequences stand before and after parts
of it. When they are deleted the plain output is left, provided that nothing that is reported brings
an escape character along. All sequences start with this character and have it nowhere else, and
none is the start of another, so deleting finds just the sequences that were written.

This is shown piece by piece. One text is another with sequences in it if deleting turns the first
into the second, whatever text follows. That is so of every sequence and of every text without an
escape character, and it is kept when texts are put one after the other.
-/

namespace ScriptLint

namespace Ansi

/-- The escape sequences in use. -/
def all : List Ansi :=
  [red, green, yellow, blue, cyan, bold, dim, reset]

/-- Deletes every escape sequence from a text, from left to right. The first `skip` characters
belong to one that is being deleted. -/
def deleteFrom : Nat → List Char → List Char
  | _, [] => []
  | skip + 1, _ :: rest => deleteFrom skip rest
  | 0, c :: rest =>
      match all.find? fun sequence => sequence.code.toList.isPrefixOf (c :: rest) with
      | some sequence => deleteFrom (sequence.code.length - 1) rest
      | none => c :: deleteFrom 0 rest

/-- The text without any of the escape sequences. -/
def deleteAll (text : String) : String :=
  String.ofList (deleteFrom 0 text.toList)

theorem mem_all (sequence : Ansi) : sequence ∈ all := by
  cases sequence <;> decide

/-- A sequence starts with the escape character. -/
theorem exists_code_eq (sequence : Ansi) : ∃ body, sequence.code.toList = '\x1b' :: body := by
  cases sequence <;> exact ⟨_, rfl⟩

/-- No sequence is the start of another. -/
theorem eq_of_code_start :
    ∀ a ∈ all, ∀ b ∈ all, a.code.toList <+: b.code.toList → a = b := by
  decide

theorem find?_code (sequence : Ansi) (rest : List Char) :
    (all.find? fun other => other.code.toList.isPrefixOf (sequence.code.toList ++ rest)) =
      some sequence := by
  have hprefix : sequence.code.toList.isPrefixOf (sequence.code.toList ++ rest) = true :=
    List.isPrefixOf_iff_prefix.mpr (List.prefix_append _ _)
  cases hfound : all.find? fun other =>
      other.code.toList.isPrefixOf (sequence.code.toList ++ rest) with
  | none => exact absurd hprefix (List.find?_eq_none.mp hfound sequence (mem_all sequence))
  | some other =>
      have hstart := List.find?_some hfound
      have hother : other.code.toList <+: sequence.code.toList ++ rest :=
        List.isPrefixOf_iff_prefix.mp hstart
      -- of two starts of one text one is the start of the other
      rcases List.prefix_or_prefix_of_prefix hother (List.prefix_append _ rest) with h | h
      · rw [eq_of_code_start other (mem_all other) sequence (mem_all sequence) h]
      · rw [eq_of_code_start sequence (mem_all sequence) other (mem_all other) h]

theorem deleteFrom_length (skipped rest : List Char) :
    deleteFrom skipped.length (skipped ++ rest) = deleteFrom 0 rest := by
  induction skipped with
  | nil => rfl
  | cons c skipped ih => exact ih

theorem deleteFrom_code (sequence : Ansi) (rest : List Char) :
    deleteFrom 0 (sequence.code.toList ++ rest) = deleteFrom 0 rest := by
  have hfound := find?_code sequence rest
  obtain ⟨body, hbody⟩ := exists_code_eq sequence
  have hlength : sequence.code.length - 1 = body.length := by
    rw [← String.length_toList, hbody]
    rfl
  rw [hbody, List.cons_append] at hfound ⊢
  rw [deleteFrom, hfound]
  dsimp only
  rw [hlength, deleteFrom_length]

theorem deleteFrom_append_of_notMem {text : List Char} (h : '\x1b' ∉ text) (rest : List Char) :
    deleteFrom 0 (text ++ rest) = text ++ deleteFrom 0 rest := by
  induction text with
  | nil => rfl
  | cons c text ih =>
      obtain ⟨hne, htext⟩ := List.ne_and_not_mem_of_not_mem_cons h
      have hnone : (all.find? fun sequence =>
          sequence.code.toList.isPrefixOf (c :: (text ++ rest))) = none := by
        refine List.find?_eq_none.mpr fun sequence _ => ?_
        obtain ⟨body, hbody⟩ := exists_code_eq sequence
        simp [hbody, hne]
      rw [List.cons_append, deleteFrom, hnone, List.cons_append]
      exact congrArg (c :: ·) (ih htext)

end Ansi

/-! ## Texts with escape sequences in them -/

/-- There is no escape character in the text. -/
def HasNoEscape (text : String) : Prop :=
  '\x1b' ∉ text.toList

instance (text : String) : Decidable (HasNoEscape text) :=
  inferInstanceAs (Decidable ('\x1b' ∉ text.toList))

theorem HasNoEscape.append {a b : String} (ha : HasNoEscape a) (hb : HasNoEscape b) :
    HasNoEscape (a ++ b) := by
  rw [HasNoEscape, String.toList_append, List.mem_append, not_or]
  exact ⟨ha, hb⟩

theorem hasNoEscape_toString (n : Nat) : HasNoEscape (toString n) := by
  have htext : (toString n).toList = Nat.toDigits 10 n := by simp [Nat.repr]
  rw [HasNoEscape, htext]
  intro hmem
  have hdigit := Nat.isDigit_of_mem_toDigits (by decide) (by decide) hmem
  revert hdigit
  decide

/-- The first text is the second with escape sequences in it: they can be deleted from it, whatever
follows. -/
def IsColoring (colored plain : String) : Prop :=
  ∀ rest, Ansi.deleteFrom 0 (colored.toList ++ rest) = plain.toList ++ Ansi.deleteFrom 0 rest

namespace IsColoring

theorem deleteAll {colored plain : String} (h : IsColoring colored plain) :
    Ansi.deleteAll colored = plain := by
  have htext := h []
  rw [List.append_nil, Ansi.deleteFrom, List.append_nil] at htext
  rw [Ansi.deleteAll, htext, String.ofList_toList]

theorem code (sequence : Ansi) : IsColoring sequence.code "" :=
  fun rest => Ansi.deleteFrom_code sequence rest

theorem same {text : String} (h : HasNoEscape text) : IsColoring text text :=
  fun rest => Ansi.deleteFrom_append_of_notMem h rest

theorem append {colored plain colored' plain' : String} (h : IsColoring colored plain)
    (h' : IsColoring colored' plain') : IsColoring (colored ++ colored') (plain ++ plain') := by
  intro rest
  rw [String.toList_append, String.toList_append, List.append_assoc, h, h', List.append_assoc]

theorem join {α : Type} {elements : List α} {colored plain : α → String}
    (h : ∀ x ∈ elements, IsColoring (colored x) (plain x)) :
    IsColoring (String.join (elements.map colored)) (String.join (elements.map plain)) := by
  induction elements with
  | nil => exact fun _ => rfl
  | cons x rest ih =>
      obtain ⟨hx, hrest⟩ := List.forall_mem_cons.mp h
      rw [List.map_cons, List.map_cons, String.join_cons, String.join_cons]
      exact hx.append (ih hrest)

theorem paint (color : Ansi) {text : String} (h : HasNoEscape text) :
    IsColoring (paint true color text) (paint false color text) := by
  have hpainted := ((code color).append (same h)).append (code .reset)
  rwa [String.empty_append, String.append_empty] at hpainted

end IsColoring

/-! ## Reports -/

/-- Nothing that a report shows of the finding has an escape character in it. -/
structure Finding.IsFreeOfEscapes (finding : Finding) : Prop where
  file : HasNoEscape finding.file
  ruleId : HasNoEscape finding.ruleId
  message : HasNoEscape finding.message

namespace TextReport

theorem hasNoEscape_icon (severity : Severity) : HasNoEscape (icon severity) := by
  cases severity <;> decide

theorem hasNoEscape_token (category : Category) : HasNoEscape category.token := by
  cases category <;> decide

theorem isColoring_entry {finding : Finding} (h : finding.IsFreeOfEscapes) :
    IsColoring (entry true finding) (entry false finding) := by
  unfold entry
  exact IsColoring.same (by decide)
    |>.append (.paint _ (hasNoEscape_icon finding.severity))
    |>.append (.same (by decide))
    |>.append (.same (hasNoEscape_toString finding.line))
    |>.append (.same (by decide))
    |>.append (.paint _ h.ruleId)
    |>.append (.same (by decide))
    |>.append (.same h.message)
    |>.append (.same (by decide))
    |>.append (.same (hasNoEscape_token finding.category))
    |>.append (.same (by decide))

theorem isColoring_group {title : String} {findings : List Finding}
    (htitle : HasNoEscape title) (h : ∀ finding ∈ findings, finding.IsFreeOfEscapes) :
    IsColoring (group true title findings) (group false title findings) := by
  have hentries : IsColoring (String.join (findings.map (entry true)))
      (String.join (findings.map (entry false))) :=
    .join fun finding hfinding => isColoring_entry (h finding hfinding)
  unfold group
  exact IsColoring.same (by decide)
    |>.append (.paint _ (htitle.append (by decide)))
    |>.append (.same (by decide))
    |>.append hentries

theorem isColoring_summary (findings : List Finding) :
    IsColoring (summary true findings) (summary false findings) := by
  have hcount : ∀ severity : Severity, ∀ count : Nat,
      IsColoring (paint true (color severity) (toString count))
        (paint false (color severity) (toString count)) :=
    fun _ count => .paint _ (hasNoEscape_toString count)
  unfold summary
  exact IsColoring.same (by decide)
    |>.append (.same (hasNoEscape_toString _))
    |>.append (.same (by decide))
    |>.append (hcount .error _)
    |>.append (.same (by decide))
    |>.append (hcount .warning _)
    |>.append (.same (by decide))
    |>.append (hcount .info _)
    |>.append (.same (by decide))

/-- A block is made from findings of the report, its title included. -/
theorem isColoring_groups {findings : List Finding}
    (h : ∀ finding ∈ findings, finding.IsFreeOfEscapes) :
    IsColoring
      (String.join ((groups findings).map fun entry => group true entry.1 entry.2))
      (String.join ((groups findings).map fun entry => group false entry.1 entry.2)) := by
  have hgrouping := isGrouping_groups findings
  refine .join fun block hblock => isColoring_group ?_ ?_
  · obtain ⟨first, hfirst, htitle⟩ := Option.map_eq_some_iff.mp (hgrouping.titled block hblock)
    rw [← htitle]
    exact (h first (List.mem_of_mem_filter (List.mem_of_mem_head? hfirst))).file
  · intro finding hfinding
    have hmem := (hgrouping.sorted block hblock).perm.mem_iff.mp hfinding
    exact h finding (List.mem_of_mem_filter hmem)

end TextReport

theorem isColoring_textReport {findings : List Finding}
    (h : ∀ finding ∈ findings, finding.IsFreeOfEscapes) :
    IsColoring (textReport true findings) (textReport false findings) := by
  unfold textReport
  split
  · exact (IsColoring.paint _ (by decide)).append (.same (by decide))
  · exact IsColoring.same (by decide)
      |>.append (.same (hasNoEscape_toString _))
      |>.append (.same (by decide))
      |>.append (TextReport.isColoring_groups h)
      |>.append (.same (by decide))
      |>.append (TextReport.isColoring_summary findings)

/-! ## Notices -/

/-- No part of the notice has an escape character in it. -/
structure NoticeText.IsFreeOfEscapes (notice : NoticeText) : Prop where
  kind : ∀ kind, notice.heading = .error kind → HasNoEscape kind
  message : HasNoEscape notice.message
  detail : ∀ detail ∈ notice.detail, HasNoEscape detail
  suggestion : ∀ suggestion ∈ notice.suggestion, HasNoEscape suggestion

namespace NoticeText

variable {notice : NoticeText}

theorem IsFreeOfEscapes.heading (h : notice.IsFreeOfEscapes) :
    HasNoEscape notice.heading.text := by
  have hkind := h.kind
  cases hheading : notice.heading with
  | error kind =>
      have hmark : HasNoEscape "✖ " := by decide
      exact (hmark.append (hkind kind hheading)).append (by decide)
  | warning => decide
  | info => decide

theorem isColoring_headingLine (h : notice.IsFreeOfEscapes) :
    IsColoring (headingLine true notice) (headingLine false notice) := by
  have hpainted := IsColoring.code .bold
    |>.append (.code notice.heading.color)
    |>.append (.same h.heading)
    |>.append (.code .reset)
  rw [String.empty_append, String.empty_append, String.append_empty] at hpainted
  unfold headingLine
  exact hpainted
    |>.append (.same (by decide))
    |>.append (.same h.message)
    |>.append (.same (by decide))

theorem isColoring_detailLine {detail : String} (h : HasNoEscape detail) :
    IsColoring (detailLine true detail) (detailLine false detail) := by
  have hmark : HasNoEscape "× " := by decide
  unfold detailLine
  exact IsColoring.same (by decide)
    |>.append (.paint _ (hmark.append h))
    |>.append (.same (by decide))

theorem isColoring_suggestionLine {suggestion : String}
    (h : HasNoEscape suggestion) :
    IsColoring (suggestionLine true suggestion) (suggestionLine false suggestion) := by
  unfold suggestionLine
  exact IsColoring.same (by decide)
    |>.append (.paint _ (by decide))
    |>.append (.same (by decide))
    |>.append (.same h)
    |>.append (.same (by decide))

/-- A line that is written only if there is something to write in it. -/
theorem isColoring_getD {part : Option String} {line : Bool → String → String}
    (h : ∀ text ∈ part, IsColoring (line true text) (line false text)) :
    IsColoring ((part.map (line true)).getD "") ((part.map (line false)).getD "") := by
  cases part with
  | none => exact fun _ => rfl
  | some text => exact h text rfl

theorem isColoring_render (h : notice.IsFreeOfEscapes) :
    IsColoring (notice.render true) (notice.render false) := by
  unfold render
  exact isColoring_headingLine h
    |>.append (isColoring_getD fun text htext => isColoring_detailLine (h.detail text htext))
    |>.append (isColoring_getD fun text htext => isColoring_suggestionLine (h.suggestion text htext))

end NoticeText

theorem Fault.hasNoEscape_kind (fault : Fault) : HasNoEscape fault.kind := by
  cases fault <;> rw [kind] <;> decide

/-- What a fault is called and what is suggested have no escape character in them. -/
theorem Fault.isFreeOfEscapes_toText {fault : Fault} (hmessage : HasNoEscape fault.message)
    (hdetail : ∀ detail ∈ fault.detail?, HasNoEscape detail) :
    (Notice.failure fault).toText.IsFreeOfEscapes where
  kind := by
    rintro _ ⟨⟩
    exact fault.hasNoEscape_kind
  message := hmessage
  detail := hdetail
  suggestion := by
    intro suggestion hsuggestion
    cases fault <;> cases hsuggestion <;> decide +kernel

/-- **Colours only add escape sequences.** Without an escape character in what is reported, the
coloured output is the plain output once the sequences are deleted. This holds of the report for
readers, of a notice with any heading, and of the notice on a fault. -/
theorem deleteAll_colored (terminal : Bool) :
    (∀ findings : List Finding, (∀ finding ∈ findings, finding.IsFreeOfEscapes) →
      Ansi.deleteAll (textReport (ColorMode.always.isColored terminal) findings) =
        textReport (ColorMode.never.isColored terminal) findings) ∧
    (∀ notice : NoticeText, notice.IsFreeOfEscapes →
      Ansi.deleteAll (notice.render (ColorMode.always.isColored terminal)) =
        notice.render (ColorMode.never.isColored terminal)) ∧
    ∀ fault : Fault, HasNoEscape fault.message →
      (∀ detail ∈ fault.detail?, HasNoEscape detail) →
        Ansi.deleteAll ((Notice.failure fault).render (ColorMode.always.isColored terminal)) =
          (Notice.failure fault).render (ColorMode.never.isColored terminal) := by
  refine ⟨?_, ?_, ?_⟩
  · intro findings h
    exact (isColoring_textReport h).deleteAll
  · intro notice h
    exact (NoticeText.isColoring_render h).deleteAll
  · intro fault hmessage hdetail
    have h := Fault.isFreeOfEscapes_toText hmessage hdetail
    exact (NoticeText.isColoring_render h).deleteAll

/-- A finding with all of some escape sequences in it but the escape character. -/
def bracketed : Finding where
  ruleId := "S001"
  ruleName := "Hardcoded Password"
  severity := .error
  category := .security
  message := "[31mred[0m"
  file := "a[1m.gd"
  line := 31
  column := none
  snippet := none

/-- What merely looks like an escape sequence is not deleted. -/
theorem deleteAll_colored_bracketed :
    (bracketed.IsFreeOfEscapes ∧
      Ansi.deleteAll (textReport (ColorMode.always.isColored false) [bracketed]) =
        textReport (ColorMode.never.isColored false) [bracketed]) ∧
    ((NoticeText.mk .info "[36m" (some "[2m") (some "")).IsFreeOfEscapes ∧
      Ansi.deleteAll ((NoticeText.mk .info "[36m" (some "[2m") (some "")).render
          (ColorMode.always.isColored false)) =
        (NoticeText.mk .info "[36m" (some "[2m") (some "")).render
          (ColorMode.never.isColored false)) ∧
    (HasNoEscape (Fault.unreadable "[0m" .notFound).message ∧
      (∀ detail ∈ (Fault.unreadable "[0m" .notFound).detail?, HasNoEscape detail) ∧
      Ansi.deleteAll ((Notice.failure (.unreadable "[0m" .notFound)).render
          (ColorMode.always.isColored false)) =
        (Notice.failure (.unreadable "[0m" .notFound)).render
          (ColorMode.never.isColored false)) := by
  have hfinding : bracketed.IsFreeOfEscapes := ⟨by decide, by decide, by decide⟩
  have hnotice : (NoticeText.mk .info "[36m" (some "[2m") (some "")).IsFreeOfEscapes :=
    ⟨nofun, by decide, by decide, by decide⟩
  have hmessage : HasNoEscape (Fault.unreadable "[0m" .notFound).message := by decide
  have hdetail : ∀ detail ∈ (Fault.unreadable "[0m" .notFound).detail?, HasNoEscape detail := by
    decide
  obtain ⟨hreports, hnotices, hfaults⟩ := deleteAll_colored false
  exact ⟨⟨hfinding, hreports _ (List.forall_mem_singleton.mpr hfinding)⟩,
    ⟨hnotice, hnotices _ hnotice⟩, hmessage, hdetail, hfaults _ hmessage hdetail⟩

end ScriptLint
