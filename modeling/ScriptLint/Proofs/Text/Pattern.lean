import ScriptLint.Proofs.Text.Margins
import ScriptLint.Text.Pattern

/-!
# Patterns and margins

A pattern that starts and ends with a piece that takes no blank is found in a text exactly when it
is found in the text with margins around it: it cannot start in the margin before the text, and
what it takes never reaches into the margin after it. The blanks that a pattern takes itself are
those of its gaps, which stand between other pieces.
-/

namespace ScriptLint

/-! ## Solid pieces -/

/-- A word that is not empty and has no blank in it. -/
def isSolidWord (word : String) : Bool :=
  !word.toList.isEmpty && word.toList.all fun c => !isBlank c

theorem isSolidWord_iff (word : String) :
    isSolidWord word = true ↔ word.toList ≠ [] ∧ ∀ c ∈ word.toList, isBlank c = false := by
  simp [isSolidWord]

/-- A piece that takes at least one character and never a blank. -/
def Piece.IsSolid : Piece → Prop
  | .letters word => isSolidWord word = true
  | .exactly text => isSolidWord text = true
  | .one allowed => HasNoBlank allowed
  | .gap => False
  | .space => False

section Words

variable {same : Char → Char → Bool} {word : List Char}

/-- A word without blanks is never taken from the margin after a text. -/
theorem stripWord_append_blanks
    (hword : ∀ w ∈ word, ∀ c, isBlank c = true → same w c = false)
    (text : List Char) {after : List Char} (hafter : AllBlank after) :
    stripWord same word (text ++ after) = (stripWord same word text).map (· ++ after) := by
  induction word generalizing text with
  | nil => rfl
  | cons w ws ih =>
      have hws := fun x hx => hword x (List.mem_cons_of_mem _ hx)
      cases text with
      | nil =>
          cases after with
          | nil => rfl
          | cons c rest =>
              have hc := hword w List.mem_cons_self c (hafter c List.mem_cons_self)
              simp [stripWord, hc]
      | cons c rest =>
          rw [List.cons_append, stripWord, stripWord, ih hws rest]
          split <;> rfl

theorem stripWord_blank_cons (hne : word ≠ [])
    (hword : ∀ w ∈ word, ∀ c, isBlank c = true → same w c = false)
    {c : Char} (hc : isBlank c = true) (rest : List Char) :
    stripWord same word (c :: rest) = none := by
  cases word with
  | nil => exact absurd rfl hne
  | cons w ws => rw [stripWord, hword w List.mem_cons_self c hc]; rfl

theorem stripWord_nil (hne : word ≠ []) : stripWord same word [] = none := by
  cases word with
  | nil => exact absurd rfl hne
  | cons w ws => rfl

end Words

/-- No blank is a letter of a solid word, whatever its case. -/
theorem foldCase_ne_of_isBlank {word : String} (h : isSolidWord word = true) :
    ∀ w ∈ word.toList, ∀ c, isBlank c = true → (w == foldCase c) = false := by
  intro w hw c hc
  rw [foldCase_of_isBlank c hc, beq_eq_false_iff_ne]
  rintro rfl
  rw [((isSolidWord_iff word).mp h).2 w hw] at hc
  cases hc

theorem ne_of_isBlank {word : String} (h : isSolidWord word = true) :
    ∀ w ∈ word.toList, ∀ c, isBlank c = true → (w == c) = false := by
  intro w hw c hc
  rw [beq_eq_false_iff_ne]
  rintro rfl
  rw [((isSolidWord_iff word).mp h).2 w hw] at hc
  cases hc

namespace Piece.IsSolid

variable {piece : Piece}

theorem strip_nil (h : piece.IsSolid) : piece.strip [] = none := by
  cases piece with
  | letters word => exact stripWord_nil ((isSolidWord_iff word).mp h).1
  | exactly text => exact stripWord_nil ((isSolidWord_iff text).mp h).1
  | one allowed => rfl
  | gap => exact h.elim
  | space => exact h.elim

theorem strip_blank_cons (h : piece.IsSolid) {c : Char} (hc : isBlank c = true)
    (rest : List Char) : piece.strip (c :: rest) = none := by
  cases piece with
  | letters word =>
      exact stripWord_blank_cons ((isSolidWord_iff word).mp h).1 (foldCase_ne_of_isBlank h) hc rest
  | exactly text =>
      exact stripWord_blank_cons ((isSolidWord_iff text).mp h).1 (ne_of_isBlank h) hc rest
  | one allowed => rw [Piece.strip, h c hc]; rfl
  | gap => exact h.elim
  | space => exact h.elim

theorem strip_allBlank (h : piece.IsSolid) {text : List Char} (htext : AllBlank text) :
    piece.strip text = none := by
  cases text with
  | nil => exact h.strip_nil
  | cons c rest => exact h.strip_blank_cons (htext c List.mem_cons_self) rest

theorem strip_append_blanks (h : piece.IsSolid) (text : List Char) {after : List Char}
    (hafter : AllBlank after) :
    piece.strip (text ++ after) = (piece.strip text).map (· ++ after) := by
  cases piece with
  | letters word => exact stripWord_append_blanks (foldCase_ne_of_isBlank h) text hafter
  | exactly wanted => exact stripWord_append_blanks (ne_of_isBlank h) text hafter
  | one allowed =>
      cases text with
      | nil =>
          have hnone : (Piece.one allowed).strip after = none := strip_allBlank h hafter
          rw [List.nil_append, hnone]
          rfl
      | cons c rest =>
          rw [List.cons_append, Piece.strip, Piece.strip]
          split <;> rfl
  | gap => exact h.elim
  | space => exact h.elim

end Piece.IsSolid

/-! ## Solid ends -/

namespace Pattern

/-- The first piece is solid. -/
def StartsSolid : Pattern → Prop
  | [] => False
  | piece :: _ => piece.IsSolid

/-- The last piece is solid, and blanks are taken by gaps alone. -/
inductive EndsSolid : Pattern → Prop where
  | last {piece : Piece} (h : piece.IsSolid) : EndsSolid [piece]
  | solid {piece : Piece} {rest : Pattern} (h : piece.IsSolid) (hrest : EndsSolid rest) :
      EndsSolid (piece :: rest)
  | gap {rest : Pattern} (hrest : EndsSolid rest) : EndsSolid (.gap :: rest)
  | space {rest : Pattern} (hrest : EndsSolid rest) : EndsSolid (.space :: rest)

/-- Both ends of the pattern are solid. -/
structure IsTight (pattern : Pattern) : Prop where
  starts : pattern.StartsSolid
  ends : pattern.EndsSolid

variable {pattern : Pattern}

theorem strip_singleton (piece : Piece) (text : List Char) :
    strip [piece] text = piece.strip text := by
  rw [strip]
  cases piece.strip text <;> rfl

theorem StartsSolid.strip_blank_cons (h : pattern.StartsSolid) {c : Char}
    (hc : isBlank c = true) (rest : List Char) : pattern.strip (c :: rest) = none := by
  cases pattern with
  | nil => exact h.elim
  | cons piece pieces =>
      have hpiece : piece.IsSolid := h
      rw [strip, hpiece.strip_blank_cons hc]
      rfl

theorem EndsSolid.strip_allBlank (h : pattern.EndsSolid) {text : List Char}
    (htext : AllBlank text) : pattern.strip text = none := by
  induction h generalizing text with
  | last hpiece => rw [strip_singleton, hpiece.strip_allBlank htext]
  | solid hpiece _ _ => rw [strip, hpiece.strip_allBlank htext]; rfl
  | gap _ ih =>
      rw [strip, Piece.strip, htext.dropWhile]
      exact ih allBlank_nil
  | space _ ih =>
      cases text with
      | nil => rfl
      | cons c rest =>
          rw [allBlank_cons] at htext
          rw [strip, Piece.strip, if_pos htext.1, htext.2.dropWhile]
          exact ih allBlank_nil

/-- What such a pattern takes off a text it takes off the text with a margin after it, and the
margin remains. -/
theorem EndsSolid.strip_append_blanks (h : pattern.EndsSolid) (text : List Char)
    {after : List Char} (hafter : AllBlank after) :
    pattern.strip (text ++ after) = (pattern.strip text).map (· ++ after) := by
  induction h generalizing text with
  | last hpiece => rw [strip_singleton, strip_singleton, hpiece.strip_append_blanks text hafter]
  | @solid piece rest hpiece _ ih =>
      rw [strip, strip, hpiece.strip_append_blanks text hafter]
      cases piece.strip text with
      | none => rfl
      | some remaining => exact ih remaining
  | gap hrest ih =>
      exact afterGap_append_blanks hafter (hrest.strip_allBlank allBlank_nil) ih text
  | @space rest hrest ih =>
      cases text with
      | nil =>
          -- the margin may give the blank, but nothing solid after it
          have hnone : strip (.space :: rest) after = none :=
            (EndsSolid.space hrest).strip_allBlank hafter
          rw [List.nil_append, hnone]
          rfl
      | cons c text =>
          rw [List.cons_append, strip, strip, Piece.strip, Piece.strip]
          by_cases hc : isBlank c = true
          · rw [if_pos hc, if_pos hc]
            exact afterGap_append_blanks hafter (hrest.strip_allBlank allBlank_nil) ih text
          · rw [if_neg hc, if_neg hc]
            rfl

theorem EndsSolid.startsOn_append_blanks (h : pattern.EndsSolid) (text : List Char)
    {after : List Char} (hafter : AllBlank after) :
    pattern.startsOn (text ++ after) = pattern.startsOn text := by
  rw [startsOn, startsOn, h.strip_append_blanks text hafter, Option.isSome_map]

theorem StartsSolid.startsOn_blank_cons (h : pattern.StartsSolid) {c : Char}
    (hc : isBlank c = true) (rest : List Char) : pattern.startsOn (c :: rest) = false := by
  rw [startsOn, h.strip_blank_cons hc]
  rfl

theorem EndsSolid.startsOn_allBlank (h : pattern.EndsSolid) {text : List Char}
    (htext : AllBlank text) : pattern.startsOn text = false := by
  rw [startsOn, h.strip_allBlank htext]
  rfl

end Pattern

/-! ## Searching -/

theorem anySuffix_allBlank {test : List Char → Bool}
    (hblank : ∀ text, AllBlank text → test text = false) {text : List Char}
    (htext : AllBlank text) : anySuffix test text = false := by
  induction text with
  | nil => exact hblank [] allBlank_nil
  | cons c rest ih =>
      rw [anySuffix, hblank _ htext, ih (allBlank_cons.mp htext).2]
      rfl

theorem anySuffix_append_blanks {test : List Char → Bool}
    (hblank : ∀ text, AllBlank text → test text = false)
    {after : List Char} (hafter : AllBlank after)
    (hafterTest : ∀ text, test (text ++ after) = test text) (text : List Char) :
    anySuffix test (text ++ after) = anySuffix test text := by
  induction text with
  | nil => exact (anySuffix_allBlank hblank hafter).trans (hblank [] allBlank_nil).symm
  | cons c rest ih =>
      have hhere := hafterTest (c :: rest)
      rw [List.cons_append] at hhere ⊢
      rw [anySuffix, anySuffix, hhere, ih]

theorem firstSuffix?_allBlank {β : Type} {find : List Char → Option β}
    (hblank : ∀ text, AllBlank text → find text = none) {text : List Char}
    (htext : AllBlank text) : firstSuffix? find text = none := by
  induction text with
  | nil => exact hblank [] allBlank_nil
  | cons c rest ih =>
      rw [firstSuffix?, hblank _ htext]
      exact ih (allBlank_cons.mp htext).2

theorem firstSuffix?_append_blanks {β : Type} {find : List Char → Option β}
    (hblank : ∀ text, AllBlank text → find text = none)
    {after : List Char} (hafter : AllBlank after)
    (hafterFind : ∀ text, find (text ++ after) = find text) (text : List Char) :
    firstSuffix? find (text ++ after) = firstSuffix? find text := by
  induction text with
  | nil => exact (firstSuffix?_allBlank hblank hafter).trans (hblank [] allBlank_nil).symm
  | cons c rest ih =>
      have hhere := hafterFind (c :: rest)
      rw [List.cons_append] at hhere ⊢
      rw [firstSuffix?, firstSuffix?, hhere, ih]

namespace Pattern.IsTight

variable {pattern : Pattern}

/-- Whether a tight pattern occurs in a text has nothing to do with margins. -/
theorem occursIn_ignoresMargins (h : pattern.IsTight) : IgnoresMargins pattern.occursIn := by
  apply IgnoresMargins.of_sides
  · intro c text hc
    rw [occursIn, anySuffix, h.starts.startsOn_blank_cons hc]
    rfl
  · intro text after hafter
    exact anySuffix_append_blanks (fun _ ht => h.ends.startsOn_allBlank ht) hafter
      (fun t => h.ends.startsOn_append_blanks t hafter) text

theorem occursFrom_allBlank (h : pattern.IsTight) (inWord : Bool) {text : List Char}
    (htext : AllBlank text) : pattern.occursFrom inWord text = false := by
  induction text generalizing inWord with
  | nil => rw [occursFrom, h.ends.startsOn_allBlank allBlank_nil, Bool.and_false]
  | cons c rest ih =>
      rw [occursFrom, h.ends.startsOn_allBlank htext, ih _ (allBlank_cons.mp htext).2,
        Bool.and_false, Bool.or_false]

theorem occursFrom_append_blanks (h : pattern.IsTight) (inWord : Bool) (text : List Char)
    {after : List Char} (hafter : AllBlank after) :
    pattern.occursFrom inWord (text ++ after) = pattern.occursFrom inWord text := by
  induction text generalizing inWord with
  | nil =>
      rw [List.nil_append, h.occursFrom_allBlank inWord hafter,
        h.occursFrom_allBlank inWord allBlank_nil]
  | cons c rest ih =>
      have hhere := h.ends.startsOn_append_blanks (c :: rest) hafter
      rw [List.cons_append] at hhere ⊢
      rw [occursFrom, occursFrom, hhere, ih]

/-- A margin ends in no word character, so a word that starts after it starts there too. -/
theorem occursAtWordStart_ignoresMargins (h : pattern.IsTight) :
    IgnoresMargins pattern.occursAtWordStart := by
  apply IgnoresMargins.of_sides
  · intro c text hc
    rw [occursAtWordStart, occursFrom, h.starts.startsOn_blank_cons hc, not_isWord_of_isBlank hc]
    rfl
  · intro text after hafter
    exact h.occursFrom_append_blanks false text hafter

end Pattern.IsTight

theorem isTight_exactly {word : String} (h : isSolidWord word = true) :
    Pattern.IsTight [.exactly word] :=
  ⟨h, .last h⟩

theorem containsText_ignoresMargins {word : String} (h : isSolidWord word = true) :
    IgnoresMargins (containsText word) :=
  (isTight_exactly h).occursIn_ignoresMargins

end ScriptLint
