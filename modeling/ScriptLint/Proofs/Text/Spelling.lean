import ScriptLint.Proofs.Text.Pattern

/-!
# What patterns spell

Looking for a pattern is a calculation that takes piece after piece off a text. This is what it
finds out: each piece spells certain texts, a pattern spells what its pieces spell one after the
other, and a text contains a pattern exactly when the pattern spells some part of it.

The calculation takes all blanks of a gap at once, where the meaning leaves open how many the gap
spells. The two agree for a steady pattern, in which nothing that follows a gap starts with a blank.
-/

namespace ScriptLint

/-! ## Pieces -/

/-- The text is one that the piece stands for. -/
def Piece.Spells : Piece → List Char → Prop
  | .letters word, text => text.map foldCase = word.toList
  | .exactly wanted, text => text = wanted.toList
  | .one allowed, text => ∃ c, allowed c = true ∧ text = [c]
  | .gap, text => AllBlank text
  | .space, text => text ≠ [] ∧ AllBlank text

/-- Characters are compared with a word after each is taken to its key. -/
theorem stripWord_eq_some_iff {key : Char → Char} {word text rest : List Char} :
    stripWord (fun w c => w == key c) word text = some rest ↔
      ∃ taken, taken.map key = word ∧ text = taken ++ rest := by
  induction word generalizing text with
  | nil => simp [stripWord, eq_comm]
  | cons w ws ih =>
      cases text with
      | nil =>
          constructor
          · intro h
            cases h
          · rintro ⟨taken, hword, htext⟩
            obtain ⟨rfl, -⟩ := List.append_eq_nil_iff.mp htext.symm
            cases hword
      | cons c text =>
          rw [stripWord]
          constructor
          · intro h
            split at h
            · next hc =>
                obtain ⟨taken, hword, rfl⟩ := ih.mp h
                exact ⟨c :: taken, by rw [List.map_cons, hword, beq_iff_eq.mp hc], rfl⟩
            · cases h
          · rintro ⟨taken, hword, htext⟩
            cases taken with
            | nil => cases hword
            | cons d taken =>
                obtain ⟨rfl, rfl⟩ := List.cons.inj htext
                obtain ⟨rfl, hwords⟩ := List.cons.inj hword
                rw [if_pos (beq_self_eq_true _)]
                exact ih.mpr ⟨taken, hwords, rfl⟩

theorem stripWord_eq_some_iff_append {word text rest : List Char} :
    stripWord (· == ·) word text = some rest ↔ text = word ++ rest := by
  have h : stripWord (fun w c => w == id c) word text = some rest ↔
      ∃ taken, taken.map id = word ∧ text = taken ++ rest := stripWord_eq_some_iff
  simpa using h

/-- A run of a class is taken whole from a text in which the class ends with the run. -/
theorem span_append {allowed : Char → Bool} {run rest : List Char}
    (hrun : ∀ c ∈ run, allowed c = true) (hrest : ∀ c, rest.head? = some c → allowed c = false) :
    (run ++ rest).takeWhile allowed = run ∧ (run ++ rest).dropWhile allowed = rest := by
  rw [List.takeWhile_append_of_pos hrun, List.dropWhile_append_of_pos hrun]
  cases rest with
  | nil => simp
  | cons c rest => simp [hrest c rfl]

theorem dropWhile_eq_cons_iff {allowed : Char → Bool} {text rest : List Char} {c : Char} :
    text.dropWhile allowed = c :: rest ↔
      allowed c = false ∧
        ∃ run, (∀ d ∈ run, allowed d = true) ∧ text = run ++ c :: rest := by
  constructor
  · intro h
    have hstop := List.head?_dropWhile_not allowed text
    rw [h] at hstop
    refine ⟨hstop, text.takeWhile allowed, List.all_eq_true.mp List.all_takeWhile, ?_⟩
    rw [← h, List.takeWhile_append_dropWhile]
  · rintro ⟨hc, run, hrun, rfl⟩
    exact (span_append hrun (by rintro _ ⟨⟩; exact hc)).2

/-- A run that starts further to the right ends no earlier. -/
theorem dropWhile_drop_suffix (allowed : Char → Bool) (count : Nat) (text : List Char) :
    (text.drop count).dropWhile allowed <:+ text.dropWhile allowed := by
  induction text generalizing count with
  | nil => simp
  | cons c text ih =>
      cases count with
      | zero => exact List.suffix_refl _
      | succ count =>
          rw [List.drop_succ_cons, List.dropWhile_cons]
          split
          · exact ih count
          · exact (List.dropWhile_suffix allowed).trans
              ((List.drop_suffix count text).trans (List.suffix_cons c text))

namespace Piece

/-- What is taken off a text is spelled by the piece. -/
theorem exists_spells_of_strip {piece : Piece} {text rest : List Char}
    (h : piece.strip text = some rest) : ∃ taken, piece.Spells taken ∧ text = taken ++ rest := by
  cases piece with
  | letters word => exact stripWord_eq_some_iff.mp h
  | exactly wanted => exact ⟨_, rfl, stripWord_eq_some_iff_append.mp h⟩
  | one allowed =>
      cases text with
      | nil => cases h
      | cons c text =>
          rw [strip] at h
          split at h
          · next hc =>
              cases h
              exact ⟨[c], ⟨c, hc, rfl⟩, rfl⟩
          · cases h
  | gap =>
      cases h
      exact ⟨_, allBlank_takeWhile text, List.takeWhile_append_dropWhile.symm⟩
  | space =>
      cases text with
      | nil => cases h
      | cons c text =>
          rw [strip] at h
          split at h
          · next hc =>
              cases h
              refine ⟨c :: text.takeWhile isBlank, ⟨List.cons_ne_nil _ _, ?_⟩, ?_⟩
              · exact allBlank_cons.mpr ⟨hc, allBlank_takeWhile text⟩
              · rw [List.cons_append, List.takeWhile_append_dropWhile]
          · cases h

namespace IsSolid

variable {piece : Piece}

/-- A solid piece takes off what it spells, and nothing more. -/
theorem strip_of_spells (h : piece.IsSolid) {taken : List Char} (hspells : piece.Spells taken)
    (rest : List Char) : piece.strip (taken ++ rest) = some rest := by
  cases piece with
  | letters word => exact stripWord_eq_some_iff.mpr ⟨taken, hspells, rfl⟩
  | exactly wanted =>
      rw [hspells]
      exact stripWord_eq_some_iff_append.mpr rfl
  | one allowed =>
      obtain ⟨c, hc, rfl⟩ := hspells
      rw [List.singleton_append, strip, if_pos hc]
  | gap => exact h.elim
  | space => exact h.elim

/-- A solid piece spells a text that starts with no blank. -/
theorem head_of_spells (h : piece.IsSolid) {taken : List Char} (hspells : piece.Spells taken)
    (rest : List Char) : ∃ c, (taken ++ rest).head? = some c ∧ isBlank c = false := by
  have hstrip := h.strip_of_spells hspells rest
  cases htext : taken ++ rest with
  | nil =>
      rw [htext, h.strip_nil] at hstrip
      cases hstrip
  | cons c text =>
      refine ⟨c, rfl, ?_⟩
      rw [Bool.eq_false_iff]
      intro hc
      rw [htext, h.strip_blank_cons hc] at hstrip
      cases hstrip

end IsSolid

end Piece

/-! ## Patterns -/

namespace Pattern

/-- The text is put together from what the pieces spell. -/
def Spells : Pattern → List Char → Prop
  | [], text => text = []
  | piece :: rest, text =>
      ∃ taken after, piece.Spells taken ∧ Spells rest after ∧ text = taken ++ after

/-- No piece that follows a gap can start with a blank. -/
def IsSteady : Pattern → Prop
  | [] => True
  | .gap :: rest => (rest = [] ∨ StartsSolid rest) ∧ IsSteady rest
  | .space :: rest => (rest = [] ∨ StartsSolid rest) ∧ IsSteady rest
  | piece :: rest => piece.IsSolid ∧ IsSteady rest

variable {pattern : Pattern}

theorem spells_singleton {piece : Piece} {text : List Char} :
    Spells [piece] text ↔ piece.Spells text := by
  constructor
  · rintro ⟨taken, _, htaken, rfl, rfl⟩
    rwa [List.append_nil]
  · intro h
    exact ⟨text, [], h, rfl, (List.append_nil text).symm⟩

theorem isSteady_cons {piece : Piece} (h : piece.IsSolid) (hrest : pattern.IsSteady) :
    IsSteady (piece :: pattern) := by
  cases piece with
  | gap => exact h.elim
  | space => exact h.elim
  | _ => exact ⟨h, hrest⟩

theorem exists_spells_of_strip {text rest : List Char} (h : pattern.strip text = some rest) :
    ∃ taken, pattern.Spells taken ∧ text = taken ++ rest := by
  induction pattern generalizing text with
  | nil =>
      cases h
      exact ⟨[], rfl, rfl⟩
  | cons piece pieces ih =>
      obtain ⟨middle, hpiece, hpieces⟩ := Option.bind_eq_some_iff.mp h
      obtain ⟨taken, htaken, rfl⟩ := Piece.exists_spells_of_strip hpiece
      obtain ⟨after, hafter, rfl⟩ := ih hpieces
      exact ⟨taken ++ after, ⟨taken, after, htaken, hafter, rfl⟩, (List.append_assoc _ _ _).symm⟩

/-- The blanks before what a pattern spells are dropped up to it. -/
theorem dropWhile_of_spells {blanks after : List Char} (hblanks : AllBlank blanks)
    (hsolid : pattern.StartsSolid) (hspells : pattern.Spells after) (rest : List Char) :
    (blanks ++ (after ++ rest)).dropWhile isBlank = after ++ rest := by
  refine (span_append hblanks ?_).2
  intro c hc
  cases pattern with
  | nil => exact hsolid.elim
  | cons piece pieces =>
      obtain ⟨taken, tail, htaken, -, rfl⟩ := hspells
      have hpiece : piece.IsSolid := hsolid
      obtain ⟨d, hd, hblank⟩ := hpiece.head_of_spells htaken (tail ++ rest)
      rw [List.append_assoc, hd] at hc
      cases hc
      exact hblank

theorem IsSteady.of_cons {piece : Piece} {pieces : Pattern}
    (h : IsSteady (piece :: pieces)) : pieces.IsSteady := by
  cases piece <;> exact h.2

/-- A steady pattern is found at the start of every text that goes on from what it spells. -/
theorem startsOn_of_spells (hsteady : pattern.IsSteady) {taken : List Char}
    (h : pattern.Spells taken) (rest : List Char) :
    pattern.startsOn (taken ++ rest) = true := by
  induction pattern generalizing taken with
  | nil => rfl
  | cons piece pieces ih =>
      obtain ⟨first, after, hfirst, hafter, rfl⟩ := h
      have hlater := ih hsteady.of_cons hafter
      -- blanks go on to a solid piece or end the pattern, where any rest will do
      have hgap : (pieces = [] ∨ StartsSolid pieces) → AllBlank first →
          startsOn pieces ((first ++ (after ++ rest)).dropWhile isBlank) = true := by
        rintro (rfl | hsolid) hblank
        · rfl
        · rw [dropWhile_of_spells hblank hsolid hafter]
          exact hlater
      rw [List.append_assoc]
      cases piece with
      | gap => exact hgap hsteady.1 hfirst
      | space =>
          obtain ⟨hne, hblank⟩ := hfirst
          cases first with
          | nil => exact absurd rfl hne
          | cons c first =>
              have hdrop := hgap hsteady.1 hblank
              rw [allBlank_cons] at hblank
              rw [List.cons_append, List.dropWhile_cons_of_pos hblank.1] at hdrop
              rw [List.cons_append, startsOn, strip, Piece.strip, if_pos hblank.1]
              exact hdrop
      | _ =>
          rw [startsOn, strip, hsteady.1.strip_of_spells hfirst]
          exact hlater

theorem startsOn_iff (hsteady : pattern.IsSteady) {text : List Char} :
    pattern.startsOn text = true ↔ ∃ taken rest, pattern.Spells taken ∧ text = taken ++ rest := by
  constructor
  · intro h
    obtain ⟨rest, hrest⟩ := Option.isSome_iff_exists.mp h
    obtain ⟨taken, htaken, htext⟩ := exists_spells_of_strip hrest
    exact ⟨taken, rest, htaken, htext⟩
  · rintro ⟨taken, rest, htaken, rfl⟩
    exact startsOn_of_spells hsteady htaken rest

end Pattern

/-! ## Searching -/

theorem anySuffix_iff {test : List Char → Bool} {text : List Char} :
    anySuffix test text = true ↔ ∃ before after, text = before ++ after ∧ test after = true := by
  induction text with
  | nil => simp [anySuffix]
  | cons c rest ih =>
      rw [anySuffix, Bool.or_eq_true, ih]
      constructor
      · rintro (h | ⟨before, after, rfl, h⟩)
        · exact ⟨[], c :: rest, rfl, h⟩
        · exact ⟨c :: before, after, rfl, h⟩
      · rintro ⟨before, after, htext, h⟩
        cases before with
        | nil =>
            rw [List.nil_append] at htext
            exact Or.inl (htext ▸ h)
        | cons d before => exact Or.inr ⟨before, after, (List.cons.inj htext).2, h⟩

/-- A search finds what it finds at the first place where it finds anything. -/
theorem firstSuffix?_eq_some_iff {α : Type} {find : List Char → Option α} {text : List Char}
    {found : α} :
    firstSuffix? find text = some found ↔
      ∃ start, find (text.drop start) = some found ∧
        ∀ earlier < start, find (text.drop earlier) = none := by
  induction text with
  | nil =>
      simp only [firstSuffix?, List.drop_nil]
      constructor
      · intro h
        exact ⟨0, h, fun _ hearlier => absurd hearlier (Nat.not_lt_zero _)⟩
      · rintro ⟨_, h, -⟩
        exact h
  | cons c rest ih =>
      rw [firstSuffix?]
      cases hhere : find (c :: rest) with
      | some other =>
          constructor
          · rintro ⟨⟩
            exact ⟨0, hhere, fun _ hearlier => absurd hearlier (Nat.not_lt_zero _)⟩
          · rintro ⟨start, hfound, hearlier⟩
            cases start with
            | zero => exact hhere.symm.trans hfound
            | succ start => cases hhere.symm.trans (hearlier 0 start.succ_pos)
      | none =>
          refine ih.trans ⟨?_, ?_⟩
          · rintro ⟨start, hfound, hearlier⟩
            refine ⟨start + 1, hfound, ?_⟩
            intro earlier hlt
            cases earlier with
            | zero => exact hhere
            | succ earlier => exact hearlier earlier (Nat.lt_of_succ_lt_succ hlt)
          · rintro ⟨start, hfound, hearlier⟩
            cases start with
            | zero => cases hhere.symm.trans hfound
            | succ start =>
                exact ⟨start, hfound, fun earlier hlt =>
                  hearlier (earlier + 1) (Nat.succ_lt_succ hlt)⟩

namespace Pattern

variable {pattern : Pattern}

/-- **A text contains a pattern exactly when the pattern spells a part of it.** -/
theorem occursIn_iff (hsteady : pattern.IsSteady) {text : List Char} :
    pattern.occursIn text = true ↔
      ∃ before taken after, pattern.Spells taken ∧ text = before ++ taken ++ after := by
  rw [occursIn, anySuffix_iff]
  constructor
  · rintro ⟨before, rest, rfl, h⟩
    obtain ⟨taken, after, htaken, rfl⟩ := (startsOn_iff hsteady).mp h
    exact ⟨before, taken, after, htaken, (List.append_assoc _ _ _).symm⟩
  · rintro ⟨before, taken, after, htaken, rfl⟩
    exact ⟨before, taken ++ after, List.append_assoc _ _ _,
      startsOn_of_spells hsteady htaken after⟩

/-- Whether a word character stands last, given whether one stands before. -/
theorem elim_getLast?_cons (inWord : Bool) (c : Char) (before : List Char) :
    (c :: before).getLast?.elim inWord isWord = before.getLast?.elim (isWord c) isWord := by
  rw [List.getLast?_cons]
  cases before.getLast? <;> rfl

theorem occursFrom_iff {inWord : Bool} {text : List Char} :
    pattern.occursFrom inWord text = true ↔
      ∃ before after, text = before ++ after ∧ before.getLast?.elim inWord isWord = false ∧
        pattern.startsOn after = true := by
  induction text generalizing inWord with
  | nil =>
      rw [occursFrom, Bool.and_eq_true, Bool.not_eq_true']
      constructor
      · rintro ⟨hword, h⟩
        exact ⟨[], [], rfl, hword, h⟩
      · rintro ⟨before, after, htext, hword, h⟩
        obtain ⟨rfl, rfl⟩ := List.append_eq_nil_iff.mp htext.symm
        exact ⟨hword, h⟩
  | cons c rest ih =>
      rw [occursFrom, Bool.or_eq_true, Bool.and_eq_true, Bool.not_eq_true', ih]
      constructor
      · rintro (⟨hword, h⟩ | ⟨before, after, rfl, hword, h⟩)
        · exact ⟨[], c :: rest, rfl, hword, h⟩
        · exact ⟨c :: before, after, rfl, (elim_getLast?_cons inWord c before).trans hword, h⟩
      · rintro ⟨before, after, htext, hword, h⟩
        cases before with
        | nil =>
            rw [List.nil_append] at htext
            exact Or.inl ⟨hword, htext ▸ h⟩
        | cons d before =>
            obtain ⟨rfl, rfl⟩ := List.cons.inj htext
            rw [elim_getLast?_cons] at hword
            exact Or.inr ⟨before, after, rfl, hword, h⟩

/-- **A text contains a pattern at the start of a word** exactly when the pattern spells a part of
it that no word character stands before. -/
theorem occursAtWordStart_iff (hsteady : pattern.IsSteady) {text : List Char} :
    pattern.occursAtWordStart text = true ↔
      ∃ before taken after, pattern.Spells taken ∧ text = before ++ taken ++ after ∧
        ∀ c, before.getLast? = some c → isWord c = false := by
  rw [occursAtWordStart, occursFrom_iff]
  constructor
  · rintro ⟨before, rest, rfl, hword, h⟩
    obtain ⟨taken, after, htaken, rfl⟩ := (startsOn_iff hsteady).mp h
    refine ⟨before, taken, after, htaken, (List.append_assoc _ _ _).symm, ?_⟩
    intro c hc
    rwa [hc] at hword
  · rintro ⟨before, taken, after, htaken, rfl, hword⟩
    refine ⟨before, taken ++ after, List.append_assoc _ _ _, ?_,
      startsOn_of_spells hsteady htaken after⟩
    cases hlast : before.getLast? with
    | none => rfl
    | some c => exact hword c hlast

end Pattern

end ScriptLint
