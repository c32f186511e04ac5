import ScriptLint.Json.Lexer
import ScriptLint.Json.Printer

/-!
# Reading back literals

Each piece of a written JSON text is read back as the token it was written for, whatever follows
it. A string literal ends at its own quotation mark. A number has no mark of its end, so it is read
back only if what follows cannot belong to a number.
-/

namespace ScriptLint

/-! ## Digits -/

/-- A hexadecimal digit is read as the number it was written for. -/
theorem hexValue?_hexDigit {n : Nat} (h : n < 16) : hexValue? (hexDigit n) = some n := by
  have every : ∀ m < 16, hexValue? (hexDigit m) = some m := by decide
  exact every n h

@[simp]
theorem valueOfDigits_toDigits (n : Nat) : valueOfDigits (Nat.toDigits 10 n) = n :=
  Nat.ofDigitChars_ten_toDigits

theorem isDigit_of_mem_toDigits {n : Nat} {c : Char} (h : c ∈ Nat.toDigits 10 n) :
    c.isDigit = true :=
  Nat.isDigit_of_mem_toDigits (by decide) (by decide) h

/-- Only the number zero is written with a zero in front. -/
theorem eq_zero_of_toDigits_eq {n : Nat} {rest : List Char}
    (h : Nat.toDigits 10 n = '0' :: rest) : n = 0 ∧ rest = [] := by
  induction n using Nat.strongRecOn generalizing rest with
  | _ n ih =>
      by_cases hsmall : n < 10
      · rw [Nat.toDigits_of_lt_base hsmall] at h
        obtain ⟨hzero, hrest⟩ := List.cons.inj h
        exact ⟨Nat.digitChar_eq_zero.mp hzero, hrest.symm⟩
      · -- The first digit of `n` is that of `n / 10`, which is not zero.
        rw [Nat.toDigits_of_base_le (by decide) (by omega)] at h
        cases hfront : Nat.toDigits 10 (n / 10) with
        | nil => exact absurd hfront Nat.toDigits_ne_nil
        | cons c front =>
            rw [hfront] at h
            obtain ⟨rfl, -⟩ := List.cons.inj h
            have hquotient := (ih (n / 10) (by omega) hfront).1
            omega

namespace Json

/-! ## Strings -/

/-- A draft that has read whole characters only. -/
def StringDraft.ofChars (read : List Char) : StringDraft :=
  { text := some read }

/-- A character below the blank is written by its number. -/
theorem hexUnit?_control {c : Char} (h : c.toNat < 0x20) :
    hexUnit? '0' '0' (hexDigit (c.toNat / 16)) (hexDigit (c.toNat % 16)) = some c.toNat := by
  have hzero : hexValue? '0' = some 0 := by decide
  rw [hexUnit?, hzero, hexValue?_hexDigit (by omega), hexValue?_hexDigit (by omega)]
  simp only [Option.some.injEq]
  omega

theorem addUnit_control {c : Char} (h : c.toNat < 0x20) (read : List Char) :
    (StringDraft.ofChars read).addUnit c.toNat = .ofChars (c :: read) := by
  have hhigh : isHighSurrogate c.toNat = false := by simp [isHighSurrogate]; omega
  have hlow : isLowSurrogate c.toNat = false := by simp [isLowSurrogate]; omega
  simp [StringDraft.ofChars, StringDraft.addUnit, hhigh, hlow]

/-- A character that needs no escape is read as it stands. -/
theorem stringFrom_plain {c : Char} (hquote : c ≠ '\x22') (hslash : c ≠ '\\')
    (hcontrol : ¬c.toNat < 0x20) (draft : StringDraft) (used : Nat) (rest : List Char) :
    stringFrom draft used (c :: rest) = stringFrom (draft.addChar c) (used + 1) rest := by
  rw [stringFrom.eq_def]
  split
  · next heq => cases heq
  · next heq => exact absurd (List.cons.inj heq).1 hslash
  · next heq => exact absurd (List.cons.inj heq).1 hslash
  · next heq =>
      cases heq
      rw [if_neg hquote, if_neg hcontrol]

/-- A character is read back from the way it is written. -/
theorem stringFrom_escaped (c : Char) (read : List Char) (used : Nat) (rest : List Char) :
    stringFrom (.ofChars read) used (escaped c ++ rest) =
      stringFrom (.ofChars (c :: read)) (used + (escaped c).length) rest := by
  unfold escaped
  split
  case h_8 hquote hslash _ _ _ _ _ =>
      -- no short escape: a character below the blank goes by its number, any other by itself
      split
      · next hcontrol =>
          simp only [List.cons_append, List.nil_append]
          rw [stringFrom, hexUnit?_control hcontrol]
          simp only [addUnit_control hcontrol]
          rfl
      · next hplain =>
          simp only [List.cons_append, List.nil_append]
          rw [stringFrom_plain hquote hslash hplain]
          rfl
  all_goals rfl

theorem stringFrom_flatMap_escaped (text read : List Char) (used : Nat) (rest : List Char) :
    stringFrom (.ofChars read) used (text.flatMap escaped ++ '\x22' :: rest) =
      some (some (String.ofList (read.reverse ++ text)),
        used + (text.flatMap escaped).length + 1) := by
  induction text generalizing read used with
  | nil => simp [stringFrom, StringDraft.ofChars, StringDraft.finish]
  | cons c text ih =>
      rw [List.flatMap_cons, List.append_assoc, stringFrom_escaped, ih]
      simp [Nat.add_assoc]

/-! ## Numbers -/

/-- Whether a number ends before the text. -/
def endsNumber : List Char → Bool
  | [] => true
  | c :: _ => !(c.isDigit || c == '.' || c == 'e' || c == 'E')

theorem endsNumber_of_blanks {blanks : List Char} (h : ∀ c ∈ blanks, isJsonBlank c = true) :
    endsNumber blanks = true := by
  cases blanks with
  | nil => rfl
  | cons c blanks =>
      have hc := h c List.mem_cons_self
      simp only [isJsonBlank, Bool.or_eq_true, beq_iff_eq] at hc
      obtain ((rfl | rfl) | rfl) | rfl := hc <;> rfl

theorem isDigit_head?_of_endsNumber {rest : List Char} (h : endsNumber rest = true) :
    ∀ c ∈ rest.head?, c.isDigit = false := by
  cases rest with
  | nil => simp
  | cons c rest =>
      simp only [endsNumber, Bool.not_eq_true', Bool.or_eq_false_iff] at h
      simpa using h.1.1.1

/-- Digits end before a text that does not begin with one. -/
theorem digitsOf_append_of_head {digits rest : List Char}
    (hdigits : ∀ c ∈ digits, c.isDigit = true) (hrest : ∀ c ∈ rest.head?, c.isDigit = false) :
    digitsOf (digits ++ rest) = digits := by
  have hnone : rest.takeWhile Char.isDigit = [] := by
    cases rest with
    | nil => rfl
    | cons c rest => exact List.takeWhile_cons_of_neg (by simp [hrest c rfl])
  rw [digitsOf, List.takeWhile_append_of_pos hdigits, hnone, List.append_nil]

theorem digitsOf_append {digits rest : List Char} (hdigits : ∀ c ∈ digits, c.isDigit = true)
    (hrest : endsNumber rest = true) : digitsOf (digits ++ rest) = digits :=
  digitsOf_append_of_head hdigits (isDigit_head?_of_endsNumber hrest)

theorem integerPart?_toDigits (n : Nat) {rest : List Char} (hrest : endsNumber rest = true) :
    integerPart? (Nat.toDigits 10 n ++ rest) = some (Nat.toDigits 10 n) := by
  have hdigits : ∀ c ∈ Nat.toDigits 10 n, c.isDigit = true := fun _ => isDigit_of_mem_toDigits
  cases hn : Nat.toDigits 10 n with
  | nil => exact absurd hn Nat.toDigits_ne_nil
  | cons c digits =>
      rw [hn] at hdigits
      by_cases hzero : c = '0'
      · subst hzero
        rw [(eq_zero_of_toDigits_eq hn).2]
        rfl
      · rw [List.cons_append, integerPart?.eq_2 _ _ hzero, if_pos (hdigits c List.mem_cons_self),
          ← List.cons_append, digitsOf_append hdigits hrest]

theorem fractionPart?_of_endsNumber {rest : List Char} (h : endsNumber rest = true) :
    fractionPart? rest = some [] := by
  unfold fractionPart?
  split
  · simp [endsNumber] at h
  · rfl

theorem exponentPart?_of_endsNumber {rest : List Char} (h : endsNumber rest = true) :
    exponentPart? rest = some [] := by
  cases rest with
  | nil => rfl
  | cons c rest =>
      simp only [endsNumber, Bool.not_eq_true', Bool.or_eq_false_iff, beq_eq_false_iff_ne] at h
      simp [exponentPart?, h.1.2, h.2]

/-- **A natural number is read back from its digits.** -/
theorem numberAt?_toDigits (n : Nat) {rest : List Char} (hrest : endsNumber rest = true) :
    numberAt? (Nat.toDigits 10 n ++ rest) =
      some (.natural n, (Nat.toDigits 10 n).length) := by
  have hsign : (Nat.toDigits 10 n).head? ≠ some '-' := by
    intro hminus
    have hdigit := isDigit_of_mem_toDigits (List.mem_of_head? hminus)
    exact absurd hdigit (by decide)
  simp [numberAt?, hsign, integerPart?_toDigits n hrest, fractionPart?_of_endsNumber hrest,
    exponentPart?_of_endsNumber hrest]

/-! ## Pieces of a text -/

theorem lexFrom_length (text rest : List Char) :
    lexFrom text.length (text ++ rest) = lexFrom 0 rest := by
  induction text with
  | nil => rfl
  | cons c text ih => exact ih

/-- A token is read with all its characters, and what follows them is read by itself. -/
theorem lexFrom_of_tokenAt? {c : Char} {text rest : List Char} {token : JsonToken}
    (hblank : isJsonBlank c = false)
    (htoken : tokenAt? (c :: text ++ rest) = some (token, text.length + 1)) :
    lexFrom 0 (c :: text ++ rest) = (lexFrom 0 rest).map (token :: ·) := by
  rw [List.cons_append] at htoken ⊢
  rw [lexFrom, hblank, htoken]
  simp [lexFrom_length]

/-- The characters that are a token by themselves. -/
def marks : List (Char × JsonToken) :=
  [('\x7b', .openBrace), ('\x7d', .closeBrace), ('[', .openBracket), (']', .closeBracket),
   (':', .colon), (',', .comma)]

theorem lexFrom_mark (c : Char) (token : JsonToken) (h : (c, token) ∈ marks) (rest : List Char) :
    lexFrom 0 (c :: rest) = (lexFrom 0 rest).map (token :: ·) := by
  simp only [marks, List.mem_cons, Prod.mk.injEq, List.not_mem_nil, or_false] at h
  rcases h with ⟨rfl, rfl⟩ | ⟨rfl, rfl⟩ | ⟨rfl, rfl⟩ | ⟨rfl, rfl⟩ | ⟨rfl, rfl⟩ | ⟨rfl, rfl⟩ <;> rfl

theorem lexFrom_blank (c : Char) (h : isJsonBlank c = true) (rest : List Char) :
    lexFrom 0 (c :: rest) = lexFrom 0 rest := by
  rw [lexFrom, if_pos h]

theorem lexFrom_blanks {blanks : List Char} (h : ∀ c ∈ blanks, isJsonBlank c = true)
    (rest : List Char) : lexFrom 0 (blanks ++ rest) = lexFrom 0 rest := by
  induction blanks with
  | nil => rfl
  | cons c blanks ih =>
      obtain ⟨hc, hblanks⟩ := List.forall_mem_cons.mp h
      rw [List.cons_append, lexFrom_blank c hc, ih hblanks]

theorem lexFrom_lineBreak (depth : Nat) (rest : List Char) :
    lexFrom 0 (lineBreak depth ++ rest) = lexFrom 0 rest := by
  apply lexFrom_blanks
  intro c hc
  rcases List.mem_cons.mp hc with rfl | hc
  · rfl
  · rw [List.eq_of_mem_replicate hc]
    rfl

/-- **A string is read back from its literal**, also one that denotes no text. -/
theorem lexFrom_quoted (text : Option String) (rest : List Char) :
    lexFrom 0 (quoted text ++ rest) = (lexFrom 0 rest).map (.string text :: ·) := by
  cases text with
  | none => rfl
  | some text =>
      have hread := stringFrom_flatMap_escaped text.toList [] 1 rest
      rw [List.reverse_nil, List.nil_append, String.ofList_toList] at hread
      have hquoted : quoted (some text) = '\x22' :: (text.toList.flatMap escaped ++ ['\x22']) := rfl
      rw [hquoted]
      apply lexFrom_of_tokenAt? rfl
      simp only [tokenAt?, List.cons_append, List.append_assoc, List.nil_append]
      rw [show ({} : StringDraft) = .ofChars [] from rfl, hread]
      simp [Nat.add_comm]

theorem isJsonBlank_digit {c : Char} (h : c.isDigit = true) : isJsonBlank c = false := by
  simp only [isJsonBlank, Bool.or_eq_false_iff, beq_eq_false_iff_ne]
  refine ⟨⟨⟨?_, ?_⟩, ?_⟩, ?_⟩ <;> (rintro rfl; exact absurd h (by decide))

theorem tokenAt?_digit {c : Char} (h : c.isDigit = true) (rest : List Char) :
    tokenAt? (c :: rest) = numberAt? (c :: rest) := by
  rw [tokenAt?.eq_def]
  dsimp only
  split
  case h_11 => rfl
  all_goals exact absurd h (by decide)

theorem lexFrom_toDigits (n : Nat) {rest : List Char} (hrest : endsNumber rest = true) :
    lexFrom 0 (Nat.toDigits 10 n ++ rest) = (lexFrom 0 rest).map (.natural n :: ·) := by
  have hnumber := numberAt?_toDigits n hrest
  cases hn : Nat.toDigits 10 n with
  | nil => exact absurd hn Nat.toDigits_ne_nil
  | cons c digits =>
      have hc : c.isDigit = true := isDigit_of_mem_toDigits (hn ▸ List.mem_cons_self)
      apply lexFrom_of_tokenAt? (isJsonBlank_digit hc)
      rw [List.cons_append, tokenAt?_digit hc, ← List.cons_append, ← hn, hnumber, hn]
      rfl

end Json

end ScriptLint
