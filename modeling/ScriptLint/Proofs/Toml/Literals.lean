import Mathlib.Data.List.Basic
import ScriptLint.Proofs.Json.Literals
import ScriptLint.Toml.Parser

/-!
# Literals that JSON and TOML share

A string literal of JSON is also one of TOML, with one exception: a deletion mark stands for itself
in JSON, and TOML does not allow it unescaped. Both take the same short escapes, and a control
character that goes by its four-digit number is the same character to both. Two quotation marks in a
row would open a longer kind of string if a third one followed. The decimal digits of a natural
number and the words for truth values mean the same to both as well.
-/

namespace ScriptLint

namespace Toml

/-- A class of characters tells those in it from all others. -/
theorem ne_of_class {allowed : Char → Bool} {c d : Char} (hc : allowed c = true)
    (hd : allowed d = false) : c ≠ d := by
  rintro rfl
  rw [hc] at hd
  cases hd

/-! ## Digits -/

theorem digit?_hexDigit {n : Nat} (h : n < 16) : digit? 16 (hexDigit n) = some n := by
  rw [digit?, hexValue?_hexDigit h, Option.filter_some, if_pos (by simpa using h)]

theorem digit?_of_isDigit {c : Char} (h : c.isDigit = true) :
    digit? 10 c = some (c.toNat - 48) := by
  have hrange : '0' ≤ c ∧ c ≤ '9' := by
    simpa [Char.isDigit, Char.le_def] using h
  have hlast : c.toNat ≤ 57 := hrange.2
  rw [digit?, hexValue?, if_pos (by simpa using hrange), Option.filter_some, if_pos]
  simp only [decide_eq_true_eq]
  omega

theorem valueOf_eq_valueOfDigits {digits : List Char} (h : ∀ c ∈ digits, c.isDigit = true) :
    valueOf 10 digits = valueOfDigits digits := by
  apply List.foldl_ext
  intro value c hc
  rw [digit?_of_isDigit (h c hc), Option.getD_some]

theorem ungroup_digits {digits : List Char} (h : ∀ c ∈ digits, c.isDigit = true) :
    ungroup 10 true digits = some digits := by
  induction digits with
  | nil => rfl
  | cons c digits ih =>
      obtain ⟨hc, hdigits⟩ := List.forall_mem_cons.mp h
      have hgroup : c ≠ '_' := ne_of_class hc (by decide)
      rw [ungroup.eq_3 _ _ _ _ hgroup, digit?_of_isDigit hc, ih hdigits]
      rfl

/-! ## Natural numbers -/

/-- The digits of a number have no sign, no base and no needless zero in front. -/
theorem decimal?_toDigits (n : Nat) :
    decimal? (Nat.toDigits 10 n) = some (Nat.toDigits 10 n) := by
  have hdigits : ∀ c ∈ Nat.toDigits 10 n, c.isDigit = true := fun _ => isDigit_of_mem_toDigits
  have hread : digits? 10 (Nat.toDigits 10 n) = some (Nat.toDigits 10 n) := by
    cases hn : Nat.toDigits 10 n with
    | nil => exact absurd hn Nat.toDigits_ne_nil
    | cons c digits =>
        rw [hn] at hdigits
        have hgroup : c ≠ '_' := ne_of_class (hdigits c List.mem_cons_self) (by decide)
        -- whether a digit came before decides about an underscore only
        rw [digits?, ungroup.eq_3 _ _ _ _ hgroup, ← ungroup.eq_3 10 true _ _ hgroup,
          ungroup_digits hdigits]
  unfold decimal?
  split
  · next c rest hn => exact absurd (eq_zero_of_toDigits_eq hn).2 (by simp)
  · exact hread

theorem integer?_toDigits {n : Nat} (h : n < Nat.pow 2 128) :
    integer? (Nat.toDigits 10 n) = some (.integer n) := by
  have hread : (decimal? (Nat.toDigits 10 n)).bind (fun read => integerInRange (valueOf 10 read)) =
      some (.integer n) := by
    rw [decimal?_toDigits, Option.bind_some,
      valueOf_eq_valueOfDigits fun _ => isDigit_of_mem_toDigits, valueOfDigits_toDigits,
      integerInRange, if_pos]
    simp only [Nat.pow_eq, Bool.and_eq_true, decide_eq_true_eq]
    constructor
    · omega
    · norm_cast
  have hfront : ∀ c rest, Nat.toDigits 10 n = '0' :: c :: rest → False := by
    intro c rest hn
    exact absurd (eq_zero_of_toDigits_eq hn).2 (by simp)
  have hsign : splitSign (Nat.toDigits 10 n) = (none, Nat.toDigits 10 n) := by
    unfold splitSign
    split
    · next hn => exact absurd (isDigit_of_mem_toDigits (hn ▸ List.mem_cons_self)) (by decide)
    · next hn => exact absurd (isDigit_of_mem_toDigits (hn ▸ List.mem_cons_self)) (by decide)
    · rfl
  unfold integer?
  split
  · next hn => exact (hfront _ _ hn).elim
  · next hn => exact (hfront _ _ hn).elim
  · next hn => exact (hfront _ _ hn).elim
  · rw [hsign]
    exact hread

theorem scalar?_toDigits {n : Nat} (h : n < Nat.pow 2 128) :
    scalar? (Nat.toDigits 10 n) = some (.integer n) := by
  have hword : ∀ c word, c.isDigit = false → Nat.toDigits 10 n ≠ c :: word := by
    intro c word hc hn
    exact ne_of_class (isDigit_of_mem_toDigits (hn ▸ List.mem_cons_self)) hc rfl
  have htrue : Nat.toDigits 10 n ≠ "true".toList := hword 't' _ (by decide)
  have hfalse : Nat.toDigits 10 n ≠ "false".toList := hword 'f' _ (by decide)
  rw [scalar?, if_neg htrue, if_neg hfalse, integer?_toDigits h]
  rfl

/-! ## Strings -/

theorem basicFrom_length (text read rest : List Char) :
    basicFrom text.length read (text ++ rest) = basicFrom 0 read rest := by
  induction text with
  | nil => rfl
  | cons c text ih => exact ih

/-- A control character is read back from its number. -/
theorem escape?_control {c : Char} (h : c.toNat < 0x20) (rest : List Char) :
    escape? ('u' :: '0' :: '0' :: hexDigit (c.toNat / 16) :: hexDigit (c.toNat % 16) :: rest) =
      some (c, 5) := by
  have hzero : digit? 16 '0' = some 0 := by decide
  have hhigh : digit? 16 (hexDigit (c.toNat / 16)) = some (c.toNat / 16) :=
    digit?_hexDigit (by omega)
  have hlow : digit? 16 (hexDigit (c.toNat % 16)) = some (c.toNat % 16) :=
    digit?_hexDigit (by omega)
  have hvalue : valueOf 16 ['0', '0', hexDigit (c.toNat / 16), hexDigit (c.toNat % 16)] =
      c.toNat := by
    simp only [valueOf, List.foldl_cons, List.foldl_nil, hzero, hhigh, hlow, Option.getD_some]
    omega
  have hcode : escapedCode? 4 ('0' :: '0' :: hexDigit (c.toNat / 16) ::
      hexDigit (c.toNat % 16) :: rest) = some c := by
    have hsmall : c.toNat < 0xd800 := by omega
    simp [escapedCode?, hvalue, hzero, hhigh, hlow, hsmall]
  simp [escape?, hcode]

/-- A character is read back from the way JSON writes it, unless it is a deletion mark. -/
theorem basicFrom_escaped {c : Char} (hdelete : c ≠ '\x7f') (read rest : List Char) :
    basicFrom 0 read (Json.escaped c ++ rest) = basicFrom 0 (c :: read) rest := by
  unfold Json.escaped
  split
  case h_8 hquote hslash _ _ _ _ _ =>
      split
      · next hcontrol =>
          simp only [List.cons_append, List.nil_append]
          rw [basicFrom, if_neg (by decide), if_pos rfl, escape?_control hcontrol]
          exact basicFrom_length ['u', '0', '0', hexDigit (c.toNat / 16), hexDigit (c.toNat % 16)]
            (c :: read) rest
      · next hcontrol =>
          have hplain : isPlain c = true := by
            have hcode : c.toNat ≠ 0x7f := fun hc => hdelete (Char.toNat_inj.mp hc)
            simp only [isPlain, Bool.or_eq_true, Bool.and_eq_true, decide_eq_true_eq, bne_iff_ne]
            exact .inr ⟨by omega, hcode⟩
          simp only [List.cons_append, List.nil_append]
          rw [basicFrom, if_neg hquote, if_neg hslash, if_pos hplain]
  all_goals rfl

theorem basicFrom_flatMap_escaped {text : List Char} (hdelete : '\x7f' ∉ text)
    (read rest : List Char) :
    basicFrom 0 read (text.flatMap Json.escaped ++ '\x22' :: rest) =
      some (String.ofList (read.reverse ++ text), rest) := by
  induction text generalizing read with
  | nil => simp [basicFrom]
  | cons c text ih =>
      obtain ⟨hc, htext⟩ := not_or.mp (List.mem_cons.not.mp hdelete)
      rw [List.flatMap_cons, List.append_assoc, basicFrom_escaped (Ne.symm hc), ih htext]
      simp

/-- What a character is written as does not begin with a quotation mark. -/
theorem escaped_eq_cons (c : Char) : ∃ d more, Json.escaped c = d :: more ∧ d ≠ '\x22' := by
  unfold Json.escaped
  split
  case h_8 hquote _ _ _ _ _ _ =>
      split
      · exact ⟨_, _, rfl, by decide⟩
      · exact ⟨_, _, rfl, hquote⟩
  all_goals exact ⟨_, _, rfl, by decide⟩

theorem quoted_append (text : String) (rest : List Char) :
    Json.quoted (some text) ++ rest =
      '\x22' :: (text.toList.flatMap Json.escaped ++ '\x22' :: rest) := by
  have hquoted : Json.quoted (some text) =
      '\x22' :: (text.toList.flatMap Json.escaped ++ ['\x22']) := rfl
  rw [hquoted, List.cons_append, List.append_assoc, List.singleton_append]

/-- **A string is read back from its JSON literal** where no further quotation mark follows. -/
theorem string?_quoted {text : String} (hdelete : '\x7f' ∉ text.toList) {rest : List Char}
    (hrest : rest.head? ≠ some '\x22') :
    string? (Json.quoted (some text) ++ rest) = some (text, rest) := by
  have hread := basicFrom_flatMap_escaped hdelete [] rest
  rw [List.reverse_nil, List.nil_append, String.ofList_toList] at hread
  rw [quoted_append]
  unfold string?
  split
  · -- three marks in a row are not the start of a literal
    next after hmarks =>
      obtain ⟨-, hmarks⟩ := List.cons.inj hmarks
      cases htext : text.toList with
      | nil =>
          rw [htext] at hmarks
          obtain ⟨-, hmarks⟩ := List.cons.inj hmarks
          exact absurd (congrArg List.head? hmarks) hrest
      | cons c chars =>
          obtain ⟨d, more, hfirst, hd⟩ := escaped_eq_cons c
          rw [htext, List.flatMap_cons, hfirst] at hmarks
          exact absurd (List.cons.inj hmarks).1 hd
  · next hmarks => exact absurd (List.cons.inj hmarks).1 (by decide)
  · exact hread

end Toml

end ScriptLint
