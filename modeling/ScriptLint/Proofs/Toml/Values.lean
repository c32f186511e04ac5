import ScriptLint.Proofs.Json.Compact
import ScriptLint.Proofs.Text.Spelling
import ScriptLint.Proofs.Toml.Literals

/-!
# Values at the end of a line

A value that JSON writes without blanks is also a TOML value, if it is a natural number, a truth
value or an array of strings. A number or a word has no mark of its end. The end of the line ends
it, and no blank follows it that could join a date and a time. Inside an array, each string is
followed by a comma or the closing bracket.
-/

namespace ScriptLint

namespace Toml

/-! ## Where nothing is skipped -/

/-- Whether a text begins with something that counts, or is at its end. -/
def startsVisibly : List Char → Bool
  | [] => true
  | c :: _ => !(isLineBlank c || c == '#' || c == '\n' || c == '\r')

/-- A character counts if it is of a class to which nothing belongs that is skipped. -/
theorem startsVisibly_of_class {allowed : Char → Bool}
    (hskipped : [' ', '\t', '#', '\n', '\r'].any allowed = false) {c : Char}
    (hc : allowed c = true) (rest : List Char) : startsVisibly (c :: rest) = true := by
  simp only [List.any_cons, List.any_nil, Bool.or_eq_false_iff, Bool.or_false] at hskipped
  obtain ⟨hblank, htab, hcomment, hfeed, hreturn⟩ := hskipped
  simp [startsVisibly, isLineBlank, ne_of_class hc hblank, ne_of_class hc htab,
    ne_of_class hc hcomment, ne_of_class hc hfeed, ne_of_class hc hreturn]

theorem skipBlanks_of_startsVisibly {text : List Char} (h : startsVisibly text = true) :
    skipBlanks text = text := by
  cases text with
  | nil => rfl
  | cons c rest =>
      simp only [startsVisibly, Bool.not_eq_true', Bool.or_eq_false_iff] at h
      exact List.dropWhile_cons_of_neg (by simp [h.1.1.1])

theorem skipLines_of_startsVisibly {text : List Char} (h : startsVisibly text = true)
    (fuel : Nat) : skipLines (fuel + 1) text = some text := by
  have hcomment : skipComment? text = some text := by
    unfold skipComment?
    split
    · simp [startsVisibly] at h
    · rfl
  have hbreak : lineBreakLength text = 0 := by
    unfold lineBreakLength
    split
    · simp [startsVisibly] at h
    · simp [startsVisibly] at h
    · rfl
  rw [skipLines, skipBlanks_of_startsVisibly h, hcomment]
  simp only [hbreak, if_true]

theorem nextVisible?_of_startsVisibly {text : List Char} (h : startsVisibly text = true) :
    nextVisible? text = some text :=
  skipLines_of_startsVisibly h text.length

/-! ## Where a line ends -/

/-- The two ways to end a line. -/
def lineBreaks : List (List Char) :=
  [['\n'], ['\r', '\n']]

theorem mem_lineBreaks {text : List Char} :
    text ∈ lineBreaks ↔ text = ['\n'] ∨ text = ['\r', '\n'] := by
  simp [lineBreaks]

/-- Whether a text begins with a line break or is at its end. -/
def atLineEnd (text : List Char) : Bool :=
  text.isEmpty || lineBreakLength text != 0

theorem atLineEnd_append {lineBreak : List Char} (h : lineBreak ∈ lineBreaks)
    (rest : List Char) : atLineEnd (lineBreak ++ rest) = true := by
  rcases mem_lineBreaks.mp h with rfl | rfl <;> rfl

theorem head?_of_atLineEnd {text : List Char} (h : atLineEnd text = true) {c : Char}
    (hc : text.head? = some c) : c = '\n' ∨ c = '\r' := by
  unfold atLineEnd lineBreakLength at h
  split at h
  · exact .inl (Option.some.inj hc).symm
  · exact .inr (Option.some.inj hc).symm
  · cases text with
    | nil => cases hc
    | cons d rest => cases h

/-- A line break is skipped, and so is none. -/
theorem nextVisible?_gap {gap text : List Char} (hgap : gap ∈ [] :: lineBreaks)
    (htext : startsVisibly text = true) : nextVisible? (gap ++ text) = some text := by
  rw [List.mem_cons, mem_lineBreaks] at hgap
  rcases hgap with rfl | rfl | rfl
  · exact nextVisible?_of_startsVisibly htext
  · exact skipLines_of_startsVisibly htext text.length
  · exact skipLines_of_startsVisibly htext (text.length + 1)

theorem endOfLine?_of_atLineEnd {text : List Char} (h : atLineEnd text = true) :
    endOfLine? text = some text := by
  have hblanks : skipBlanks text = text := by
    cases text with
    | nil => rfl
    | cons c rest =>
        apply List.dropWhile_cons_of_neg
        rcases head?_of_atLineEnd h rfl with rfl | rfl <;> decide
  have hcomment : skipComment? text = some text := by
    unfold skipComment?
    split
    · cases h
    · rfl
  rw [endOfLine?, hblanks, hcomment]
  exact if_pos h

/-! ## Values -/

/-- The literal is read as the value if the line ends after it. -/
structure IsLiteral (literal : List Char) (value : Toml) : Prop where
  nonempty : literal ≠ []
  visible : startsVisibly literal = true
  reads : ∀ {rest : List Char}, atLineEnd rest = true → ∀ {fuel : Nat}, literal.length < fuel →
    ∀ depth : Nat, valueFrom fuel (depth + 1) (literal ++ rest) = some (value, rest)

theorem scalarExtent_append {literal rest : List Char}
    (hliteral : ∀ c ∈ literal, isScalarChar c = true) (hrest : atLineEnd rest = true) :
    scalarExtent (literal ++ rest) = (literal, rest) := by
  have hstop : ∀ c, rest.head? = some c → isScalarChar c = false := by
    intro c hc
    rcases head?_of_atLineEnd hrest hc with rfl | rfl <;> decide
  obtain ⟨htake, hdrop⟩ := span_append hliteral hstop
  unfold scalarExtent
  simp only [htake, hdrop]
  split
  · cases hrest
  · rfl

/-- A scalar begins with none of the marks that open other values. -/
theorem valueFrom_scalarChar {c : Char} (h : isScalarChar c = true) (fuel depth : Nat)
    (rest : List Char) :
    valueFrom (fuel + 1) depth (c :: rest) =
      (scalar? (scalarExtent (c :: rest)).1).map fun value =>
        (value, (scalarExtent (c :: rest)).2) := by
  have hmark : ∀ mark, isScalarChar mark = false → c ≠ mark := fun _ => ne_of_class h
  cases depth <;>
    simp [valueFrom, hmark '\x22' (by decide), hmark '\x27' (by decide), hmark '[' (by decide),
      hmark '\x7b' (by decide)]

theorem isLiteral_scalar {literal : List Char} {value : Toml} (hnonempty : literal ≠ [])
    (hchars : ∀ c ∈ literal, isScalarChar c = true) (hvalue : scalar? literal = some value) :
    IsLiteral literal value := by
  obtain ⟨c, more, rfl⟩ := List.exists_cons_of_ne_nil hnonempty
  have hc : isScalarChar c = true := hchars c List.mem_cons_self
  refine ⟨hnonempty, startsVisibly_of_class (by decide) hc more, ?_⟩
  intro rest hrest fuel hfuel depth
  obtain ⟨fuel, rfl⟩ : ∃ left, fuel = left + 1 := ⟨fuel - 1, by omega⟩
  rw [List.cons_append, valueFrom_scalarChar hc, ← List.cons_append,
    scalarExtent_append hchars hrest, hvalue, Option.map_some]

theorem isLiteral_natural {n : Nat} (h : n < Nat.pow 2 128) :
    IsLiteral (Nat.toDigits 10 n) (.integer n) := by
  refine isLiteral_scalar Nat.toDigits_ne_nil ?_ (scalar?_toDigits h)
  intro c hc
  have hdigit := isDigit_of_mem_toDigits hc
  simp [isScalarChar, Char.isAlphanum, hdigit]

theorem isLiteral_boolean (value : Bool) :
    IsLiteral (Json.compact (.bool value)) (.boolean value) := by
  cases value with
  | true => exact isLiteral_scalar (by decide) (List.all_eq_true.mp (by decide)) rfl
  | false => exact isLiteral_scalar (by decide) (List.all_eq_true.mp (by decide)) rfl

theorem valueFrom_quoted {text : String} (hdelete : '\x7f' ∉ text.toList) {rest : List Char}
    (hrest : rest.head? ≠ some '\x22') (fuel depth : Nat) :
    valueFrom (fuel + 1) depth (Json.quoted (some text) ++ rest) = some (.string text, rest) := by
  have hread := string?_quoted hdelete hrest
  rw [quoted_append] at hread ⊢
  cases depth <;> simp [valueFrom, hread]

/-- The items of an array of strings after the first one. -/
def laterItems (texts : List String) : List Char :=
  texts.flatMap fun text => ',' :: Json.quoted (some text)

theorem spellAll_itemTokens (texts : List String) :
    Json.spellAll (Json.itemTokens (texts.map Json.text)) = laterItems texts := by
  induction texts with
  | nil => rfl
  | cons text texts ih =>
      simp only [List.map_cons, Json.itemTokens, Json.text, Json.tokens, Json.spellAll_append,
        Json.spellAll_cons, List.cons_append, laterItems, List.flatMap_cons] at ih ⊢
      simp [ih, JsonToken.spelling]

/-- A string is read, and then what follows it decides about the array. -/
theorem itemsFrom_quoted {text : String} (hdelete : '\x7f' ∉ text.toList) {after : List Char}
    (hquote : after.head? ≠ some '\x22') (fuel depth : Nat) :
    itemsFrom (fuel + 2) depth (Json.quoted (some text) ++ after) =
      match nextVisible? after with
      | some (',' :: rest) =>
          (itemsFrom (fuel + 1) depth rest).map fun found => (.string text :: found.1, found.2)
      | some (']' :: rest) => some ([.string text], rest)
      | _ => none := by
  have hvalue := valueFrom_quoted hdelete hquote fuel depth
  rw [quoted_append] at hvalue ⊢
  rw [itemsFrom, nextVisible?_of_startsVisibly rfl]
  split
  · next heq => cases heq
  · next heq => exact absurd (List.cons.inj (Option.some.inj heq)).1 (by decide)
  · next heq =>
      cases heq
      exact hvalue ▸ rfl

theorem itemsFrom_texts {first : String} {others : List String}
    (hdelete : ∀ text ∈ first :: others, '\x7f' ∉ text.toList) {fuel : Nat}
    (hfuel : others.length + 1 < fuel) (depth : Nat) (rest : List Char) :
    itemsFrom fuel depth (Json.quoted (some first) ++ (laterItems others ++ ']' :: rest)) =
      some ((first :: others).map .string, rest) := by
  -- a string and the comma after it cost one step; two are left for the last string and the bracket
  induction others generalizing first fuel with
  | nil =>
      obtain ⟨fuel, rfl⟩ : ∃ left, fuel = left + 2 := ⟨fuel - 2, by omega⟩
      have hfirst := hdelete first List.mem_cons_self
      rw [itemsFrom_quoted hfirst (by simp [laterItems]),
        nextVisible?_of_startsVisibly rfl]
      rfl
  | cons next others ih =>
      obtain ⟨hfirst, hothers⟩ := List.forall_mem_cons.mp hdelete
      rw [List.length_cons] at hfuel
      obtain ⟨fuel, rfl⟩ : ∃ left, fuel = left + 2 := ⟨fuel - 2, by omega⟩
      have hnext := ih hothers (show others.length + 1 < fuel + 1 by omega)
      rw [itemsFrom_quoted hfirst (by simp [laterItems]),
        nextVisible?_of_startsVisibly rfl]
      simp only [laterItems, List.flatMap_cons, List.cons_append, List.append_assoc] at hnext ⊢
      rw [hnext]
      rfl

theorem length_le_laterItems (texts : List String) :
    texts.length ≤ (laterItems texts).length := by
  induction texts with
  | nil => rfl
  | cons text texts ih =>
      simp only [laterItems, List.flatMap_cons, List.length_append, List.length_cons] at ih ⊢
      omega

theorem valueFrom_bracket (fuel depth : Nat) (rest : List Char) :
    valueFrom (fuel + 1) (depth + 1) ('[' :: rest) =
      (itemsFrom fuel depth rest).map fun found => (.array found.1, found.2) := by
  simp [valueFrom]

theorem compact_texts (first : String) (others : List String) :
    Json.compact (.array ((first :: others).map Json.text)) =
      '[' :: (Json.quoted (some first) ++ (laterItems others ++ [']'])) := by
  simp [Json.compact, Json.tokens, Json.text, JsonToken.spelling, ← spellAll_itemTokens]

/-- **An array of strings is read back from its JSON text.** -/
theorem isLiteral_texts {texts : List String} (hdelete : ∀ text ∈ texts, '\x7f' ∉ text.toList) :
    IsLiteral (Json.compact (.array (texts.map Json.text))) (.array (texts.map .string)) := by
  cases texts with
  | nil =>
      refine ⟨by decide, by decide, ?_⟩
      intro rest _ fuel hfuel depth
      obtain ⟨fuel, rfl⟩ : ∃ left, fuel = left + 2 := ⟨fuel - 2, by
        have hlength : (Json.compact (.array [])).length = 2 := rfl
        simp only [List.map_nil, hlength] at hfuel
        omega⟩
      have hclose : nextVisible? (']' :: rest) = some (']' :: rest) :=
        nextVisible?_of_startsVisibly rfl
      change valueFrom (fuel + 2) (depth + 1) ('[' :: ']' :: rest) = _
      rw [valueFrom_bracket, itemsFrom, hclose]
      rfl
  | cons first others =>
      rw [compact_texts]
      refine ⟨by simp, rfl, ?_⟩
      intro rest _ fuel hfuel depth
      have hlater := length_le_laterItems others
      simp only [List.length_cons, List.length_append] at hfuel
      obtain ⟨fuel, rfl⟩ : ∃ left, fuel = left + 1 := ⟨fuel - 1, by omega⟩
      have hitems := itemsFrom_texts hdelete (show others.length + 1 < fuel by omega) depth rest
      simp only [List.cons_append, List.append_assoc, List.nil_append]
      rw [valueFrom_bracket, hitems]
      rfl

end Toml

end ScriptLint
