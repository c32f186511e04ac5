import ScriptLint.Proofs.Json.RoundTrip
import ScriptLint.Proofs.Text.Lines

/-!
# JSON texts

A document can be written in many ways. There may be blanks before and after each value and each
name, a character of a string can stand for itself or be escaped, and an escape of four digits is
only half of some characters. `Spells` says which texts spell a value, rule by rule, without any
order in which a text is looked at. Every one of them is read as the value it spells, however deep
arrays and objects are nested.
-/

namespace ScriptLint

namespace Json

/-! ## The grammar -/

/-- What a piece of a string literal stands for. -/
inductive StringUnit where
  | char (c : Char)
  /-- The code of an escape of four digits. It may be half of a surrogate pair. -/
  | escape (code : Nat)

/-- The ways to write a piece of a string literal. -/
inductive SpellsUnit : List Char → StringUnit → Prop
  | plain {c : Char} (hquote : c ≠ '\x22') (hslash : c ≠ '\\') (hcontrol : ¬c.toNat < 0x20) :
      SpellsUnit [c] (.char c)
  | short {mark c : Char} (h : simpleEscape? mark = some c) : SpellsUnit ['\\', mark] (.char c)
  | digits {a b c d : Char} {code : Nat} (h : hexUnit? a b c d = some code) :
      SpellsUnit ['\\', 'u', a, b, c, d] (.escape code)

/-- The characters that units stand for. There are none if half of a pair stands alone. -/
def charsOf? : List StringUnit → Option (List Char)
  | [] => some []
  | .char c :: rest => (charsOf? rest).map (c :: ·)
  | .escape first :: rest =>
      if isHighSurrogate first then
        match rest with
        | .escape second :: rest =>
            if isLowSurrogate second then (charsOf? rest).map (pairedChar first second :: ·)
            else none
        | _ => none
      else if isLowSurrogate first then none
      else (charsOf? rest).map (Char.ofNat first :: ·)

/-- A string literal is made of pieces between quotation marks. -/
inductive SpellsString : List Char → Option String → Prop
  | quoted {pieces : List (List Char × StringUnit)}
      (each : ∀ piece ∈ pieces, SpellsUnit piece.1 piece.2) :
      SpellsString ('\x22' :: (pieces.flatMap Prod.fst ++ ['\x22']))
        ((charsOf? (pieces.map Prod.snd)).map String.ofList)

/-- Digits without a zero in front of others. -/
inductive IsInteger : List Char → Prop
  | zero : IsInteger ['0']
  | digits {c : Char} {rest : List Char} (hfirst : c ≠ '0')
      (hdigits : ∀ digit ∈ c :: rest, digit.isDigit = true) : IsInteger (c :: rest)

/-- What may stand between an integer and an exponent. -/
inductive IsFraction : List Char → Prop
  | absent : IsFraction []
  | point {digits : List Char} (hne : digits ≠ [])
      (hdigits : ∀ digit ∈ digits, digit.isDigit = true) : IsFraction ('.' :: digits)

/-- What may stand at the end of a number. -/
inductive IsExponent : List Char → Prop
  | absent : IsExponent []
  | mark {mark : Char} {sign digits : List Char} (hmark : mark = 'e' ∨ mark = 'E')
      (hsign : sign = [] ∨ sign = ['+'] ∨ sign = ['-']) (hne : digits ≠ [])
      (hdigits : ∀ digit ∈ digits, digit.isDigit = true) : IsExponent (mark :: (sign ++ digits))

/-- A number is natural if it consists of an integer alone, and any other number keeps its text. -/
inductive SpellsNumber : List Char → Json → Prop
  | natural {integer : List Char} (hinteger : IsInteger integer) :
      SpellsNumber integer (.natural (valueOfDigits integer))
  | other {sign integer fraction exponent : List Char} (hsign : sign = [] ∨ sign = ['-'])
      (hinteger : IsInteger integer) (hfraction : IsFraction fraction)
      (hexponent : IsExponent exponent) (hmore : sign ++ fraction ++ exponent ≠ []) :
      SpellsNumber (sign ++ (integer ++ (fraction ++ exponent)))
        (.number (String.ofList (sign ++ (integer ++ (fraction ++ exponent)))))

/-- A place in a text for something that has a meaning, with blanks around it. -/
structure Spot (α : Type) where
  before : List Char
  core : List Char
  after : List Char
  meaning : α
  isBlank_before : ∀ c ∈ before, isJsonBlank c = true
  isBlank_after : ∀ c ∈ after, isJsonBlank c = true

def Spot.text {α : Type} (spot : Spot α) : List Char :=
  spot.before ++ (spot.core ++ spot.after)

/-- A member of an object, with blanks around its name and its value. -/
structure MemberSpot where
  name : Spot (Option String)
  value : Spot Json

namespace MemberSpot

def text (member : MemberSpot) : List Char :=
  member.name.text ++ ':' :: member.value.text

def meaning (member : MemberSpot) : Option String × Json :=
  (member.name.meaning, member.value.meaning)

end MemberSpot

/-- The words that are a value by themselves. -/
def words : List (String × Json) :=
  [("null", .null), ("true", .bool true), ("false", .bool false)]

/-- The texts of a value without blanks around them. -/
inductive Spells : List Char → Json → Prop
  | word {word : String} {value : Json} (h : (word, value) ∈ words) : Spells word.toList value
  | number {text : List Char} {value : Json} (h : SpellsNumber text value) : Spells text value
  | string {text : List Char} {meaning : Option String} (h : SpellsString text meaning) :
      Spells text (.string meaning)
  | emptyArray {blanks : List Char} (h : ∀ c ∈ blanks, isJsonBlank c = true) :
      Spells ('[' :: (blanks ++ [']'])) (.array [])
  | array {items : List (Spot Json)} (hne : items ≠ [])
      (each : ∀ item ∈ items, Spells item.core item.meaning) :
      Spells ('[' :: (joinAt ',' (items.map Spot.text) ++ [']'])) (.array (items.map Spot.meaning))
  | emptyObject {blanks : List Char} (h : ∀ c ∈ blanks, isJsonBlank c = true) :
      Spells ('\x7b' :: (blanks ++ ['\x7d'])) (.object [])
  | object {members : List MemberSpot} (hne : members ≠ [])
      (names : ∀ member ∈ members, SpellsString member.name.core member.name.meaning)
      (each : ∀ member ∈ members, Spells member.value.core member.value.meaning) :
      Spells ('\x7b' :: (joinAt ',' (members.map MemberSpot.text) ++ ['\x7d']))
        (.object (members.map MemberSpot.meaning))

/-- A text spells a document if it is a text of it with blanks around. -/
def SpellsDocument (text : String) (document : Json) : Prop :=
  ∃ spot : Spot Json, spot.meaning = document ∧ Spells spot.core document ∧
    text = String.ofList spot.text

/-! ## Strings -/

/-- Adds what a piece of a string stands for. -/
def StringDraft.add (draft : StringDraft) : StringUnit → StringDraft
  | .char c => draft.addChar c
  | .escape code => draft.addUnit code

/-- A piece of a string is read at once. -/
theorem stringFrom_unit {text : List Char} {unit : StringUnit} (h : SpellsUnit text unit)
    (draft : StringDraft) (used : Nat) (rest : List Char) :
    stringFrom draft used (text ++ rest) =
      stringFrom (draft.add unit) (used + text.length) rest := by
  cases h with
  | plain hquote hslash hcontrol => exact stringFrom_plain hquote hslash hcontrol draft used rest
  | @short mark c h =>
      -- no mark of a short escape is that of an escape of four digits
      have hmark : mark ≠ 'u' := by
        rintro rfl
        cases h
      show stringFrom draft used ('\\' :: mark :: rest) = _
      rw [stringFrom.eq_3 _ _ _ _ fun _ _ _ _ _ heq _ => hmark heq, h]
      rfl
  | @digits a b c d code h =>
      show stringFrom draft used ('\\' :: 'u' :: a :: b :: c :: d :: rest) = _
      rw [stringFrom, h]
      rfl

theorem stringFrom_pieces {pieces : List (List Char × StringUnit)}
    (each : ∀ piece ∈ pieces, SpellsUnit piece.1 piece.2) (draft : StringDraft) (used : Nat)
    (rest : List Char) :
    stringFrom draft used (pieces.flatMap Prod.fst ++ rest) =
      stringFrom ((pieces.map Prod.snd).foldl StringDraft.add draft)
        (used + (pieces.flatMap Prod.fst).length) rest := by
  induction pieces generalizing draft used with
  | nil => rfl
  | cons piece pieces ih =>
      obtain ⟨hpiece, hpieces⟩ := List.forall_mem_cons.mp each
      rw [List.flatMap_cons, List.append_assoc, stringFrom_unit hpiece, ih hpieces,
        List.length_append, Nat.add_assoc]
      rfl

/-- Once half of a pair stood alone, the string denotes no text. -/
theorem finish_of_text_eq_none {draft : StringDraft} (h : draft.text = none)
    (units : List StringUnit) : (units.foldl StringDraft.add draft).finish = none := by
  induction units generalizing draft with
  | nil => cases hhigh : draft.high <;> simp [StringDraft.finish, hhigh, h]
  | cons unit units ih =>
      refine ih ?_
      cases unit with
      | char c => cases hhigh : draft.high <;> simp [StringDraft.add, StringDraft.addChar, hhigh, h]
      | escape code =>
          simp only [StringDraft.add, StringDraft.addUnit, h, Option.map_none]
          repeat' split
          all_goals rfl

/-- After the first half of a pair. -/
def StringDraft.afterHigh (read : List Char) (high : Nat) : StringDraft :=
  { text := some read, high := some high }

theorem StringDraft.add_high {code : Nat} (h : isHighSurrogate code = true) (read : List Char) :
    (StringDraft.ofChars read).add (.escape code) = .afterHigh read code := by
  simp [add, addUnit, ofChars, afterHigh, h]

theorem StringDraft.add_escape {code : Nat} (hhigh : ¬isHighSurrogate code = true)
    (hlow : ¬isLowSurrogate code = true) (read : List Char) :
    (StringDraft.ofChars read).add (.escape code) = .ofChars (Char.ofNat code :: read) := by
  simp [add, addUnit, ofChars, hhigh, hlow]

theorem StringDraft.add_pair {high code : Nat} (h : isLowSurrogate code = true)
    (read : List Char) :
    (StringDraft.afterHigh read high).add (.escape code) =
      .ofChars (pairedChar high code :: read) := by
  simp [add, addUnit, ofChars, afterHigh, h]

/-- **What is read of a string is what its pieces stand for.** -/
theorem finish_foldl_add (units : List StringUnit) (read : List Char) :
    (units.foldl StringDraft.add (.ofChars read)).finish =
      (charsOf? units).map fun chars => String.ofList (read.reverse ++ chars) := by
  fun_induction charsOf? units generalizing read with
  | case1 => simp [StringDraft.ofChars, StringDraft.finish]
  | case2 c rest ih =>
      have hchar : (StringDraft.ofChars read).add (.char c) = .ofChars (c :: read) := rfl
      rw [List.foldl_cons, hchar, ih]
      simp [Function.comp_def]
  | case3 first hhigh second rest hlow ih =>
      rw [List.foldl_cons, List.foldl_cons, StringDraft.add_high hhigh,
        StringDraft.add_pair hlow, ih]
      simp [Function.comp_def]
  | case4 first hhigh second rest hlow =>
      rw [List.foldl_cons, List.foldl_cons, StringDraft.add_high hhigh]
      exact finish_of_text_eq_none (by simp [StringDraft.add, StringDraft.addUnit,
        StringDraft.afterHigh, hlow]) rest
  | case5 first rest hhigh hother =>
      rw [List.foldl_cons, StringDraft.add_high hhigh]
      cases rest with
      | nil => rfl
      | cons unit rest =>
          cases unit with
          | char c => exact finish_of_text_eq_none rfl rest
          | escape second => exact (hother second rest rfl).elim
  | case6 first rest hhigh hlow =>
      rw [List.foldl_cons]
      exact finish_of_text_eq_none (by simp [StringDraft.add, StringDraft.addUnit,
        StringDraft.ofChars, hhigh, hlow]) rest
  | case7 first rest hhigh hlow ih =>
      rw [List.foldl_cons, StringDraft.add_escape hhigh hlow, ih]
      simp [Function.comp_def]

/-! ## What a text is read as -/

/-- The text is cut into the tokens, before any text in which a number does not go on. -/
def Lexes (text : List Char) (tokens : List JsonToken) : Prop :=
  ∀ rest, endsNumber rest = true →
    lexFrom 0 (text ++ rest) = (lexFrom 0 rest).map (tokens ++ ·)

namespace Lexes

variable {text more : List Char} {ts us : List JsonToken}

theorem append (ht : Lexes text ts) (hmore : Lexes more us) (hend : endsNumber more = true) :
    Lexes (text ++ more) (ts ++ us) := by
  intro rest hrest
  have hfollow : endsNumber (more ++ rest) = true := by
    cases more with
    | nil => exact hrest
    | cons c more => exact hend
  rw [List.append_assoc, ht _ hfollow, hmore rest hrest, Option.map_map]
  simp [Function.comp_def]

theorem mark {c : Char} {token : JsonToken} (h : (c, token) ∈ marks) (hmore : Lexes more us) :
    Lexes (c :: more) (token :: us) := by
  intro rest hrest
  rw [List.cons_append, lexFrom_mark c token h, hmore rest hrest, Option.map_map]
  rfl

theorem blanks (h : ∀ c ∈ text, isJsonBlank c = true) (hmore : Lexes more us) :
    Lexes (text ++ more) us := by
  intro rest hrest
  rw [List.append_assoc, lexFrom_blanks h, hmore rest hrest]

theorem nil : Lexes [] [] := fun rest _ => by simp

end Lexes

/-- A string ends at its quotation mark. -/
theorem stringFrom_quote (draft : StringDraft) (used : Nat) (rest : List Char) :
    stringFrom draft used ('\x22' :: rest) = some (draft.finish, used + 1) := by
  simp [stringFrom]

/-- A string literal is one token. -/
theorem SpellsString.lexes {text : List Char} {meaning : Option String}
    (h : SpellsString text meaning) : Lexes text [.string meaning] := by
  intro rest _
  cases h with
  | @quoted pieces each =>
      have hfinish := finish_foldl_add (pieces.map Prod.snd) []
      have hread : stringFrom {} 1 (pieces.flatMap Prod.fst ++ '\x22' :: rest) =
          some ((charsOf? (pieces.map Prod.snd)).map String.ofList,
            1 + (pieces.flatMap Prod.fst).length + 1) := by
        rw [stringFrom_pieces each, stringFrom_quote]
        exact congrArg (fun found => some (found, _)) hfinish
      apply lexFrom_of_tokenAt? rfl
      simp only [tokenAt?, List.cons_append, List.append_assoc, List.nil_append, hread]
      simp [Nat.add_comm]

/-! ## Numbers -/

theorem IsInteger.integerPart? {integer rest : List Char} (h : IsInteger integer)
    (hrest : ∀ c ∈ rest.head?, c.isDigit = false) :
    integerPart? (integer ++ rest) = some integer := by
  cases h with
  | zero => rfl
  | @digits c digits hfirst hdigits =>
      rw [List.cons_append, integerPart?.eq_2 _ _ hfirst, if_pos (hdigits c List.mem_cons_self),
        ← List.cons_append, digitsOf_append_of_head hdigits hrest]

theorem signPart_digits {digits rest : List Char} (hne : digits ≠ [])
    (hdigits : ∀ digit ∈ digits, digit.isDigit = true) : signPart (digits ++ rest) = [] := by
  obtain ⟨c, more, rfl⟩ := List.exists_cons_of_ne_nil hne
  have hc := hdigits c List.mem_cons_self
  refine signPart.eq_3 _ ?_ ?_ <;>
  · rintro tail heq
    obtain ⟨rfl, -⟩ := List.cons.inj heq
    exact absurd hc (by decide)

theorem IsExponent.exponentPart? {exponent rest : List Char} (h : IsExponent exponent)
    (hrest : endsNumber rest = true) : exponentPart? (exponent ++ rest) = some exponent := by
  cases h with
  | absent => exact exponentPart?_of_endsNumber hrest
  | @mark mark sign digits hmark hsign hne hdigits =>
      have hread := digitsOf_append_of_head hdigits (isDigit_head?_of_endsNumber hrest)
      have hsigned : signPart (sign ++ (digits ++ rest)) = sign := by
        rcases hsign with rfl | rfl | rfl
        · show signPart (digits ++ rest) = []
          exact signPart_digits hne hdigits
        · rfl
        · rfl
      simp [Json.exponentPart?, hmark, hsigned, hread, hne]

/-- No digit and no point follows a fraction. -/
theorem IsExponent.head?_append {exponent rest : List Char} (h : IsExponent exponent)
    (hrest : endsNumber rest = true) :
    ∀ c ∈ (exponent ++ rest).head?, c.isDigit = false ∧ c ≠ '.' := by
  cases h with
  | absent =>
      cases rest with
      | nil => simp
      | cons c rest =>
          simp only [endsNumber, Bool.not_eq_true', Bool.or_eq_false_iff,
            beq_eq_false_iff_ne] at hrest
          simpa using hrest.1.1
  | mark hmark => rcases hmark with rfl | rfl <;> simp

theorem IsFraction.fractionPart? {fraction rest : List Char} (h : IsFraction fraction)
    (hrest : ∀ c ∈ rest.head?, c.isDigit = false ∧ c ≠ '.') :
    fractionPart? (fraction ++ rest) = some fraction := by
  cases h with
  | absent =>
      refine fractionPart?.eq_2 _ ?_
      rintro tail rfl
      exact (hrest '.' rfl).2 rfl
  | @point digits hne hdigits =>
      have hread := digitsOf_append_of_head hdigits fun c hc => (hrest c hc).1
      simp [Json.fractionPart?, hread, hne]

/-- No digit follows an integer. -/
theorem IsFraction.head?_append {fraction rest : List Char} (h : IsFraction fraction)
    (hrest : ∀ c ∈ rest.head?, c.isDigit = false ∧ c ≠ '.') :
    ∀ c ∈ (fraction ++ rest).head?, c.isDigit = false := by
  cases h with
  | absent => exact fun c hc => (hrest c hc).1
  | point => simp

/-- A number begins with a digit after its sign. -/
theorem IsInteger.exists_digit {integer : List Char} (h : IsInteger integer) :
    ∃ c more, integer = c :: more ∧ c.isDigit = true := by
  cases h with
  | zero => exact ⟨'0', [], rfl, by decide⟩
  | @digits c rest _ hdigits => exact ⟨c, rest, rfl, hdigits c List.mem_cons_self⟩

/-- **A number is read with all its parts.** -/
theorem numberAt?_parts {sign integer fraction exponent rest : List Char}
    (hsign : sign = [] ∨ sign = ['-']) (hinteger : IsInteger integer)
    (hfraction : IsFraction fraction) (hexponent : IsExponent exponent)
    (hrest : endsNumber rest = true) :
    numberAt? (sign ++ (integer ++ (fraction ++ (exponent ++ rest)))) =
      let literal := sign ++ (integer ++ (fraction ++ exponent))
      if literal = integer then some (.natural (valueOfDigits integer), literal.length)
      else some (.number (String.ofList literal), literal.length) := by
  let text := sign ++ (integer ++ (fraction ++ (exponent ++ rest)))
  have hhead : (if text.head? = some '-' then ['-'] else []) = sign := by
    rcases hsign with rfl | rfl
    · obtain ⟨c, more, rfl, hc⟩ := hinteger.exists_digit
      have hminus : c ≠ '-' := by
        rintro rfl
        exact absurd hc (by decide)
      simp [text, hminus]
    · simp [text]
  have hafter := hexponent.head?_append hrest
  have hdropped : (integer ++ (fraction ++ (exponent ++ rest))).drop
      (integer.length + fraction.length) = exponent ++ rest := by
    rw [← List.append_assoc, ← List.length_append, List.drop_left]
  show numberAt? text = _
  rw [numberAt?.eq_1, hhead, List.drop_left, hinteger.integerPart? (hfraction.head?_append hafter)]
  simp only [Option.bind_eq_bind, Option.bind_some, List.drop_left,
    hfraction.fractionPart? hafter, hdropped, hexponent.exponentPart? hrest, List.append_assoc]
  rfl

/-- A number is recognised at its sign or its first digit. -/
theorem lexFrom_of_numberAt? {text rest : List Char} {token : JsonToken}
    (hfirst : ∃ c more, text = c :: more ∧ (c = '-' ∨ c.isDigit = true))
    (h : numberAt? (text ++ rest) = some (token, text.length)) :
    lexFrom 0 (text ++ rest) = (lexFrom 0 rest).map (token :: ·) := by
  obtain ⟨c, more, rfl, hc⟩ := hfirst
  have hblank : isJsonBlank c = false := by
    rcases hc with rfl | hc
    · rfl
    · exact isJsonBlank_digit hc
  apply lexFrom_of_tokenAt? hblank
  rcases hc with rfl | hc
  · exact h
  · rw [List.cons_append, tokenAt?_digit hc]
    exact h

/-- A number is one token. -/
theorem SpellsNumber.lexes {text : List Char} {value : Json} (h : SpellsNumber text value) :
    Lexes text (tokens value) := by
  intro rest hrest
  cases h with
  | natural hinteger =>
      obtain ⟨c, more, hcons, hc⟩ := hinteger.exists_digit
      apply lexFrom_of_numberAt? ⟨c, more, hcons, .inr hc⟩
      simpa using numberAt?_parts (.inl rfl) hinteger .absent .absent hrest
  | @other sign integer fraction exponent hsign hinteger hfraction hexponent hmore =>
      have hread := numberAt?_parts hsign hinteger hfraction hexponent hrest
      have hliteral : sign ++ (integer ++ (fraction ++ exponent)) ≠ integer := by
        intro heq
        have hlength := congrArg List.length heq
        simp only [List.length_append] at hlength
        have hnone : (sign ++ fraction ++ exponent).length = 0 := by
          simp only [List.length_append]
          omega
        exact hmore (List.eq_nil_of_length_eq_zero hnone)
      apply lexFrom_of_numberAt?
      · obtain ⟨c, more, rfl, hc⟩ := hinteger.exists_digit
        rcases hsign with rfl | rfl
        · exact ⟨c, _, rfl, .inr hc⟩
        · exact ⟨'-', _, rfl, .inl rfl⟩
      · simpa [hliteral] using hread

/-! ## Values -/

/-- Blanks around a core do not matter. -/
theorem Spot.lexes {α : Type} (spot : Spot α) {ts : List JsonToken} (h : Lexes spot.core ts) :
    Lexes spot.text ts := by
  have hafter : Lexes spot.after [] := by
    simpa using Lexes.blanks spot.isBlank_after Lexes.nil
  have hcore := h.append hafter (endsNumber_of_blanks spot.isBlank_after)
  rw [List.append_nil] at hcore
  exact hcore.blanks spot.isBlank_before

/-- The items of an array are read one after the other. -/
theorem lexes_items {first : Spot Json} {items : List (Spot Json)}
    (hfirst : Lexes first.core (tokens first.meaning))
    (each : ∀ item ∈ items, Lexes item.core (tokens item.meaning)) :
    Lexes (joinAt ',' ((first :: items).map Spot.text))
      (tokens first.meaning ++ itemTokens (items.map Spot.meaning)) := by
  induction items generalizing first with
  | nil => simpa [joinAt, itemTokens] using first.lexes hfirst
  | cons item items ih =>
      obtain ⟨hitem, hitems⟩ := List.forall_mem_cons.mp each
      exact (first.lexes hfirst).append ((ih hitem hitems).mark (by decide)) rfl

/-- A member is its name, a colon and its value. -/
theorem MemberSpot.lexes (member : MemberSpot)
    (hname : SpellsString member.name.core member.name.meaning)
    (hvalue : Lexes member.value.core (tokens member.value.meaning)) :
    Lexes member.text
      (.string member.name.meaning :: .colon :: tokens member.value.meaning) :=
  (member.name.lexes hname.lexes).append ((member.value.lexes hvalue).mark (by decide)) rfl

/-- The members of an object are read one after the other. -/
theorem lexes_members {first : MemberSpot} {members : List MemberSpot}
    (hfirst : Lexes first.text (.string first.name.meaning :: .colon :: tokens first.value.meaning))
    (each : ∀ member ∈ members,
      Lexes member.text (.string member.name.meaning :: .colon :: tokens member.value.meaning)) :
    Lexes (joinAt ',' ((first :: members).map MemberSpot.text))
      (.string first.name.meaning :: .colon ::
        (tokens first.value.meaning ++ memberTokens (members.map MemberSpot.meaning))) := by
  induction members generalizing first with
  | nil => simpa [joinAt, memberTokens] using hfirst
  | cons member members ih =>
      obtain ⟨hmember, hmembers⟩ := List.forall_mem_cons.mp each
      exact hfirst.append ((ih hmember hmembers).mark (by decide)) rfl

/-- What stands between two marks is read between their tokens. -/
theorem Lexes.between {first last : Char} {start finish : JsonToken} {text : List Char}
    {ts : List JsonToken} (hfirst : (first, start) ∈ marks) (hlast : (last, finish) ∈ marks)
    (h : Lexes text ts) : Lexes (first :: (text ++ [last])) (start :: (ts ++ [finish])) := by
  have hends : ∀ entry ∈ marks, endsNumber [entry.1] = true := by decide
  have hend : endsNumber [last] = true := hends (last, finish) hlast
  exact (h.append (nil.mark hlast) hend).mark hfirst

/-- **A text of a value is cut into the tokens of the value.** -/
theorem Spells.lexes {text : List Char} {value : Json} (h : Spells text value) :
    Lexes text (tokens value) := by
  induction h with
  | word h =>
      simp only [words, List.mem_cons, Prod.mk.injEq, List.not_mem_nil, or_false] at h
      rcases h with ⟨rfl, rfl⟩ | ⟨rfl, rfl⟩ | ⟨rfl, rfl⟩ <;> exact fun rest _ => rfl
  | number h => exact h.lexes
  | string h => exact h.lexes
  | @emptyArray blanks hblanks =>
      have hinside : Lexes blanks [] := by simpa using Lexes.nil.blanks hblanks
      exact hinside.between (by decide) (by decide)
  | @array items hne each ih =>
      obtain ⟨first, items, rfl⟩ := List.exists_cons_of_ne_nil hne
      obtain ⟨hfirst, hitems⟩ := List.forall_mem_cons.mp ih
      exact (lexes_items hfirst hitems).between (by decide) (by decide)
  | @emptyObject blanks hblanks =>
      have hinside : Lexes blanks [] := by simpa using Lexes.nil.blanks hblanks
      exact hinside.between (by decide) (by decide)
  | @object members hne names each ih =>
      have hread : ∀ member ∈ members, Lexes member.text
          (.string member.name.meaning :: .colon :: tokens member.value.meaning) :=
        fun member hmember => member.lexes (names member hmember) (ih member hmember)
      obtain ⟨first, members, rfl⟩ := List.exists_cons_of_ne_nil hne
      obtain ⟨hfirst, hmembers⟩ := List.forall_mem_cons.mp hread
      exact (lexes_members hfirst hmembers).between (by decide) (by decide)

theorem isBuilt_number (literal : String) : IsBuilt (.number literal) := by
  intro fuel rest hfuel
  simp only [tokens, List.length_cons, List.length_nil] at hfuel
  obtain ⟨fuel, rfl⟩ : ∃ left, fuel = left + 1 := ⟨fuel - 1, by omega⟩
  rfl

/-- A value that a text spells is built from its tokens. -/
theorem Spells.isBuilt {text : List Char} {value : Json} (h : Spells text value) :
    IsBuilt value := by
  induction h with
  | word h =>
      simp only [words, List.mem_cons, Prod.mk.injEq, List.not_mem_nil, or_false] at h
      rcases h with ⟨-, rfl⟩ | ⟨-, rfl⟩ | ⟨-, rfl⟩
      · exact isBuilt_of_plain .null
      · exact isBuilt_of_plain (.bool true)
      · exact isBuilt_of_plain (.bool false)
  | number h =>
      cases h with
      | natural => exact isBuilt_of_plain (.natural _)
      | other => exact isBuilt_number _
  | string => exact isBuilt_of_plain (.string _)
  | emptyArray => exact isBuilt_array (List.forall_mem_nil _)
  | array _ _ ih => exact isBuilt_array (List.forall_mem_map.mpr ih)
  | emptyObject => exact isBuilt_object (List.forall_mem_nil _)
  | object _ _ _ ih => exact isBuilt_object (List.forall_mem_map.mpr ih)

/-- **Every text of a document is read as the document.** -/
theorem parse?_of_spellsDocument {text : String} {document : Json}
    (h : SpellsDocument text document) : parse? text = some document := by
  obtain ⟨spot, rfl, hspells, rfl⟩ := h
  have hlex : lexFrom 0 spot.text = some (tokens spot.meaning) := by
    simpa [lexFrom] using spot.lexes hspells.lexes [] rfl
  exact parse?_of_tokens hlex hspells.isBuilt

end Json

end ScriptLint
