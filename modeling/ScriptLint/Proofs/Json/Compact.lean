import ScriptLint.Proofs.Json.RoundTrip

/-!
# Compact documents

The compact text of a document is its tokens one after the other, with nothing between them. Most
tokens show by themselves where they end. A number does not, but in a document no number stands
next to another value, so what follows it is a comma, a bracket or a brace. That is all that reading
needs to cut the text into the same tokens again.
-/

namespace ScriptLint

/-- How a token is written. -/
def JsonToken.spelling : JsonToken → List Char
  | .openBrace => ['\x7b']
  | .closeBrace => ['\x7d']
  | .openBracket => ['[']
  | .closeBracket => [']']
  | .colon => [':']
  | .comma => [',']
  | .null => "null".toList
  | .bool true => "true".toList
  | .bool false => "false".toList
  | .natural value => Nat.toDigits 10 value
  | .number literal => literal.toList
  | .string text => Json.quoted text

namespace Json

/-- Tokens one after the other. -/
def spellAll (tokens : List JsonToken) : List Char :=
  tokens.flatMap JsonToken.spelling

/-- The characters of a document without blanks. -/
def compact (document : Json) : List Char :=
  spellAll (tokens document)

/-- The compact text of a document. -/
def renderCompact (document : Json) : String :=
  String.ofList (compact document)

@[simp]
theorem spellAll_nil : spellAll [] = [] := rfl

@[simp]
theorem spellAll_cons (token : JsonToken) (more : List JsonToken) :
    spellAll (token :: more) = token.spelling ++ spellAll more :=
  List.flatMap_cons

@[simp]
theorem spellAll_append (tokens more : List JsonToken) :
    spellAll (tokens ++ more) = spellAll tokens ++ spellAll more :=
  List.flatMap_append

/-! ## Cutting the text into tokens -/

/-- Every number among the tokens is a natural number, and it does not go on in what follows. -/
def Separated : List JsonToken → Prop
  | [] => True
  | .natural _ :: rest => endsNumber (spellAll rest) = true ∧ Separated rest
  | .number _ :: _ => False
  | _ :: rest => Separated rest

/-- **Tokens are read back from their text** if no number runs into the next token. -/
theorem lexFrom_spellAll {tokens : List JsonToken} (h : Separated tokens) :
    lexFrom 0 (spellAll tokens) = some tokens := by
  induction tokens with
  | nil => rfl
  | cons token tokens ih =>
      rw [spellAll_cons]
      cases token with
      | natural value =>
          obtain ⟨hend, hrest⟩ := h
          rw [JsonToken.spelling, lexFrom_toDigits value hend, ih hrest, Option.map_some]
      | number literal => exact h.elim
      | string text => rw [JsonToken.spelling, lexFrom_quoted, ih h, Option.map_some]
      | bool value =>
          cases value <;>
          · change (lexFrom 0 (spellAll tokens)).map _ = _
            rw [ih h, Option.map_some]
      | _ =>
          -- a mark or a word is recognised by its characters alone
          change (lexFrom 0 (spellAll tokens)).map _ = _
          rw [ih h, Option.map_some]

/-! ## The tokens of a document are separated -/

/-- The tokens of the value can stand before any others that are separated and do not carry on a
number. -/
def StandsAlone (value : Json) : Prop :=
  ∀ rest : List JsonToken, Separated rest → endsNumber (spellAll rest) = true →
    Separated (tokens value ++ rest)

theorem endsNumber_itemTokens (items : List Json) {rest : List JsonToken}
    (h : endsNumber (spellAll rest) = true) :
    endsNumber (spellAll (itemTokens items ++ rest)) = true := by
  cases items with
  | nil => exact h
  | cons item items => rfl

theorem endsNumber_memberTokens (members : List (Option String × Json)) {rest : List JsonToken}
    (h : endsNumber (spellAll rest) = true) :
    endsNumber (spellAll (memberTokens members ++ rest)) = true := by
  cases members with
  | nil => exact h
  | cons member members => rfl

theorem separated_itemTokens {items : List Json} (each : ∀ item ∈ items, StandsAlone item)
    {rest : List JsonToken} (hrest : Separated rest) (hend : endsNumber (spellAll rest) = true) :
    Separated (itemTokens items ++ rest) := by
  induction items with
  | nil => exact hrest
  | cons item items ih =>
      obtain ⟨hitem, hitems⟩ := List.forall_mem_cons.mp each
      simp only [itemTokens, List.cons_append, List.append_assoc, Separated]
      exact hitem _ (ih hitems) (endsNumber_itemTokens items hend)

theorem separated_memberTokens {members : List (Option String × Json)}
    (each : ∀ member ∈ members, StandsAlone member.2) {rest : List JsonToken}
    (hrest : Separated rest) (hend : endsNumber (spellAll rest) = true) :
    Separated (memberTokens members ++ rest) := by
  induction members with
  | nil => exact hrest
  | cons member members ih =>
      obtain ⟨hvalue, hmembers⟩ := List.forall_mem_cons.mp each
      simp only [memberTokens, List.cons_append, List.append_assoc, Separated]
      exact hvalue _ (ih hmembers) (endsNumber_memberTokens members hend)

theorem standsAlone_array {items : List Json} (each : ∀ item ∈ items, StandsAlone item) :
    StandsAlone (.array items) := by
  intro rest hrest _
  cases items with
  | nil => exact hrest
  | cons first items =>
      obtain ⟨hfirst, hitems⟩ := List.forall_mem_cons.mp each
      simp only [tokens, List.cons_append, List.append_assoc, List.nil_append, Separated]
      exact hfirst _ (separated_itemTokens hitems hrest rfl) (endsNumber_itemTokens items rfl)

theorem standsAlone_object {members : List (Option String × Json)}
    (each : ∀ member ∈ members, StandsAlone member.2) : StandsAlone (.object members) := by
  intro rest hrest _
  cases members with
  | nil => exact hrest
  | cons first members =>
      obtain ⟨hvalue, hmembers⟩ := List.forall_mem_cons.mp each
      simp only [tokens, List.cons_append, List.append_assoc, List.nil_append, Separated]
      exact hvalue _ (separated_memberTokens hmembers hrest rfl)
        (endsNumber_memberTokens members rfl)

theorem standsAlone_of_plain {value : Json} (plain : Plain value) : StandsAlone value := by
  induction plain with
  | natural value => exact fun rest hrest hend => ⟨hend, hrest⟩
  | array _ ih => exact standsAlone_array ih
  | object _ ih => exact standsAlone_object ih
  | _ => exact fun rest hrest _ => hrest

/-! ## Documents -/

/-- **A plain document is read back from its compact text.** -/
theorem parse?_renderCompact {document : Json} (plain : Plain document) :
    parse? (renderCompact document) = some document := by
  have hseparated : Separated (tokens document) := by
    simpa using standsAlone_of_plain plain [] trivial rfl
  exact parse?_of_tokens (lexFrom_spellAll hseparated) (isBuilt_of_plain plain)

end Json

end ScriptLint
