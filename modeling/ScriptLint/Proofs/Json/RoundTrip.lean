import ScriptLint.Json.Parser
import ScriptLint.Proofs.Json.Literals

/-!
# Reading back documents

A document is a tree of values. Its tokens say what is written and leave the layout out: writing
lays them out over lines, and reading builds the tree from them again. So a document that is
written and read comes back as it was, provided that each of its numbers is a natural number. Any
other number is kept as a literal, and nothing says that such a literal is well formed.
-/

namespace ScriptLint

namespace Json

/-- A document without numbers other than natural numbers. -/
inductive Plain : Json → Prop
  | null : Plain .null
  | bool (value : Bool) : Plain (.bool value)
  | natural (value : Nat) : Plain (.natural value)
  | string (text : Option String) : Plain (.string text)
  | array {items : List Json} (each : ∀ item ∈ items, Plain item) : Plain (.array items)
  | object {members : List (Option String × Json)} (each : ∀ member ∈ members, Plain member.2) :
      Plain (.object members)

/-! ## The tokens of a document -/

mutual

def tokens : Json → List JsonToken
  | .null => [.null]
  | .bool value => [.bool value]
  | .natural value => [.natural value]
  | .number literal => [.number literal]
  | .string text => [.string text]
  | .array [] => [.openBracket, .closeBracket]
  | .array (first :: rest) =>
      .openBracket :: tokens first ++ itemTokens rest ++ [.closeBracket]
  | .object [] => [.openBrace, .closeBrace]
  | .object ((name, value) :: rest) =>
      .openBrace :: .string name :: .colon :: tokens value ++ memberTokens rest ++ [.closeBrace]

/-- The tokens of the items after the first. -/
def itemTokens : List Json → List JsonToken
  | [] => []
  | item :: rest => .comma :: tokens item ++ itemTokens rest

/-- The tokens of the members after the first. -/
def memberTokens : List (Option String × Json) → List JsonToken
  | [] => []
  | (name, value) :: rest =>
      .comma :: .string name :: .colon :: tokens value ++ memberTokens rest

end

/-! ## Writing lays out the tokens -/

/-- The text of the value is cut into the tokens of the value, at any depth and before any text in
which a number does not go on. -/
def LaysOut (value : Json) : Prop :=
  ∀ (depth : Nat) (rest : List Char), endsNumber rest = true →
    lexFrom 0 (pretty depth value ++ rest) = (lexFrom 0 rest).map (tokens value ++ ·)

theorem endsNumber_prettyItems (depth : Nat) (items : List Json) {rest : List Char}
    (h : endsNumber rest = true) : endsNumber (prettyItems depth items ++ rest) = true := by
  cases items with
  | nil => exact h
  | cons item items => rfl

theorem endsNumber_prettyMembers (depth : Nat) (members : List (Option String × Json))
    {rest : List Char} (h : endsNumber rest = true) :
    endsNumber (prettyMembers depth members ++ rest) = true := by
  cases members with
  | nil => exact h
  | cons member members => rfl

theorem lexFrom_prettyItems {items : List Json} (each : ∀ item ∈ items, LaysOut item)
    (depth : Nat) {rest : List Char} (hrest : endsNumber rest = true) :
    lexFrom 0 (prettyItems depth items ++ rest) =
      (lexFrom 0 rest).map (itemTokens items ++ ·) := by
  induction items with
  | nil => simp [prettyItems, itemTokens]
  | cons item items ih =>
      obtain ⟨hitem, hitems⟩ := List.forall_mem_cons.mp each
      simp only [prettyItems, itemTokens, List.append_assoc, List.cons_append]
      rw [lexFrom_mark ',' .comma (by decide), lexFrom_lineBreak,
        hitem depth _ (endsNumber_prettyItems depth items hrest), ih hitems]
      simp [Function.comp_def]

theorem lexFrom_prettyMembers {members : List (Option String × Json)}
    (each : ∀ member ∈ members, LaysOut member.2) (depth : Nat) {rest : List Char}
    (hrest : endsNumber rest = true) :
    lexFrom 0 (prettyMembers depth members ++ rest) =
      (lexFrom 0 rest).map (memberTokens members ++ ·) := by
  induction members with
  | nil => simp [prettyMembers, memberTokens]
  | cons member members ih =>
      obtain ⟨hvalue, hmembers⟩ := List.forall_mem_cons.mp each
      simp only [prettyMembers, memberTokens, List.append_assoc, List.cons_append, List.nil_append]
      rw [lexFrom_mark ',' .comma (by decide), lexFrom_lineBreak, lexFrom_quoted,
        lexFrom_mark ':' .colon (by decide), lexFrom_blank ' ' rfl,
        hvalue depth _ (endsNumber_prettyMembers depth members hrest), ih hmembers]
      simp [Function.comp_def]

theorem laysOut_array {items : List Json} (each : ∀ item ∈ items, LaysOut item) :
    LaysOut (.array items) := by
  intro depth rest hrest
  cases items with
  | nil =>
      simp only [pretty, tokens, List.cons_append, List.nil_append]
      rw [lexFrom_mark '[' .openBracket (by decide), lexFrom_mark ']' .closeBracket (by decide)]
      simp [Function.comp_def]
  | cons first items =>
      obtain ⟨hfirst, hitems⟩ := List.forall_mem_cons.mp each
      simp only [pretty, tokens, List.append_assoc, List.cons_append, List.nil_append]
      rw [lexFrom_mark '[' .openBracket (by decide), lexFrom_lineBreak,
        hfirst _ _ (endsNumber_prettyItems _ _ rfl), lexFrom_prettyItems hitems _ rfl,
        lexFrom_lineBreak, lexFrom_mark ']' .closeBracket (by decide)]
      simp [Function.comp_def]

theorem laysOut_object {members : List (Option String × Json)}
    (each : ∀ member ∈ members, LaysOut member.2) : LaysOut (.object members) := by
  intro depth rest hrest
  cases members with
  | nil =>
      simp only [pretty, tokens, List.cons_append, List.nil_append]
      rw [lexFrom_mark '\x7b' .openBrace (by decide), lexFrom_mark '\x7d' .closeBrace (by decide)]
      simp [Function.comp_def]
  | cons first members =>
      obtain ⟨hvalue, hmembers⟩ := List.forall_mem_cons.mp each
      simp only [pretty, tokens, List.append_assoc, List.cons_append, List.nil_append]
      rw [lexFrom_mark '\x7b' .openBrace (by decide), lexFrom_lineBreak, lexFrom_quoted,
        lexFrom_mark ':' .colon (by decide), lexFrom_blank ' ' rfl,
        hvalue _ _ (endsNumber_prettyMembers _ _ rfl), lexFrom_prettyMembers hmembers _ rfl,
        lexFrom_lineBreak, lexFrom_mark '\x7d' .closeBrace (by decide)]
      simp [Function.comp_def]

/-- **The text of a plain document is cut into the tokens of the document.** -/
theorem laysOut_of_plain {value : Json} (plain : Plain value) : LaysOut value := by
  induction plain with
  | null => exact fun _ _ _ => rfl
  | bool value => cases value <;> exact fun _ _ _ => rfl
  | natural value => exact fun _ _ hrest => lexFrom_toDigits value hrest
  | string text => exact fun _ rest _ => lexFrom_quoted text rest
  | array _ ih => exact laysOut_array ih
  | object _ ih => exact laysOut_object ih

/-! ## Reading builds the document from its tokens -/

/-- The value is built from its tokens before any others. Two steps for each token are enough. -/
def IsBuilt (value : Json) : Prop :=
  ∀ (fuel : Nat) (rest : List JsonToken), 2 * (tokens value).length ≤ fuel + 1 →
    valueFrom fuel (tokens value ++ rest) = some (value, rest)

/-- A value begins with a token of its own, and not with the end of an array. -/
theorem tokens_eq_cons (value : Json) :
    ∃ token more, tokens value = token :: more ∧ token ≠ .closeBracket := by
  cases value with
  | array items => cases items <;> simp [tokens]
  | object members => cases members <;> simp [tokens]
  | _ => simp [tokens]

theorem length_tokens_pos (value : Json) : 0 < (tokens value).length := by
  obtain ⟨token, more, htokens, -⟩ := tokens_eq_cons value
  simp [htokens]

theorem valueFrom_openBracket (fuel : Nat) (value : Json) (rest : List JsonToken) :
    valueFrom (fuel + 1) (.openBracket :: (tokens value ++ rest)) =
      (itemsFrom fuel (tokens value ++ rest)).map fun found => (.array found.1, found.2) := by
  obtain ⟨token, more, htokens, hclose⟩ := tokens_eq_cons value
  rw [htokens, List.cons_append, valueFrom]
  simpa using hclose

theorem itemsFrom_last {fuel : Nat} {item : Json} {tokens rest : List JsonToken}
    (h : valueFrom fuel tokens = some (item, .closeBracket :: rest)) :
    itemsFrom (fuel + 1) tokens = some ([item], rest) := by
  rw [itemsFrom, h]

theorem itemsFrom_comma {fuel : Nat} {item : Json} {tokens rest : List JsonToken}
    (h : valueFrom fuel tokens = some (item, .comma :: rest)) :
    itemsFrom (fuel + 1) tokens =
      (itemsFrom fuel rest).map fun found => (item :: found.1, found.2) := by
  rw [itemsFrom, h]

theorem membersFrom_last {fuel : Nat} {value : Json} {tokens rest : List JsonToken}
    (h : valueFrom fuel tokens = some (value, .closeBrace :: rest)) (name : Option String) :
    membersFrom (fuel + 1) (.string name :: .colon :: tokens) = some ([(name, value)], rest) := by
  rw [membersFrom, h]

theorem membersFrom_comma {fuel : Nat} {value : Json} {tokens rest : List JsonToken}
    (h : valueFrom fuel tokens = some (value, .comma :: rest)) (name : Option String) :
    membersFrom (fuel + 1) (.string name :: .colon :: tokens) =
      (membersFrom fuel rest).map fun found => ((name, value) :: found.1, found.2) := by
  rw [membersFrom, h]

theorem itemsFrom_tokens {items : List Json} (each : ∀ item ∈ items, IsBuilt item)
    {first : Json} (hfirst : IsBuilt first) (fuel : Nat) (rest : List JsonToken)
    (hfuel : 2 * ((tokens first).length + (itemTokens items).length) ≤ fuel) :
    itemsFrom fuel (tokens first ++ (itemTokens items ++ .closeBracket :: rest)) =
      some (first :: items, rest) := by
  -- each item costs one step of its own, and it has a token besides the comma before it
  induction items generalizing first fuel with
  | nil =>
      have hpos := length_tokens_pos first
      obtain ⟨fuel, rfl⟩ : ∃ left, fuel = left + 1 := ⟨fuel - 1, by omega⟩
      exact itemsFrom_last (hfirst fuel _ (by omega))
  | cons item items ih =>
      obtain ⟨hitem, hitems⟩ := List.forall_mem_cons.mp each
      simp only [itemTokens, List.length_cons, List.length_append, List.cons_append,
        List.append_assoc] at hfuel ⊢
      obtain ⟨fuel, rfl⟩ : ∃ left, fuel = left + 1 := ⟨fuel - 1, by omega⟩
      rw [itemsFrom_comma (hfirst fuel _ (by omega)), ih hitems hitem fuel (by omega)]
      rfl

theorem membersFrom_tokens {members : List (Option String × Json)}
    (each : ∀ member ∈ members, IsBuilt member.2) {name : Option String} {value : Json}
    (hvalue : IsBuilt value) (fuel : Nat) (rest : List JsonToken)
    (hfuel : 2 * ((tokens value).length + (memberTokens members).length) ≤ fuel) :
    membersFrom fuel (.string name :: .colon :: (tokens value ++
        (memberTokens members ++ .closeBrace :: rest))) =
      some ((name, value) :: members, rest) := by
  induction members generalizing name value fuel with
  | nil =>
      have hpos := length_tokens_pos value
      obtain ⟨fuel, rfl⟩ : ∃ left, fuel = left + 1 := ⟨fuel - 1, by omega⟩
      exact membersFrom_last (hvalue fuel _ (by omega)) name
  | cons member members ih =>
      obtain ⟨hnext, hmembers⟩ := List.forall_mem_cons.mp each
      simp only [memberTokens, List.length_cons, List.length_append, List.cons_append,
        List.append_assoc] at hfuel ⊢
      obtain ⟨fuel, rfl⟩ : ∃ left, fuel = left + 1 := ⟨fuel - 1, by omega⟩
      rw [membersFrom_comma (hvalue fuel _ (by omega)), ih hmembers hnext fuel (by omega)]
      rfl

theorem isBuilt_array {items : List Json} (each : ∀ item ∈ items, IsBuilt item) :
    IsBuilt (.array items) := by
  intro fuel rest hfuel
  cases items with
  | nil =>
      simp only [tokens, List.length_cons, List.length_nil] at hfuel
      obtain ⟨fuel, rfl⟩ : ∃ left, fuel = left + 1 := ⟨fuel - 1, by omega⟩
      rfl
  | cons first items =>
      obtain ⟨hfirst, hitems⟩ := List.forall_mem_cons.mp each
      simp only [tokens, List.length_cons, List.length_append, List.length_nil, List.cons_append,
        List.append_assoc, List.nil_append] at hfuel ⊢
      obtain ⟨fuel, rfl⟩ : ∃ left, fuel = left + 1 := ⟨fuel - 1, by omega⟩
      rw [valueFrom_openBracket, itemsFrom_tokens hitems hfirst fuel rest (by omega)]
      rfl

theorem isBuilt_object {members : List (Option String × Json)}
    (each : ∀ member ∈ members, IsBuilt member.2) : IsBuilt (.object members) := by
  intro fuel rest hfuel
  cases members with
  | nil =>
      simp only [tokens, List.length_cons, List.length_nil] at hfuel
      obtain ⟨fuel, rfl⟩ : ∃ left, fuel = left + 1 := ⟨fuel - 1, by omega⟩
      rfl
  | cons member members =>
      obtain ⟨hvalue, hmembers⟩ := List.forall_mem_cons.mp each
      simp only [tokens, List.length_cons, List.length_append, List.length_nil, List.cons_append,
        List.append_assoc, List.nil_append] at hfuel ⊢
      obtain ⟨fuel, rfl⟩ : ∃ left, fuel = left + 1 := ⟨fuel - 1, by omega⟩
      rw [valueFrom, membersFrom_tokens hmembers hvalue fuel rest (by omega)]
      · rfl
      · -- a name is not the end of an object
        simp

theorem isBuilt_of_plain {value : Json} (plain : Plain value) : IsBuilt value := by
  induction plain with
  | array _ ih => exact isBuilt_array ih
  | object _ ih => exact isBuilt_object ih
  | _ =>
      intro fuel rest hfuel
      simp only [tokens, List.length_cons, List.length_nil] at hfuel
      obtain ⟨fuel, rfl⟩ : ∃ left, fuel = left + 1 := ⟨fuel - 1, by omega⟩
      rfl

/-! ## Documents -/

/-- A document is read from a text that is cut into its tokens. -/
theorem parse?_of_tokens {text : List Char} {document : Json}
    (hlex : lexFrom 0 text = some (tokens document)) (hbuilt : IsBuilt document) :
    parse? (String.ofList text) = some document := by
  have hread : valueFrom (2 * (tokens document).length + 1) (tokens document) =
      some (document, []) := by
    simpa using hbuilt (2 * (tokens document).length + 1) [] (by omega)
  rw [parse?, lex, String.toList_ofList, hlex, Option.bind_some, ofTokens?, hread]

/-- **A plain document is read back from its text**, whatever blanks follow it. -/
theorem parse?_pretty {document : Json} (plain : Plain document) {blanks : List Char}
    (hblanks : ∀ c ∈ blanks, isJsonBlank c = true) :
    parse? (String.ofList (pretty 0 document ++ blanks)) = some document := by
  have hend : lexFrom 0 blanks = some [] := by
    simpa [lexFrom] using lexFrom_blanks hblanks []
  have hlex : lexFrom 0 (pretty 0 document ++ blanks) = some (tokens document) := by
    rw [laysOut_of_plain plain 0 blanks (endsNumber_of_blanks hblanks), hend]
    simp
  exact parse?_of_tokens hlex (isBuilt_of_plain plain)

/-- The items of a list are read back if each of them is. -/
theorem mapM_map_of_readBack {α β : Type} {write : α → β} {read : β → Option α}
    (h : ∀ value, read (write value) = some value) (values : List α) :
    (values.map write).mapM read = some values := by
  have hread : read ∘ write = fun value => pure (id value) := funext h
  rw [List.mapM_map, hread, List.mapM_pure, List.map_id]
  rfl

end Json

end ScriptLint
