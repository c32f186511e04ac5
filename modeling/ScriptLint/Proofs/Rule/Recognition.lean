import Mathlib.Data.List.Infix
import ScriptLint.Proofs.Rule.Declaration
import ScriptLint.Proofs.Text.Spelling
import ScriptLint.Rule.Concatenation
import ScriptLint.Rule.FrameLoop

/-!
# What is recognised on a line

Rules recognise declarations, loop headers, expensive calls and growing strings by taking a line
apart from the left. Each of these is described here by what the line looks like as a whole, and the
recognisers are shown to find just that. In a declaration the name is followed by a blank or a
parenthesis, so taking all word characters that follow the keyword finds the one possible name.
-/

namespace ScriptLint

/-! ## Declarations and loop headers -/

/-- The text starts with the keyword and blanks, after which a name stands before `rest`. -/
def NamesAfter (keyword : String) (text name rest : List Char) : Prop :=
  ∃ word blanks, word.map foldCase = keyword.toList ∧ blanks ≠ [] ∧ AllBlank blanks ∧
    name ≠ [] ∧ (∀ c ∈ name, isWord c = true) ∧ text = word ++ blanks ++ name ++ rest

/-- The text starts to declare the function of the given name: the keyword, blanks, the name and an
opening parenthesis, with or without blanks before it. -/
def DeclaresFunction (text name : List Char) : Prop :=
  ∃ gap rest, AllBlank gap ∧ NamesAfter "func" text name (gap ++ '(' :: rest)

/-- The text starts with a loop keyword and a blank. -/
def OpensLoop (text : List Char) : Prop :=
  ∃ word blank rest,
    (word.map foldCase = "for".toList ∨ word.map foldCase = "while".toList) ∧
    isBlank blank = true ∧ text = word ++ blank :: rest

theorem wordRun_eq_some_iff {text name rest : List Char} :
    wordRun text = some (name, rest) ↔
      name ≠ [] ∧ (∀ c ∈ name, isWord c = true) ∧
        (∀ c, rest.head? = some c → isWord c = false) ∧ text = name ++ rest := by
  rw [wordRun]
  constructor
  · intro h
    split at h
    · cases h
    · next hne =>
        cases h
        refine ⟨?_, List.all_eq_true.mp List.all_takeWhile, ?_,
          List.takeWhile_append_dropWhile.symm⟩
        · rwa [List.isEmpty_iff] at hne
        · intro c hc
          have hstop := List.head?_dropWhile_not isWord text
          rw [hc] at hstop
          exact hstop
  · rintro ⟨hne, hword, hrest, rfl⟩
    obtain ⟨htake, hdrop⟩ := span_append hword hrest
    rw [htake, hdrop, if_neg]
    rwa [List.isEmpty_iff]

/-- A name is found after its keyword when it is followed by no word character. -/
theorem nameAfter_eq_some_iff {keyword : String} {text name rest : List Char} :
    nameAfter keyword text = some (name, rest) ↔
      NamesAfter keyword text name rest ∧ ∀ c, rest.head? = some c → isWord c = false := by
  rw [nameAfter_eq, Option.bind_eq_some_iff]
  constructor
  · rintro ⟨afterWord, hstrip, h⟩
    obtain ⟨afterBlanks, hspace, hname⟩ := Option.bind_eq_some_iff.mp h
    obtain ⟨word, hword, rfl⟩ := Piece.exists_spells_of_strip hstrip
    obtain ⟨blanks, ⟨hne, hblanks⟩, rfl⟩ := Piece.exists_spells_of_strip hspace
    obtain ⟨hnamed, hletters, hrest, rfl⟩ := wordRun_eq_some_iff.mp hname
    exact ⟨⟨word, blanks, hword, hne, hblanks, hnamed, hletters, by simp⟩, hrest⟩
  · rintro ⟨⟨word, blanks, hword, hne, hblanks, hnamed, hletters, rfl⟩, hrest⟩
    refine ⟨blanks ++ (name ++ rest), stripWord_eq_some_iff.mpr ⟨word, hword, by simp⟩, ?_⟩
    -- the name starts with no blank, so the blanks before it are all that is dropped
    have hstart : ∀ c, (name ++ rest).head? = some c → isBlank c = false := by
      intro c hc
      rw [List.head?_append_of_ne_nil name hnamed] at hc
      rw [Bool.eq_false_iff]
      intro hblank
      have hword := hletters c (List.mem_of_head? hc)
      rw [not_isWord_of_isBlank hblank] at hword
      cases hword
    cases blanks with
    | nil => exact absurd rfl hne
    | cons c blanks =>
        rw [allBlank_cons] at hblanks
        rw [List.cons_append, Piece.strip, if_pos hblanks.1, Option.bind_some,
          (span_append hblanks.2 hstart).2]
        exact wordRun_eq_some_iff.mpr ⟨hnamed, hletters, hrest, rfl⟩

/-- What starts with a keyword starts where the indentation ends. -/
theorem NamesAfter.trimStart_append {keyword : String} (hkeyword : isSolidWord keyword = true)
    {text name rest : List Char} (h : NamesAfter keyword text name rest) {indentation : List Char}
    (hindentation : AllBlank indentation) : Line.trimStart (indentation ++ text) = text := by
  refine (span_append hindentation ?_).2
  obtain ⟨word, blanks, hword, -, -, -, -, rfl⟩ := h
  have hsolid : (Piece.letters keyword).IsSolid := hkeyword
  obtain ⟨c, hc, hblank⟩ := hsolid.head_of_spells hword (blanks ++ name ++ rest)
  intro d hd
  simp only [List.append_assoc] at hc hd
  rw [hc] at hd
  cases hd
  exact hblank

/-- What a gap and a parenthesis spell together. -/
theorem spells_gapThenParen {taken : List Char} :
    Pattern.Spells [.gap, .exactly "("] taken ↔ ∃ gap, AllBlank gap ∧ taken = gap ++ ['('] := by
  simp [Pattern.Spells, Piece.Spells]

/-- A gap and a parenthesis end a name. -/
theorem head?_gapThenParen {gap rest : List Char} (hgap : AllBlank gap) :
    ∀ c, (gap ++ '(' :: rest).head? = some c → isWord c = false := by
  intro c hc
  cases gap with
  | nil =>
      cases hc
      decide +kernel
  | cons d gap =>
      cases hc
      exact not_isWord_of_isBlank (allBlank_cons.mp hgap).1

/-- **A function is recognised exactly where one is declared**, and by its own name. -/
theorem declaredFunction?_eq_some_iff {text name : List Char} :
    declaredFunction? text = some name ↔ DeclaresFunction text name := by
  have hsteady : Pattern.IsSteady [.gap, .exactly "("] := ⟨Or.inr rfl, rfl, trivial⟩
  rw [declaredFunction?, Option.bind_eq_some_iff]
  constructor
  · rintro ⟨⟨found, after⟩, hname, h⟩
    split at h
    · next hparen =>
        cases h
        obtain ⟨taken, rest, htaken, hafter⟩ := (Pattern.startsOn_iff hsteady).mp hparen
        obtain ⟨gap, hgap, rfl⟩ := spells_gapThenParen.mp htaken
        rw [List.append_assoc, List.singleton_append] at hafter
        exact ⟨gap, rest, hgap, hafter ▸ (nameAfter_eq_some_iff.mp hname).1⟩
    · cases h
  · rintro ⟨gap, rest, hgap, hnames⟩
    have hparen : Pattern.startsOn [.gap, .exactly "("] (gap ++ '(' :: rest) = true :=
      (Pattern.startsOn_iff hsteady).mpr
        ⟨gap ++ ['('], rest, spells_gapThenParen.mpr ⟨gap, hgap, rfl⟩, by simp⟩
    refine ⟨(name, gap ++ '(' :: rest),
      nameAfter_eq_some_iff.mpr ⟨hnames, head?_gapThenParen hgap⟩, ?_⟩
    rw [if_pos hparen]

theorem declaredFunction?_eq_none_iff {text : List Char} :
    declaredFunction? text = none ↔ ∀ name, ¬ DeclaresFunction text name := by
  rw [Option.eq_none_iff_forall_ne_some]
  exact forall_congr' fun name => not_congr declaredFunction?_eq_some_iff

/-- After its indentation the line declares the function of the given name. -/
def DeclaresIndented (line : Line) (name : List Char) : Prop :=
  ∃ indentation text, AllBlank indentation ∧ line = indentation ++ text ∧
    DeclaresFunction text name

/-- A function is recognised on a line that is not trimmed at its end. -/
theorem declaredFunction?_trimStart_eq_some_iff {line : Line} {name : List Char} :
    declaredFunction? line.trimStart = some name ↔ DeclaresIndented line name := by
  rw [declaredFunction?_eq_some_iff]
  constructor
  · intro hdeclares
    exact ⟨line.indentation, line.trimStart, allBlank_takeWhile line,
      List.takeWhile_append_dropWhile.symm, hdeclares⟩
  · rintro ⟨indentation, text, hindentation, rfl, gap, rest, hgap, hnames⟩
    rw [hnames.trimStart_append (by decide) hindentation]
    exact ⟨gap, rest, hgap, hnames⟩

theorem startsOn_keyword_iff {keyword : String} (h : isSolidWord keyword = true)
    {text : List Char} :
    Pattern.startsOn [.letters keyword, .space] text = true ↔
      ∃ word blank rest, word.map foldCase = keyword.toList ∧ isBlank blank = true ∧
        text = word ++ blank :: rest := by
  have hsteady : Pattern.IsSteady [.letters keyword, .space] := ⟨h, Or.inl rfl, trivial⟩
  rw [Pattern.startsOn_iff hsteady]
  constructor
  · rintro ⟨taken, rest, ⟨word, after, hword, ⟨blanks, _, ⟨hne, hblanks⟩, rfl, rfl⟩, rfl⟩, rfl⟩
    cases blanks with
    | nil => exact absurd rfl hne
    | cons blank blanks =>
        exact ⟨word, blank, blanks ++ rest, hword, (allBlank_cons.mp hblanks).1, by simp⟩
  · rintro ⟨word, blank, rest, hword, hblank, rfl⟩
    refine ⟨word ++ [blank], rest, ⟨word, [blank], hword, ?_, rfl⟩, by simp⟩
    exact ⟨[blank], [], ⟨List.cons_ne_nil _ _, List.forall_mem_singleton.mpr hblank⟩, rfl, rfl⟩

/-- **A loop is recognised exactly by its header.** -/
theorem isLoopHeader_iff {text : List Char} : isLoopHeader text = true ↔ OpensLoop text := by
  rw [isLoopHeader, Bool.or_eq_true, startsOn_keyword_iff (by decide),
    startsOn_keyword_iff (by decide)]
  constructor
  · rintro (⟨word, blank, rest, hword, h⟩ | ⟨word, blank, rest, hword, h⟩)
    · exact ⟨word, blank, rest, Or.inl hword, h⟩
    · exact ⟨word, blank, rest, Or.inr hword, h⟩
  · rintro ⟨word, blank, rest, hword | hword, h⟩
    · exact Or.inl ⟨word, blank, rest, hword, h⟩
    · exact Or.inr ⟨word, blank, rest, hword, h⟩

/-! ## Calls -/

/-- After `before` the line goes on with the name and an opening parenthesis, with or without blanks
between them. -/
def CallsAfter (before : List Char) (name : String) (line : Line) : Prop :=
  ∃ gap after, AllBlank gap ∧ line = before ++ name.toList ++ gap ++ '(' :: after

theorem isSteady_call {name : String} (h : isSolidWord name = true) :
    Pattern.IsSteady [.exactly name, .gap, .exactly "("] :=
  ⟨h, Or.inr rfl, rfl, trivial⟩

theorem spells_call {name : String} {taken : List Char} :
    Pattern.Spells [.exactly name, .gap, .exactly "("] taken ↔
      ∃ gap, AllBlank gap ∧ taken = name.toList ++ gap ++ ['('] := by
  simp [Pattern.Spells, Piece.Spells]

/-- A text contains a call of what a solid piece spells. -/
theorem occursIn_callOf_iff {piece : Piece} (h : piece.IsSolid) {line : Line} :
    Pattern.occursIn [piece, .gap, .exactly "("] line = true ↔
      ∃ before word gap after, piece.Spells word ∧ AllBlank gap ∧
        line = before ++ word ++ gap ++ '(' :: after := by
  have hsteady : Pattern.IsSteady [piece, .gap, .exactly "("] :=
    Pattern.isSteady_cons h ⟨Or.inr rfl, rfl, trivial⟩
  rw [Pattern.occursIn_iff hsteady]
  constructor
  · rintro ⟨before, _, after, ⟨word, _, hword, hparen, rfl⟩, rfl⟩
    obtain ⟨gap, hgap, rfl⟩ := spells_gapThenParen.mp hparen
    exact ⟨before, word, gap, after, hword, hgap, by simp⟩
  · rintro ⟨before, word, gap, after, hword, hgap, rfl⟩
    refine ⟨before, word ++ (gap ++ ['(']), after, ?_, by simp⟩
    exact ⟨word, _, hword, spells_gapThenParen.mpr ⟨gap, hgap, rfl⟩, rfl⟩

theorem occursIn_call_iff {name : String} (h : isSolidWord name = true) {line : Line} :
    Pattern.occursIn [.exactly name, .gap, .exactly "("] line = true ↔
      ∃ before, CallsAfter before name line := by
  have hsolid : (Piece.exactly name).IsSolid := h
  rw [occursIn_callOf_iff hsolid]
  constructor
  · rintro ⟨before, _, gap, after, rfl, hgap, hline⟩
    exact ⟨before, gap, after, hgap, hline⟩
  · rintro ⟨before, gap, after, hgap, hline⟩
    exact ⟨before, name.toList, gap, after, rfl, hgap, hline⟩

theorem occursAtWordStart_call_iff {name : String} (h : isSolidWord name = true) {line : Line} :
    Pattern.occursAtWordStart [.exactly name, .gap, .exactly "("] line = true ↔
      ∃ before, CallsAfter before name line ∧
        ∀ c, before.getLast? = some c → isWord c = false := by
  rw [Pattern.occursAtWordStart_iff (isSteady_call h)]
  constructor
  · rintro ⟨before, taken, after, htaken, rfl, hword⟩
    obtain ⟨gap, hgap, rfl⟩ := spells_call.mp htaken
    exact ⟨before, ⟨gap, after, hgap, by simp⟩, hword⟩
  · rintro ⟨before, ⟨gap, after, hgap, rfl⟩, hword⟩
    exact ⟨before, name.toList ++ gap ++ ['('], after, spells_call.mpr ⟨gap, hgap, rfl⟩, by simp,
      hword⟩

/-- The line looks a node up by a call or by a dollar sign, or creates one by a call whose name
starts a word. -/
def FrameLoop.DoesExpensiveWork (line : Line) : Prop :=
  (∃ name ∈ ["get_node", "find_node", "get_tree"], ∃ before, CallsAfter before name line) ∨
  '$' ∈ line ∨
  ∃ name ∈ ["instance", "instantiate"], ∃ before, CallsAfter before name line ∧
    ∀ c, before.getLast? = some c → isWord c = false

theorem containsText_iff {word : String} (h : isSolidWord word = true) {text : List Char} :
    containsText word text = true ↔ word.toList <:+: text := by
  have hsteady : Pattern.IsSteady [.exactly word] := ⟨h, trivial⟩
  rw [containsText, Pattern.occursIn_iff hsteady]
  constructor
  · rintro ⟨before, taken, after, ⟨_, _, rfl, rfl, rfl⟩, rfl⟩
    exact ⟨before, after, by simp⟩
  · rintro ⟨before, after, rfl⟩
    exact ⟨before, word.toList, after, ⟨_, [], rfl, rfl, by simp⟩, rfl⟩

theorem FrameLoop.any_lookups_iff {line : Line} :
    (lookups.any fun lookup => lookup.occursIn line) = true ↔
      (∃ name ∈ ["get_node", "find_node", "get_tree"], ∃ before, CallsAfter before name line) ∨
        '$' ∈ line := by
  have hsolid : ∀ name ∈ ["get_node", "find_node", "get_tree"], isSolidWord name = true := by
    decide
  have hdollar : Pattern.occursIn [.exactly "$"] line = true ↔ '$' ∈ line :=
    (containsText_iff (by decide)).trans (List.singleton_infix_iff '$' line)
  rw [List.any_eq_true]
  constructor
  · rintro ⟨lookup, hlookup, h⟩
    simp only [lookups, List.mem_cons, List.not_mem_nil, or_false] at hlookup
    rcases hlookup with rfl | rfl | rfl | rfl
    · exact Or.inl ⟨"get_node", by decide, (occursIn_call_iff (by decide)).mp h⟩
    · exact Or.inr (hdollar.mp h)
    · exact Or.inl ⟨"find_node", by decide, (occursIn_call_iff (by decide)).mp h⟩
    · exact Or.inl ⟨"get_tree", by decide, (occursIn_call_iff (by decide)).mp h⟩
  · rintro (⟨name, hname, h⟩ | h)
    · refine ⟨[.exactly name, .gap, .exactly "("], ?_,
        (occursIn_call_iff (hsolid name hname)).mpr h⟩
      simp only [List.mem_cons, List.not_mem_nil, or_false] at hname
      rcases hname with rfl | rfl | rfl <;> simp [lookups]
    · exact ⟨[.exactly "$"], by simp [lookups], hdollar.mpr h⟩

theorem FrameLoop.any_creations_iff {line : Line} :
    (creations.any fun creation => creation.occursAtWordStart line) = true ↔
      ∃ name ∈ ["instance", "instantiate"], ∃ before, CallsAfter before name line ∧
        ∀ c, before.getLast? = some c → isWord c = false := by
  have hcreations : creations =
      ["instance", "instantiate"].map fun name => [.exactly name, .gap, .exactly "("] := rfl
  have hsolid : ∀ name ∈ ["instance", "instantiate"], isSolidWord name = true := by decide
  rw [hcreations, List.any_map, List.any_eq_true]
  refine exists_congr fun name => and_congr_right fun hname => ?_
  exact occursAtWordStart_call_iff (hsolid name hname)

/-- **Expensive work is recognised exactly where it is done.** -/
theorem FrameLoop.isExpensive_iff {line : Line} :
    isExpensive line = true ↔ DoesExpensiveWork line := by
  rw [isExpensive, Bool.or_eq_true, any_lookups_iff, any_creations_iff, or_assoc]
  rfl

/-! ## Growing strings -/

/-- The line adds to a word what a quotation mark starts. -/
def Concatenation.AddsText (line : Line) : Prop :=
  ∃ before word gap gap' quote after, word ≠ [] ∧ (∀ c ∈ word, isWord c = true) ∧
    AllBlank gap ∧ AllBlank gap' ∧ isQuote quote = true ∧
    line = before ++ word ++ gap ++ "+=".toList ++ gap' ++ quote :: after

theorem Concatenation.occursIn_addition_iff {line : Line} :
    addition.occursIn line = true ↔ AddsText line := by
  have hsteady : addition.IsSteady :=
    ⟨hasNoBlank_isWord, Or.inr rfl, rfl, Or.inr hasNoBlank_isQuote, hasNoBlank_isQuote, trivial⟩
  rw [Pattern.occursIn_iff hsteady]
  constructor
  · rintro ⟨before, taken, after, hspells, rfl⟩
    obtain ⟨_, _, ⟨c, hc, rfl⟩, ⟨gap, _, hgap, ⟨_, _, rfl, ⟨gap', _, hgap', ⟨_, _,
      ⟨quote, hquote, rfl⟩, rfl, rfl⟩, rfl⟩, rfl⟩, rfl⟩, rfl⟩ := hspells
    exact ⟨before, [c], gap, gap', quote, after, List.cons_ne_nil _ _,
      List.forall_mem_singleton.mpr hc, hgap, hgap', hquote, by simp⟩
  · rintro ⟨before, word, gap, gap', quote, after, hne, hword, hgap, hgap', hquote, rfl⟩
    -- of the word only the last character is needed
    obtain ⟨front, c, rfl⟩ := (List.eq_nil_or_concat' word).resolve_left hne
    refine ⟨before ++ front, [c] ++ (gap ++ ("+=".toList ++ (gap' ++ [quote]))), after, ?_,
      by simp⟩
    refine ⟨[c], _, ⟨c, hword c (by simp), rfl⟩, ⟨gap, _, hgap, ?_, rfl⟩, rfl⟩
    exact ⟨_, _, rfl, ⟨gap', _, hgap', ⟨[quote], [], ⟨quote, hquote, rfl⟩, rfl, rfl⟩, rfl⟩, rfl⟩

end ScriptLint
