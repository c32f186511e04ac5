import ScriptLint.Proofs.Rule.Recognition
import ScriptLint.Proofs.WellFormedFindings

/-!
# Undocumented declarations

A declaration is documented if the next line that is not blank is a comment. Two rules report what
is not documented, one the classes and one the public functions. They go through a script in the
same way and differ in how they recognise a declaration, so what they report is said once: a line
that declares something, with lines after it that do not start with a comment.

The name in a report is the whole run of word characters after the keyword. It decides whether a
function is public.
-/

namespace ScriptLint

namespace Documentation

/-! ## Comments after a declaration -/

/-- All of the lines are blank, or the first one that is not is no comment. -/
def LacksComment (following : List Line) : Prop :=
  (∀ line ∈ following, line.isBlankLine = true) ∨
  ∃ blanks next rest, following = blanks ++ next :: rest ∧
    (∀ line ∈ blanks, line.isBlankLine = true) ∧ next.isBlankLine = false ∧
    next.isComment = false

theorem find?_eq_some_of_blanks {blanks rest : List Line} {next : Line}
    (hblanks : ∀ line ∈ blanks, line.isBlankLine = true) (hnext : next.isBlankLine = false) :
    (blanks ++ next :: rest).find? (fun line => !line.isBlankLine) = some next := by
  refine List.find?_eq_some_iff_append.mpr ⟨by rw [hnext]; rfl, blanks, rest, rfl, ?_⟩
  intro line hline
  rw [hblanks line hline]
  rfl

theorem startsWithComment_eq_false_iff {following : List Line} :
    startsWithComment following = false ↔ LacksComment following := by
  rw [startsWithComment]
  constructor
  · intro h
    cases hfind : following.find? fun line => !line.isBlankLine with
    | none =>
        rw [List.find?_eq_none] at hfind
        exact Or.inl fun line hline => by simpa using hfind line hline
    | some next =>
        rw [hfind] at h
        obtain ⟨hnext, blanks, rest, hsplit, hblanks⟩ := List.find?_eq_some_iff_append.mp hfind
        refine Or.inr ⟨blanks, next, rest, hsplit, ?_, by simpa using hnext, h⟩
        intro line hline
        simpa using hblanks line hline
  · rintro (hall | ⟨blanks, next, rest, rfl, hblanks, hnext, hcomment⟩)
    · have hnone : following.find? (fun line => !line.isBlankLine) = none := by
        rw [List.find?_eq_none]
        intro line hline
        rw [hall line hline]
        exact Bool.false_ne_true
      rw [hnone]
    · rw [find?_eq_some_of_blanks hblanks hnext]
      exact hcomment

/-! ## Declarations on a line -/

/-- After its indentation the line has the keyword, blanks and a name. The name is the whole run of
word characters there, and `rest` is what follows it. -/
def Declares (keyword : String) (line : Line) (name rest : List Char) : Prop :=
  ∃ indentation text, AllBlank indentation ∧ line = indentation ++ text ∧
    NamesAfter keyword text name rest ∧ ∀ c, rest.head? = some c → isWord c = false

def DeclaresClass (line : Line) (name : List Char) : Prop :=
  ∃ rest, Declares "class" line name rest

/-- The function is public, and its name is followed by an opening parenthesis, with or without
blanks before it. -/
def DeclaresPublicFunction (line : Line) (name : List Char) : Prop :=
  name.head? ≠ some '_' ∧
    ∃ gap rest, AllBlank gap ∧ Declares "func" line name (gap ++ '(' :: rest)

/-- The text that starts with a keyword starts where the indentation ends. -/
theorem nameAfter_trimStart_iff {keyword : String} (hkeyword : isSolidWord keyword = true)
    {line : Line} {name rest : List Char} :
    nameAfter keyword line.trimStart = some (name, rest) ↔ Declares keyword line name rest := by
  rw [nameAfter_eq_some_iff]
  constructor
  · rintro ⟨hnames, hrest⟩
    exact ⟨line.indentation, line.trimStart, allBlank_takeWhile line,
      List.takeWhile_append_dropWhile.symm, hnames, hrest⟩
  · rintro ⟨indentation, text, hindentation, rfl, hnames, hrest⟩
    rw [hnames.trimStart_append hkeyword hindentation]
    exact ⟨hnames, hrest⟩

theorem declaredClass?_eq_some_iff {line : Line} {name : List Char} :
    declaredClass? line.trimStart = some name ↔ DeclaresClass line name := by
  rw [declaredClass?, Option.map_eq_some_iff]
  constructor
  · rintro ⟨⟨_, rest⟩, hname, rfl⟩
    exact ⟨rest, (nameAfter_trimStart_iff (by decide)).mp hname⟩
  · rintro ⟨rest, hdeclares⟩
    exact ⟨(name, rest), (nameAfter_trimStart_iff (by decide)).mpr hdeclares, rfl⟩

/-- A function is public if its name has no leading underscore. -/
theorem publicFunction?_eq_some_iff_indented {line : Line} {name : List Char} :
    publicFunction? line = some name ↔ DeclaresIndented line name ∧ name.head? ≠ some '_' := by
  rw [publicFunction?, Option.filter_eq_some_iff, declaredFunction?_trimStart_eq_some_iff,
    bne_iff_ne]

theorem publicFunction?_eq_some_iff {line : Line} {name : List Char} :
    publicFunction? line = some name ↔ DeclaresPublicFunction line name := by
  rw [publicFunction?_eq_some_iff_indented]
  constructor
  · rintro ⟨⟨indentation, text, hindentation, hline, gap, rest, hgap, hnames⟩, hpublic⟩
    exact ⟨hpublic, gap, rest, hgap, indentation, text, hindentation, hline, hnames,
      head?_gapThenParen hgap⟩
  · rintro ⟨hpublic, gap, rest, hgap, indentation, text, hindentation, hline, hnames, -⟩
    exact ⟨⟨indentation, text, hindentation, hline, gap, rest, hgap, hnames⟩, hpublic⟩

/-! ## Reports -/

/-- What is reported about a line that declares a name and has no documentation. -/
def undocumented (kind : String) (number : Nat) (line : Line) (name : List Char) : Hit where
  line := number
  message := kind ++ " '" ++ String.ofList name ++ "' is missing a docstring"
  snippet := String.ofList line.trim

variable {declared : Line → Option (List Char)} {kind : String} {first : Nat}

/-- What is reported at the first line, or further down. -/
theorem mem_scanFrom_cons_iff {line : Line} {rest : List Line} {hit : Hit} :
    hit ∈ scanFrom declared kind first (line :: rest) ↔
      (∃ name, declared line = some name ∧ LacksComment rest ∧
        hit = undocumented kind first line name) ∨
      hit ∈ scanFrom declared kind (first + 1) rest := by
  rw [scanFrom, ← startsWithComment_eq_false_iff]
  cases hname : declared line with
  | none => simp
  | some name =>
      dsimp only
      cases startsWithComment rest with
      | true => simp
      | false =>
          rw [if_neg Bool.false_ne_true, List.mem_cons]
          constructor
          · rintro (rfl | hlater)
            · exact Or.inl ⟨name, rfl, rfl, rfl⟩
            · exact Or.inr hlater
          · rintro (⟨_, ⟨⟩, -, rfl⟩ | hlater)
            · exact Or.inl rfl
            · exact Or.inr hlater

/-- A whole scan reports what it reports at one of the lines. -/
theorem mem_scanFrom_iff {lines : List Line} {hit : Hit} :
    hit ∈ scanFrom declared kind first lines ↔
      ∃ before line after name, lines = before ++ line :: after ∧ declared line = some name ∧
        LacksComment after ∧ hit = undocumented kind (first + before.length) line name := by
  induction lines generalizing first with
  | nil => simp [scanFrom]
  | cons head rest ih =>
      rw [mem_scanFrom_cons_iff, ih]
      constructor
      · rintro (⟨name, hname, hlacks, rfl⟩ | ⟨before, line, after, name, rfl, hname, hlacks, rfl⟩)
        · exact ⟨[], head, rest, name, rfl, hname, hlacks, rfl⟩
        · refine ⟨head :: before, line, after, name, rfl, hname, hlacks, ?_⟩
          rw [List.length_cons, Nat.add_right_comm, Nat.add_assoc]
      · rintro ⟨before, line, after, name, hsplit, hname, hlacks, rfl⟩
        cases before with
        | nil =>
            obtain ⟨rfl, rfl⟩ := List.cons.inj hsplit
            exact Or.inl ⟨name, hname, hlacks, rfl⟩
        | cons _ before =>
            obtain ⟨rfl, rfl⟩ := List.cons.inj hsplit
            refine Or.inr ⟨before, line, after, name, rfl, hname, hlacks, ?_⟩
            rw [List.length_cons, Nat.add_right_comm, Nat.add_assoc]

/-- The rule reports exactly the lines that declare something without a comment after it, each once
and in the order of lines. -/
structure ReportsUndocumented (rule : Rule) (kind : String)
    (declares : Line → List Char → Prop) (path text : String) : Prop where
  mem_check_iff : ∀ finding, finding ∈ rule.check path text ↔
    ∃ before line after name, linesOf text = before ++ line :: after ∧ declares line name ∧
      LacksComment after ∧
      finding = rule.finding path
        { line := before.length + 1
          message := kind ++ " '" ++ String.ofList name ++ "' is missing a docstring"
          snippet := String.ofList line.trim }
  ordered : (rule.check path text).Pairwise fun a b => a.line < b.line

theorem reportsUndocumented_of_scanFrom {rule : Rule} {declares : Line → List Char → Prop}
    (hscan : rule.scan = scanFrom declared kind 1) (hreads : ReadsCode declared)
    (hdeclared : ∀ line name, declared line = some name ↔ declares line name)
    (path text : String) : ReportsUndocumented rule kind declares path text where
  mem_check_iff := by
    intro finding
    simp only [Rule.check, hscan, List.mem_map, mem_scanFrom_iff, hdeclared]
    constructor
    · rintro ⟨_, ⟨before, line, after, name, hsplit, hname, hlacks, rfl⟩, rfl⟩
      refine ⟨before, line, after, name, hsplit, hname, hlacks, ?_⟩
      rw [undocumented, Nat.add_comm]
    · rintro ⟨before, line, after, name, hsplit, hname, hlacks, rfl⟩
      refine ⟨_, ⟨before, line, after, name, hsplit, hname, hlacks, rfl⟩, ?_⟩
      rw [undocumented, Nat.add_comm]
  ordered := by
    rw [Rule.check, hscan]
    exact List.pairwise_map.mpr (wellFormedHits hreads kind (linesOf text)).ordered

end Documentation

/-- **Exactly the undocumented declarations are reported.** A line that declares a class, and one
that declares a public function, is reported if no line after it is filled or the first filled one
is no comment. The report names the whole run of word characters after the keyword. Each line is
reported once, in the order of lines. -/
theorem documentation_check_exact (path text : String) :
    Documentation.ReportsUndocumented Documentation.classRule "Class"
      Documentation.DeclaresClass path text ∧
    Documentation.ReportsUndocumented Documentation.functionRule "Function"
      Documentation.DeclaresPublicFunction path text := by
  constructor
  · exact Documentation.reportsUndocumented_of_scanFrom rfl Documentation.readsCode_class
      (fun _ _ => Documentation.declaredClass?_eq_some_iff) path text
  · exact Documentation.reportsUndocumented_of_scanFrom rfl
      Documentation.readsCode_publicFunction
      (fun _ _ => Documentation.publicFunction?_eq_some_iff) path text

-- a declaration is no comment for the one before it, and a blank line is no gap before a comment
example : (Documentation.functionRule.check "a.gd"
    "func a():\nFUNC b ():\n\t\n# b\nfunc _c():").map Finding.line = [1] := by
  decide +kernel

end ScriptLint
