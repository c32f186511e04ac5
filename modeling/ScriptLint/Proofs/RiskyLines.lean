import ScriptLint.Proofs.Rule.Recognition
import ScriptLint.Proofs.WellFormedFindings

/-!
# Risky lines

Some rules judge every line by itself and leave comments out. Such a rule is known once its test
is: it reports the lines that pass, in their order. Three of them are described here by what stands
on a line: a call that evaluates text, a statement with a value put into it, and ordinary randomness
next to a secret.

The rule on statements looks for the last value first and for a verb in front of it. That is no
restriction, since a verb in front of any value stands in front of the last one too.
-/

namespace ScriptLint

/-! ## Rules that judge each line by itself -/

/-- Comments apart, the rule reports exactly the lines that are marked, each once and in the order
of lines, and says the same of all of them. -/
structure Rule.ReportsExactly (rule : Rule) (message : String) (marked : Line → Prop)
    (path text : String) : Prop where
  mem_check_iff : ∀ finding, finding ∈ rule.check path text ↔
    ∃ number line, (number, line) ∈ numbered 1 (linesOf text) ∧ line.isComment = false ∧
      marked line ∧
      finding = rule.finding path { line := number, message, snippet := line.snippet }
  ordered : (rule.check path text).Pairwise fun a b => a.line < b.line

theorem Rule.reportsExactly_of_scanEachLine {rule : Rule} {message : String}
    {test : Line → Bool} {marked : Line → Prop} (hscan : rule.scan = scanEachLine test message)
    (htest : ∀ line, test line = true ↔ marked line) (path text : String) :
    rule.ReportsExactly message marked path text where
  mem_check_iff := by
    intro finding
    simp only [Rule.check, hscan, scanEachLine, List.mem_map, List.mem_filter, Bool.and_eq_true,
      Bool.not_eq_true', htest]
    constructor
    · rintro ⟨_, ⟨⟨number, line⟩, ⟨hline, hspoken, hmarked⟩, rfl⟩, rfl⟩
      exact ⟨number, line, hline, hspoken, hmarked, rfl⟩
    · rintro ⟨number, line, hline, hspoken, hmarked, rfl⟩
      exact ⟨_, ⟨(number, line), ⟨hline, hspoken, hmarked⟩, rfl⟩, rfl⟩
  ordered := by
    rw [Rule.check, hscan]
    exact List.pairwise_map.mpr
      (scanEachLine_wellFormedHits test message (linesOf text)).ordered

theorem Rule.ReportsExactly.exists_finding_iff {rule : Rule} {message : String}
    {marked : Line → Prop} {path text : String}
    (h : rule.ReportsExactly message marked path text) {number : Nat} {line : Line}
    (hline : (number, line) ∈ numbered 1 (linesOf text)) (hspoken : line.isComment = false) :
    (∃ finding ∈ rule.check path text, finding.line = number) ↔ marked line := by
  constructor
  · rintro ⟨finding, hfinding, hnumber⟩
    obtain ⟨_, other, hother, -, hmarked, rfl⟩ := (h.mem_check_iff finding).mp hfinding
    cases hnumber
    have hsame : other = line := eq_of_mem_numbered hother hline
    exact hsame ▸ hmarked
  · intro hmarked
    exact ⟨_, (h.mem_check_iff _).mpr ⟨number, line, hline, hspoken, hmarked, rfl⟩, rfl⟩

/-! ## Evaluation of text -/

/-- The line calls one of the functions that evaluate text, whatever the case of its letters. -/
def Evaluation.CallsEvaluation (line : Line) : Prop :=
  ∃ name ∈ ["expression.parse", ".execute"], ∃ before word gap after,
    word.map foldCase = name.toList ∧ AllBlank gap ∧ line = before ++ word ++ gap ++ '(' :: after

theorem Evaluation.evaluates_iff (line : Line) :
    evaluates line = true ↔ CallsEvaluation line := by
  have hcalls : calls = ["expression.parse", ".execute"].map fun name =>
      [.letters name, .gap, .exactly "("] := rfl
  have hsolid : ∀ name ∈ ["expression.parse", ".execute"], isSolidWord name = true := by decide
  rw [evaluates, hcalls, List.any_map, List.any_eq_true]
  refine exists_congr fun name => and_congr_right fun hname => ?_
  have hpiece : (Piece.letters name).IsSolid := hsolid name hname
  exact occursIn_callOf_iff hpiece

/-! ## Values in statements -/

namespace Query

/-- The text starts with a format placeholder, or with a plus sign that adds a word. -/
def StartsWithValue (text : List Char) : Prop :=
  (∃ placeholder after,
    (placeholder.map foldCase = "%s".toList ∨ placeholder.map foldCase = "%d".toList) ∧
      text = placeholder ++ after) ∨
  ∃ gap c after, AllBlank gap ∧ isWord c = true ∧ text = '+' :: gap ++ c :: after

/-- The line has a verb, whatever the case of its letters, and anywhere after it a value. -/
def InsertsAfterVerb (line : Line) : Prop :=
  ∃ verb ∈ ["select", "insert", "update", "delete", "drop", "create"],
    ∃ before word between rest, word.map foldCase = verb.toList ∧ StartsWithValue rest ∧
      line = before ++ word ++ between ++ rest

theorem startsOn_letters_iff {word : String} (h : isSolidWord word = true) {text : List Char} :
    Pattern.startsOn [.letters word] text = true ↔
      ∃ taken after, taken.map foldCase = word.toList ∧ text = taken ++ after := by
  have hsteady : Pattern.IsSteady [.letters word] := ⟨h, trivial⟩
  rw [Pattern.startsOn_iff hsteady]
  simp only [Pattern.spells_singleton]
  rfl

theorem startsOn_addedWord_iff {text : List Char} :
    Pattern.startsOn [.exactly "+", .gap, .one isWord] text = true ↔
      ∃ gap c after, AllBlank gap ∧ isWord c = true ∧ text = '+' :: gap ++ c :: after := by
  have hsteady : Pattern.IsSteady [.exactly "+", .gap, .one isWord] :=
    ⟨rfl, Or.inr hasNoBlank_isWord, hasNoBlank_isWord, trivial⟩
  rw [Pattern.startsOn_iff hsteady]
  constructor
  · rintro ⟨_, after, ⟨_, _, rfl, ⟨gap, _, hgap, ⟨_, _, ⟨c, hc, rfl⟩, rfl, rfl⟩, rfl⟩, rfl⟩, rfl⟩
    exact ⟨gap, c, after, hgap, hc, by simp⟩
  · rintro ⟨gap, c, after, hgap, hc, rfl⟩
    refine ⟨['+'] ++ (gap ++ [c]), after, ?_, by simp⟩
    exact ⟨['+'], _, rfl, ⟨gap, _, hgap, ⟨[c], [], ⟨c, hc, rfl⟩, rfl, rfl⟩, rfl⟩, rfl⟩

theorem startsInsertion_iff {text : List Char} :
    startsInsertion text = true ↔ StartsWithValue text := by
  have hs : isSolidWord "%s" = true := rfl
  have hd : isSolidWord "%d" = true := rfl
  simp only [startsInsertion, insertions, List.any_cons, List.any_nil, Bool.or_false,
    Bool.or_eq_true, startsOn_letters_iff hs, startsOn_letters_iff hd, startsOn_addedWord_iff,
    StartsWithValue, or_and_right, exists_or, or_assoc]

/-- A value stands right after the text before the last one. -/
theorem startsInsertion_of_beforeLastInsertion? {line before : List Char}
    (h : beforeLastInsertion? line = some before) :
    ∃ rest, line = before ++ rest ∧ startsInsertion rest = true := by
  induction line generalizing before with
  | nil => cases h
  | cons c line ih =>
      rw [beforeLastInsertion?] at h
      cases hlater : beforeLastInsertion? line with
      | some later =>
          rw [hlater] at h
          cases h
          obtain ⟨rest, rfl, hrest⟩ := ih hlater
          exact ⟨rest, rfl, hrest⟩
      | none =>
          rw [hlater] at h
          dsimp only at h
          split at h
          · next hhere =>
              cases h
              exact ⟨c :: line, rfl, hhere⟩
          · cases h

/-- What stands before any value stands before the last one. -/
theorem prefix_beforeLastInsertion? (before : List Char) {rest : List Char}
    (h : startsInsertion rest = true) :
    ∃ longest, beforeLastInsertion? (before ++ rest) = some longest ∧ before <+: longest := by
  induction before with
  | nil =>
      cases rest with
      | nil => exact absurd h (by decide)
      | cons c rest =>
          rw [List.nil_append, beforeLastInsertion?]
          cases beforeLastInsertion? rest with
          | some later => exact ⟨c :: later, rfl, List.nil_prefix⟩
          | none => exact ⟨[], if_pos h, List.nil_prefix⟩
  | cons c before ih =>
      obtain ⟨longest, hlongest, hprefix⟩ := ih
      refine ⟨c :: longest, ?_, List.cons_prefix_cons.mpr ⟨rfl, hprefix⟩⟩
      rw [List.cons_append, beforeLastInsertion?, hlongest]

theorem namesVerb_iff {text : List Char} :
    namesVerb text = true ↔
      ∃ verb ∈ ["select", "insert", "update", "delete", "drop", "create"],
        ∃ before word after, word.map foldCase = verb.toList ∧ text = before ++ word ++ after := by
  have hsolid : ∀ verb ∈ verbs, isSolidWord verb = true := by decide
  rw [namesVerb, List.any_eq_true]
  refine exists_congr fun verb => and_congr_right fun hverb => ?_
  have hsteady : Pattern.IsSteady [.letters verb] := ⟨hsolid verb hverb, trivial⟩
  rw [Pattern.occursIn_iff hsteady]
  simp only [Pattern.spells_singleton]
  rfl

theorem buildsStatement_iff (line : Line) :
    buildsStatement line = true ↔ InsertsAfterVerb line := by
  rw [buildsStatement, Option.any_eq_true]
  constructor
  · rintro ⟨front, hfront, hnames⟩
    obtain ⟨rest, rfl, hrest⟩ := startsInsertion_of_beforeLastInsertion? hfront
    obtain ⟨verb, hverb, before, word, between, hword, rfl⟩ := namesVerb_iff.mp hnames
    exact ⟨verb, hverb, before, word, between, rest, hword, startsInsertion_iff.mp hrest, rfl⟩
  · rintro ⟨verb, hverb, before, word, between, rest, hword, hrest, rfl⟩
    -- the verb need not stand close to the last value, so the text between them may grow
    obtain ⟨longest, hlongest, more, rfl⟩ :=
      prefix_beforeLastInsertion? (before ++ word ++ between) (startsInsertion_iff.mpr hrest)
    refine ⟨_, hlongest, namesVerb_iff.mpr ⟨verb, hverb, before, word, between ++ more, hword, ?_⟩⟩
    simp

end Query

/-! ## Randomness -/

namespace Randomness

/-- The line calls an ordinary random function, whose name starts a word. -/
def CallsRandom (line : Line) : Prop :=
  ∃ name ∈ ["randi", "randf", "rand_range"], ∃ before, CallsAfter before name line ∧
    ∀ c, before.getLast? = some c → isWord c = false

/-- The lowercase form of the line has a word for a secret in it. -/
def MentionsSecret (line : Line) : Prop :=
  ∃ secret ∈ ["token", "key", "password", "secret", "salt", "nonce", "session"],
    secret.toList <:+: lowered line

theorem callsRandom_iff {line : Line} : callsRandom line = true ↔ CallsRandom line := by
  have hsolid : ∀ name ∈ functions, isSolidWord name = true := by decide
  rw [callsRandom, List.any_eq_true]
  refine exists_congr fun name => and_congr_right fun hname => ?_
  exact occursAtWordStart_call_iff (hsolid name hname)

theorem mentionsSecret_iff {line : Line} : mentionsSecret line = true ↔ MentionsSecret line := by
  have hsolid : ∀ secret ∈ secrets, isSolidWord secret = true := by decide
  rw [mentionsSecret, List.any_eq_true]
  refine exists_congr fun secret => and_congr_right fun hsecret => ?_
  exact containsText_iff (hsolid secret hsecret)

end Randomness

/-- **Risky lines are reported exactly.** Comments apart, a line is reported once if it calls a
function that evaluates text, once if it has a value anywhere after the verb of a statement, and
once if it calls an ordinary random function and mentions a secret. Each rule reports its lines in
their order. -/
theorem riskyLines_check_exact (path text : String) :
    Evaluation.rule.ReportsExactly
      "Potentially unsafe use of Expression.parse() or execute(). Ensure input is sanitized"
      Evaluation.CallsEvaluation path text ∧
    Query.rule.ReportsExactly
      ("Potential SQL injection risk. Use parameterized queries instead of " ++
        "string concatenation")
      Query.InsertsAfterVerb path text ∧
    Randomness.rule.ReportsExactly
      ("Using insecure random function for security-critical purpose. " ++
        "Use Crypto.random_bytes() instead")
      (fun line => Randomness.CallsRandom line ∧ Randomness.MentionsSecret line) path text := by
  refine ⟨?_, ?_, ?_⟩
  · exact Rule.reportsExactly_of_scanEachLine rfl Evaluation.evaluates_iff path text
  · exact Rule.reportsExactly_of_scanEachLine rfl Query.buildsStatement_iff path text
  · have htest : ∀ line, (Randomness.callsRandom line && Randomness.mentionsSecret line) = true ↔
        Randomness.CallsRandom line ∧ Randomness.MentionsSecret line := by
      intro line
      rw [Bool.and_eq_true, Randomness.callsRandom_iff, Randomness.mentionsSecret_iff]
    exact Rule.reportsExactly_of_scanEachLine rfl htest path text

-- the long s counts as an s, in a verb as well as in a placeholder
example : (Query.rule.check "a.gd" "q = \"in\u017fert %\u017f\"").map Finding.line = [1] := by
  decide +kernel

end ScriptLint
