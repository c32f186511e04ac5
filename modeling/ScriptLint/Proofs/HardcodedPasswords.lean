import Mathlib.Data.Nat.Find
import ScriptLint.Proofs.RiskyLines

/-!
# Hardcoded passwords

A literal is given to a password where a keyword, an equals sign and a quotation mark follow each
other. For each keyword the first such place of a line counts, and the literal is taken to reach to
the last quotation mark of the line, of either kind.

A secret is never overlooked that way. What is taken is the secret itself, or it has a quotation
mark inside, and no placeholder has one. The same makes a placeholder count as a secret as soon as
there is another quotation mark after it, if only an apostrophe in a comment.
-/

namespace ScriptLint

namespace Password

/-! ## Quotation marks -/

/-- A text without quotation marks of either kind. -/
def HasNoQuote (text : List Char) : Prop :=
  ∀ c ∈ text, isQuote c = false

instance : DecidablePred HasNoQuote :=
  fun text => List.decidableBAll (fun c => isQuote c = false) text

theorem not_hasNoQuote_of_mem {c : Char} {text : List Char} (hquote : isQuote c = true)
    (hmem : c ∈ text) : ¬ HasNoQuote text := by
  intro h
  rw [h c hmem] at hquote
  cases hquote

theorem hasNoQuote_append {text text' : List Char} :
    HasNoQuote (text ++ text') ↔ HasNoQuote text ∧ HasNoQuote text' :=
  List.forall_mem_append

theorem foldCase_of_isQuote {c : Char} (h : isQuote c = true) : foldCase c = c := by
  rw [isQuote, Bool.or_eq_true, beq_iff_eq, beq_iff_eq] at h
  rcases h with rfl | rfl <;> rfl

/-! ## Where a literal opens -/

/-- From the place `start` on the line has the keyword, whatever the case of its letters, an equals
sign and a quotation mark, with or without blanks between them. The rest follows the mark. -/
def OpensAt (keyword : String) (line : Line) (start : Nat) (mark : Char) (rest : List Char) :
    Prop :=
  ∃ word gap gap', word.map foldCase = keyword.toList ∧ AllBlank gap ∧ AllBlank gap' ∧
    isQuote mark = true ∧ line.drop start = word ++ gap ++ '=' :: gap' ++ mark :: rest

/-- The leftmost place where the keyword is given a literal. -/
def OpensFirst (keyword : String) (line : Line) (mark : Char) (rest : List Char) : Prop :=
  ∃ start, OpensAt keyword line start mark rest ∧
    ∀ start' mark' rest', OpensAt keyword line start' mark' rest' → start ≤ start'

section Keyword

variable {keyword keyword' : String} {line : Line} {start start' : Nat} {mark mark' : Char}
  {rest rest' : List Char}

theorem OpensAt.isQuote_mark (h : OpensAt keyword line start mark rest) : isQuote mark = true := by
  obtain ⟨_, _, _, _, _, _, hmark, _⟩ := h
  exact hmark

theorem hasNoQuote_of_map_foldCase (hkeyword : keyword ∈ keywords) {word : List Char}
    (hword : word.map foldCase = keyword.toList) : HasNoQuote word := by
  have hplain : ∀ keyword ∈ keywords, HasNoQuote keyword.toList := by decide
  intro c hc
  rw [Bool.eq_false_iff]
  intro hquote
  have hmem : foldCase c ∈ keyword.toList := hword ▸ List.mem_map_of_mem hc
  rw [foldCase_of_isQuote hquote] at hmem
  exact not_hasNoQuote_of_mem hquote hmem (hplain keyword hkeyword)

/-- The opening mark is the first quotation mark from the start of the keyword on. -/
theorem OpensAt.dropWhile_eq (hkeyword : keyword ∈ keywords)
    (h : OpensAt keyword line start mark rest) :
    (line.drop start).dropWhile (fun c => !isQuote c) = mark :: rest := by
  obtain ⟨word, gap, gap', hword, hgap, hgap', hmark, htext⟩ := h
  rw [htext]
  refine (span_append ?_ ?_).2
  · have hblank : ∀ blanks, AllBlank blanks → HasNoQuote blanks :=
      fun _ hall c hc => hasNoBlank_isQuote c (hall c hc)
    have hequals : HasNoQuote ('=' :: gap') :=
      List.forall_mem_cons.mpr ⟨rfl, hblank gap' hgap'⟩
    have hbefore : HasNoQuote (word ++ gap ++ '=' :: gap') := by
      rw [hasNoQuote_append, hasNoQuote_append]
      exact ⟨⟨hasNoQuote_of_map_foldCase hkeyword hword, hblank gap hgap⟩, hequals⟩
    intro c hc
    rw [hbefore c hc]
    rfl
  · rintro c ⟨⟩
    rw [hmark]
    rfl

/-- What opens further to the right opens at the same mark or after it. -/
theorem OpensAt.suffix_of_le (hkeyword : keyword ∈ keywords) (hkeyword' : keyword' ∈ keywords)
    (h : OpensAt keyword line start mark rest) (h' : OpensAt keyword' line start' mark' rest')
    (hle : start ≤ start') : mark' :: rest' <:+ mark :: rest := by
  rw [← h.dropWhile_eq hkeyword, ← h'.dropWhile_eq hkeyword', ← Nat.add_sub_cancel' hle,
    ← List.drop_drop]
  exact dropWhile_drop_suffix _ _ _

theorem OpensAt.rest_suffix_of_le (hkeyword : keyword ∈ keywords)
    (hkeyword' : keyword' ∈ keywords) (h : OpensAt keyword line start mark rest)
    (h' : OpensAt keyword' line start' mark' rest') (hle : start ≤ start') : rest' <:+ rest := by
  rcases List.suffix_cons_iff.mp (h.suffix_of_le hkeyword hkeyword' h' hle) with hsame | hlater
  · cases hsame
    exact List.suffix_refl rest
  · exact (List.suffix_cons mark' rest').trans hlater

theorem OpensAt.unique (hkeyword : keyword ∈ keywords) (hkeyword' : keyword' ∈ keywords)
    (h : OpensAt keyword line start mark rest) (h' : OpensAt keyword' line start mark' rest') :
    mark' = mark ∧ rest' = rest := by
  have hsame := (h'.dropWhile_eq hkeyword').symm.trans (h.dropWhile_eq hkeyword)
  exact List.cons.inj hsame

theorem OpensAt.exists_first (h : OpensAt keyword line start mark rest) :
    ∃ first mark' rest', first ≤ start ∧ OpensAt keyword line first mark' rest' ∧
      OpensFirst keyword line mark' rest' := by
  classical
  have hexists : ∃ start, ∃ mark rest, OpensAt keyword line start mark rest :=
    ⟨start, mark, rest, h⟩
  obtain ⟨mark', rest', hfirst⟩ := Nat.find_spec hexists
  refine ⟨Nat.find hexists, mark', rest', Nat.find_min' hexists ⟨mark, rest, h⟩, hfirst, ?_⟩
  exact ⟨_, hfirst, fun _ mark rest hother => Nat.find_min' hexists ⟨mark, rest, hother⟩⟩

/-- A place where the text goes on as the opening is spelled is a place where a literal opens. -/
theorem exists_spells_opening_iff :
    (∃ taken, (opening keyword).Spells taken ∧ line.drop start = taken ++ rest) ↔
      ∃ mark, OpensAt keyword line start mark rest := by
  constructor
  · rintro ⟨_, ⟨word, _, hword, ⟨gap, _, hgap, ⟨_, _, rfl, ⟨gap', _, hgap', ⟨_, _,
      ⟨mark, hmark, rfl⟩, rfl, rfl⟩, rfl⟩, rfl⟩, rfl⟩, rfl⟩, htext⟩
    exact ⟨mark, word, gap, gap', hword, hgap, hgap', hmark, by simp [htext]⟩
  · rintro ⟨mark, word, gap, gap', hword, hgap, hgap', hmark, htext⟩
    refine ⟨word ++ (gap ++ (['='] ++ (gap' ++ [mark]))), ?_, by simp [htext]⟩
    refine ⟨word, _, hword, ⟨gap, _, hgap, ?_, rfl⟩, rfl⟩
    exact ⟨['='], _, rfl, ⟨gap', _, hgap', ⟨[mark], [], ⟨mark, hmark, rfl⟩, rfl, rfl⟩, rfl⟩, rfl⟩

theorem isSteady_opening (hkeyword : keyword ∈ keywords) : (opening keyword).IsSteady := by
  have hsolid : ∀ keyword ∈ keywords, isSolidWord keyword = true := by decide
  exact ⟨hsolid keyword hkeyword, Or.inr rfl, rfl, Or.inr hasNoBlank_isQuote, hasNoBlank_isQuote,
    trivial⟩

theorem startsOn_opening_iff (hkeyword : keyword ∈ keywords) :
    (opening keyword).startsOn (line.drop start) = true ↔
      ∃ mark rest, OpensAt keyword line start mark rest := by
  rw [Pattern.startsOn_iff (isSteady_opening hkeyword)]
  constructor
  · rintro ⟨taken, rest, hspells, htext⟩
    obtain ⟨mark, hopens⟩ := exists_spells_opening_iff.mp ⟨taken, hspells, htext⟩
    exact ⟨mark, rest, hopens⟩
  · rintro ⟨mark, rest, hopens⟩
    obtain ⟨taken, hspells, htext⟩ := exists_spells_opening_iff.mpr ⟨mark, hopens⟩
    exact ⟨taken, rest, hspells, htext⟩

/-- What remains after the opening is what stands after the mark, since there is only one mark at
which the opening can end. -/
theorem strip_opening_iff (hkeyword : keyword ∈ keywords) :
    (opening keyword).strip (line.drop start) = some rest ↔
      ∃ mark, OpensAt keyword line start mark rest := by
  have hsound : ∀ rest, (opening keyword).strip (line.drop start) = some rest →
      ∃ mark, OpensAt keyword line start mark rest := by
    intro rest h
    exact exists_spells_opening_iff.mp (Pattern.exists_spells_of_strip h)
  refine ⟨hsound rest, ?_⟩
  rintro ⟨mark, h⟩
  have hstarts := (startsOn_opening_iff hkeyword).mpr ⟨mark, rest, h⟩
  obtain ⟨remaining, hremaining⟩ := Option.isSome_iff_exists.mp hstarts
  obtain ⟨mark', h'⟩ := hsound remaining hremaining
  rw [hremaining, (h.unique hkeyword hkeyword h').2]

end Keyword

/-! ## Where it ends -/

/-- The literal is what stands before the last quotation mark of the text. -/
def ReachesLastQuote (text literal : List Char) : Prop :=
  ∃ closing after, isQuote closing = true ∧ HasNoQuote after ∧
    text = literal ++ closing :: after

theorem upToLastQuote_eq_some_iff {text literal : List Char} :
    upToLastQuote text = some literal ↔ ReachesLastQuote text literal ∧ literal ≠ [] := by
  rw [upToLastQuote]
  constructor
  · intro h
    split at h
    · next closing c before hdrop =>
        cases h
        obtain ⟨hclosing, after, hafter, htext⟩ := dropWhile_eq_cons_iff.mp hdrop
        refine ⟨⟨closing, after.reverse, ?_, ?_, ?_⟩, by simp⟩
        · simpa using hclosing
        · intro d hd
          simpa using hafter d (List.mem_reverse.mp hd)
        · rw [← List.reverse_reverse text, htext]
          simp
    · cases h
  · rintro ⟨⟨closing, after, hclosing, hafter, rfl⟩, hne⟩
    have hdrop : (literal ++ closing :: after).reverse.dropWhile (fun c => !isQuote c) =
        closing :: literal.reverse := by
      refine dropWhile_eq_cons_iff.mpr ⟨by rw [hclosing]; rfl, after.reverse, ?_, by simp⟩
      intro d hd
      rw [hafter d (List.mem_reverse.mp hd)]
      rfl
    rw [hdrop]
    cases hreverse : literal.reverse with
    | nil => exact absurd (List.reverse_eq_nil_iff.mp hreverse) hne
    | cons c before =>
        show some (c :: before).reverse = some literal
        rw [← hreverse, List.reverse_reverse]

theorem ReachesLastQuote.append_left {text literal : List Char}
    (h : ReachesLastQuote text literal) (front : List Char) :
    ReachesLastQuote (front ++ text) (front ++ literal) := by
  obtain ⟨closing, after, hclosing, hafter, rfl⟩ := h
  exact ⟨closing, after, hclosing, hafter, (List.append_assoc _ _ _).symm⟩

theorem exists_reachesLastQuote (text : List Char) (h : ¬ HasNoQuote text) :
    ∃ literal, ReachesLastQuote text literal := by
  induction text using List.reverseRecOn with
  | nil => exact absurd (List.forall_mem_nil _) h
  | append_singleton text c ih =>
      cases hc : isQuote c with
      | true => exact ⟨text, c, [], hc, List.forall_mem_nil _, rfl⟩
      | false =>
          have hlast : HasNoQuote [c] := List.forall_mem_singleton.mpr hc
          have hearlier : ¬ HasNoQuote text :=
            fun hplain => h (hasNoQuote_append.mpr ⟨hplain, hlast⟩)
          obtain ⟨literal, closing, after, hclosing, hafter, rfl⟩ := ih hearlier
          exact ⟨literal, closing, after ++ [c], hclosing, hasNoQuote_append.mpr ⟨hafter, hlast⟩,
            by simp⟩

/-- A quotation mark of the text is its last one, or it stands in the literal. -/
theorem ReachesLastQuote.cases {front after literal : List Char} {mark : Char}
    (h : ReachesLastQuote (front ++ mark :: after) literal) (hmark : isQuote mark = true) :
    (HasNoQuote after ∧ literal = front) ∨ (¬ HasNoQuote after ∧ mark ∈ literal) := by
  obtain ⟨closing, tail, hclosing, htail, htext⟩ := h
  rcases List.append_eq_append_iff.mp htext with ⟨more, hliteral, hmore⟩ | ⟨more, hfront, hmore⟩
  · cases more with
    | nil =>
        cases hmore
        exact Or.inl ⟨htail, by simpa using hliteral⟩
    | cons _ more =>
        obtain ⟨rfl, rfl⟩ := List.cons.inj hmore
        exact Or.inr ⟨not_hasNoQuote_of_mem hclosing (by simp), by simp [hliteral]⟩
  · cases more with
    | nil =>
        cases hmore
        exact Or.inl ⟨htail, by simpa using hfront.symm⟩
    | cons _ more =>
        -- the mark would stand after the last quotation mark
        obtain ⟨rfl, rfl⟩ := List.cons.inj hmore
        exact absurd htail (not_hasNoQuote_of_mem hmark (by simp))

/-! ## Secrets and placeholders -/

/-- The literal is one that nobody uses as a password, whatever the case of its letters. -/
def IsPlaceholder (literal : List Char) : Prop :=
  String.ofList (lowered literal) ∈
    ["password", "your_password", "your_password_here", "changeme"]

instance : DecidablePred IsPlaceholder :=
  fun literal => inferInstanceAs (Decidable (String.ofList (lowered literal) ∈ _))

/-- The line gives a keyword a secret: at the leftmost place where it is given a literal, there is
something between the opening mark and the last quotation mark of the line, and it is no
placeholder. -/
def AssignsSecret (line : Line) : Prop :=
  ∃ keyword ∈ ["password", "passwd", "pwd"], ∃ mark rest literal,
    OpensFirst keyword line mark rest ∧ ReachesLastQuote rest literal ∧ literal ≠ [] ∧
      ¬ IsPlaceholder literal

theorem isSecret_iff {literal : List Char} :
    isSecret literal = true ↔ ¬ IsPlaceholder literal := by
  rw [isSecret, Bool.not_eq_true', ← Bool.not_eq_true, List.contains_iff_mem]
  rfl

/-- No placeholder has a quotation mark in it. -/
theorem not_isPlaceholder_of_mem {literal : List Char} {mark : Char}
    (hmark : isQuote mark = true) (hmem : mark ∈ literal) : ¬ IsPlaceholder literal := by
  have hplain : ∀ placeholder ∈ placeholders, HasNoQuote placeholder.toList := by decide
  have hlower : lowerForm mark = [mark] := by
    rw [isQuote, Bool.or_eq_true, beq_iff_eq, beq_iff_eq] at hmark
    rcases hmark with rfl | rfl <;> rfl
  intro h
  have hlowered : mark ∈ lowered literal :=
    List.mem_flatMap.mpr ⟨mark, hmem, by rw [hlower]; exact List.mem_singleton_self mark⟩
  exact not_hasNoQuote_of_mem hmark (by rwa [String.toList_ofList]) (hplain _ h)

/-- The literal that is found is the one of the first opening. Where that has none, no later opening
has one, since the last quotation mark is further away from the first. -/
theorem literal?_eq_some_iff {keyword : String} (hkeyword : keyword ∈ keywords) {line : Line}
    {literal : List Char} :
    literal? keyword line = some literal ↔
      ∃ mark rest, OpensFirst keyword line mark rest ∧ ReachesLastQuote rest literal ∧
        literal ≠ [] := by
  rw [literal?, firstSuffix?_eq_some_iff]
  simp only [Option.bind_eq_some_iff, strip_opening_iff hkeyword, upToLastQuote_eq_some_iff]
  constructor
  · rintro ⟨start, ⟨rest, ⟨mark, hopens⟩, hreaches, hne⟩, hearlier⟩
    refine ⟨mark, rest, ⟨start, hopens, ?_⟩, hreaches, hne⟩
    intro start' mark' rest' hopens'
    -- an earlier opening reaches the same last mark, so its literal would have been found
    by_contra hlt
    rw [Nat.not_le] at hlt
    have hnone := hearlier start' hlt
    obtain ⟨front, rfl⟩ :=
      hopens'.rest_suffix_of_le hkeyword hkeyword hopens (Nat.le_of_lt hlt)
    have hfound : upToLastQuote (front ++ rest) = some (front ++ literal) :=
      upToLastQuote_eq_some_iff.mpr ⟨hreaches.append_left front, by simp [hne]⟩
    rw [(strip_opening_iff hkeyword).mpr ⟨mark', hopens'⟩, Option.bind_some, hfound] at hnone
    cases hnone
  · rintro ⟨mark, rest, ⟨start, hopens, hfirst⟩, hreaches, hne⟩
    refine ⟨start, ⟨rest, ⟨mark, hopens⟩, hreaches, hne⟩, ?_⟩
    intro earlier hlt
    cases hstrip : (opening keyword).strip (line.drop earlier) with
    | none => rfl
    | some rest' =>
        obtain ⟨mark', hopens'⟩ := (strip_opening_iff hkeyword).mp hstrip
        exact absurd (hfirst earlier mark' rest' hopens') (Nat.not_le.mpr hlt)

theorem assignsSecret_iff (line : Line) : assignsSecret line = true ↔ AssignsSecret line := by
  rw [assignsSecret, List.any_eq_true]
  refine exists_congr fun keyword => and_congr_right fun hkeyword => ?_
  simp only [Option.any_eq_true, literal?_eq_some_iff hkeyword, isSecret_iff]
  constructor
  · rintro ⟨literal, ⟨mark, rest, hopens, hreaches, hne⟩, hsecret⟩
    exact ⟨mark, rest, literal, hopens, hreaches, hne, hsecret⟩
  · rintro ⟨mark, rest, literal, hopens, hreaches, hne, hsecret⟩
    exact ⟨literal, ⟨mark, rest, hopens, hreaches, hne⟩, hsecret⟩

/-- Somewhere on the line a keyword is given a literal that goes from one quotation mark to another
and is neither empty nor a placeholder. -/
def HoldsSecret (line : Line) : Prop :=
  ∃ keyword ∈ ["password", "passwd", "pwd"], ∃ start mark literal closing after,
    OpensAt keyword line start mark (literal ++ closing :: after) ∧ isQuote closing = true ∧
      literal ≠ [] ∧ ¬ IsPlaceholder literal

/-- What the first opening is given is the secret itself, or the opening mark of the secret or its
closing mark stands inside. -/
theorem HoldsSecret.assignsSecret {line : Line} (h : HoldsSecret line) : AssignsSecret line := by
  obtain ⟨keyword, hkeyword, start, mark, literal, closing, after, hopens, hclosing, hne,
    hsecret⟩ := h
  obtain ⟨first, mark', rest, hle, hopens', hfirst⟩ := hopens.exists_first
  refine ⟨keyword, hkeyword, mark', rest, ?_⟩
  rcases List.suffix_cons_iff.mp (hopens'.suffix_of_le hkeyword hkeyword hopens hle) with
    hsame | ⟨front, rfl⟩
  · -- the secret is given at the first opening
    cases hsame
    obtain ⟨found, hfound⟩ :=
      exists_reachesLastQuote (literal ++ closing :: after)
        (not_hasNoQuote_of_mem hclosing (by simp))
    refine ⟨found, hfirst, hfound, ?_⟩
    rcases hfound.cases hclosing with ⟨-, rfl⟩ | ⟨-, hmem⟩
    · exact ⟨hne, hsecret⟩
    · exact ⟨List.ne_nil_of_mem hmem, not_isPlaceholder_of_mem hclosing hmem⟩
  · -- it is given further to the right, so that its opening mark is not the last one
    obtain ⟨found, hfound⟩ :=
      exists_reachesLastQuote (front ++ mark :: (literal ++ closing :: after))
        (not_hasNoQuote_of_mem hopens.isQuote_mark (by simp))
    refine ⟨found, hfirst, hfound, ?_⟩
    rcases hfound.cases hopens.isQuote_mark with ⟨hplain, -⟩ | ⟨-, hmem⟩
    · exact absurd hplain (not_hasNoQuote_of_mem hclosing (by simp))
    · exact ⟨List.ne_nil_of_mem hmem, not_isPlaceholder_of_mem hopens.isQuote_mark hmem⟩

theorem rule_reportsExactly (path text : String) :
    rule.ReportsExactly
      "Hardcoded password detected. Use environment variables or secure storage instead"
      AssignsSecret path text :=
  Rule.reportsExactly_of_scanEachLine rfl assignsSecret_iff path text

end Password

/-- **A secret is what stands between the first opening and the last quotation mark.** Comments
apart, a line is reported, once and in the order of lines, if for some keyword this text is neither
missing nor empty nor a placeholder. So no secret is overlooked that is given to a keyword anywhere
on a line, whatever else the line holds. -/
theorem password_check_exact (path text : String) :
    Password.rule.ReportsExactly
      "Hardcoded password detected. Use environment variables or secure storage instead"
      Password.AssignsSecret path text ∧
    ∀ number line, (number, line) ∈ numbered 1 (linesOf text) → line.isComment = false →
      Password.HoldsSecret line →
        ∃ finding ∈ Password.rule.check path text, finding.line = number := by
  have hreports := Password.rule_reportsExactly path text
  refine ⟨hreports, ?_⟩
  intro number line hline hspoken hsecret
  exact (hreports.exists_finding_iff hline hspoken).mpr hsecret.assignsSecret

/-- The secret stands after an empty literal and before a placeholder. -/
theorem password_check_exact_second :
    let line := "var pwd = \"\"; Pwd='x1'  # not \"changeme\""
    Password.HoldsSecret line.toList ∧
      ∃ finding ∈ Password.rule.check "a.gd" line, finding.line = 1 := by
  intro line
  have hsecret : Password.HoldsSecret line.toList :=
    ⟨"pwd", by decide, 14, '\x27', "x1".toList, '\x27', "  # not \"changeme\"".toList,
      ⟨"Pwd".toList, [], [], by decide, by decide, by decide, rfl, by decide +kernel⟩,
      rfl, by decide, by decide⟩
  refine ⟨hsecret, ?_⟩
  exact (password_check_exact "a.gd" line).2 1 line.toList (by decide +kernel)
    (by decide +kernel) hsecret

/-! ## Placeholders -/

namespace Password

/-- No keyword is given a literal anywhere but at the place `start`. -/
def OpensOnlyAt (line : Line) (start : Nat) : Prop :=
  ∀ keyword ∈ ["password", "passwd", "pwd"], ∀ start' mark rest,
    OpensAt keyword line start' mark rest → start' = start

theorem opensOnlyAt_iff {line : Line} {start : Nat} :
    OpensOnlyAt line start ↔
      ∀ keyword ∈ ["password", "passwd", "pwd"], ∀ start' < line.length,
        (opening keyword).startsOn (line.drop start') = true → start' = start := by
  refine forall_congr' fun keyword => forall_congr' fun hkeyword => forall_congr' fun start' => ?_
  rw [startsOn_opening_iff hkeyword]
  constructor
  · rintro h - ⟨mark, rest, hopens⟩
    exact h mark rest hopens
  · intro h mark rest hopens
    refine h ?_ ⟨mark, rest, hopens⟩
    by_contra hend
    obtain ⟨word, gap, gap', -, -, -, -, htext⟩ := hopens
    rw [List.drop_eq_nil_of_le (Nat.not_lt.mp hend)] at htext
    simp at htext

instance (line : Line) (start : Nat) : Decidable (OpensOnlyAt line start) :=
  decidable_of_iff _ opensOnlyAt_iff.symm

/-- A placeholder makes a secret together with what follows it, if that goes on to another quotation
mark. -/
theorem assignsSecret_iff_of_placeholder {keyword : String} {line : Line} {start : Nat}
    {mark : Char} {literal after : List Char} (hkeyword : keyword ∈ keywords)
    (hopens : OpensAt keyword line start mark (literal ++ mark :: after))
    (honly : OpensOnlyAt line start) (hliteral : literal = [] ∨ IsPlaceholder literal) :
    AssignsSecret line ↔ ¬ HasNoQuote after := by
  constructor
  · rintro ⟨keyword', hkeyword', mark', rest, found, ⟨start', hopens', -⟩, hfound, hne, hsecret⟩
    obtain rfl := honly keyword' hkeyword' start' mark' rest hopens'
    obtain ⟨-, rfl⟩ := hopens.unique hkeyword hkeyword' hopens'
    rcases hfound.cases hopens.isQuote_mark with ⟨-, rfl⟩ | ⟨hquote, -⟩
    · rcases hliteral with rfl | hplaceholder
      · exact absurd rfl hne
      · exact absurd hplaceholder hsecret
    · exact hquote
  · intro hquote
    have hfirst : OpensFirst keyword line mark (literal ++ mark :: after) := by
      refine ⟨start, hopens, ?_⟩
      intro start' mark' rest' hopens'
      rw [honly keyword hkeyword start' mark' rest' hopens']
    obtain ⟨found, hfound⟩ :=
      exists_reachesLastQuote (literal ++ mark :: after)
        (not_hasNoQuote_of_mem hopens.isQuote_mark (by simp))
    refine ⟨keyword, hkeyword, mark, _, found, hfirst, hfound, ?_⟩
    rcases hfound.cases hopens.isQuote_mark with ⟨hplain, -⟩ | ⟨-, hmem⟩
    · exact absurd hplain hquote
    · exact ⟨List.ne_nil_of_mem hmem, not_isPlaceholder_of_mem hopens.isQuote_mark hmem⟩

end Password

/-- **A placeholder is ignored exactly if no quotation mark follows it.** If a line gives a literal
to a keyword at one place only, and the literal is empty or a placeholder, then the line is not
reported as long as there is no quotation mark after the closing one, of either kind. Otherwise it
is reported, whatever the further mark belongs to. -/
theorem placeholder_ignored_iff (path text : String) {number : Nat} {line : Line}
    {keyword : String} {start : Nat} {mark : Char} {literal after : List Char}
    (hline : (number, line) ∈ numbered 1 (linesOf text)) (hspoken : line.isComment = false)
    (hkeyword : keyword ∈ ["password", "passwd", "pwd"])
    (hopens : Password.OpensAt keyword line start mark (literal ++ mark :: after))
    (honly : Password.OpensOnlyAt line start)
    (hliteral : literal = [] ∨ Password.IsPlaceholder literal) :
    (∀ finding ∈ Password.rule.check path text, finding.line ≠ number) ↔
      Password.HasNoQuote after := by
  have hreported :=
    ((Password.rule_reportsExactly path text).exists_finding_iff hline hspoken).trans
      (Password.assignsSecret_iff_of_placeholder hkeyword hopens honly hliteral)
  have hnot := not_congr hreported
  rw [Decidable.not_not] at hnot
  simpa using hnot

/-- A comment without quotation marks may follow. -/
theorem placeholder_ignored_iff_commented :
    let line := "\tvar db_Passwd ='ChangeMe'  # not yet"
    Password.OpensOnlyAt line.toList 8 ∧ Password.IsPlaceholder "ChangeMe".toList ∧
      ∀ finding ∈ Password.rule.check "a.gd" line, finding.line ≠ 1 := by
  intro line
  have honly : Password.OpensOnlyAt line.toList 8 := by decide +kernel
  have hplaceholder : Password.IsPlaceholder "ChangeMe".toList := by decide
  have hopens : Password.OpensAt "passwd" line.toList 8 '\x27'
      ("ChangeMe".toList ++ '\x27' :: "  # not yet".toList) :=
    ⟨"Passwd".toList, [' '], [], by decide, by decide, by decide, rfl, by decide +kernel⟩
  refine ⟨honly, hplaceholder, ?_⟩
  exact (placeholder_ignored_iff "a.gd" line (by decide +kernel) (by decide +kernel) (by decide)
    hopens honly (Or.inr hplaceholder)).mpr (by decide +kernel)

/-- An apostrophe in a comment makes a secret of the placeholder before it. -/
theorem placeholder_ignored_fails :
    let line := "var password = \"changeme\"  # don't ship"
    Line.isComment line.toList = false ∧
      Password.OpensAt "password" line.toList 4 '\x22'
        ("changeme".toList ++ '\x22' :: "  # don't ship".toList) ∧
      Password.OpensOnlyAt line.toList 4 ∧ '\x22' ∉ "changeme".toList ∧
      Password.IsPlaceholder "changeme".toList ∧
      (Password.rule.check "test.gd" line).map Finding.line = [1] := by
  intro line
  refine ⟨by decide, ?_, by decide +kernel, by decide, by decide, by decide +kernel⟩
  exact ⟨"password".toList, [' '], [' '], by decide, by decide, by decide, rfl,
    by decide +kernel⟩

end ScriptLint
