import ScriptLint.Proofs.Text.Pattern
import ScriptLint.Rule.Catalog

/-!
# The tests that rules make of a line

Most rules look for their patterns in the whole line, margins included, and not in the trimmed
text. All of these tests ignore margins, each for a reason of its own: the patterns are tight, a
literal ends at a quotation mark, a placeholder has to be followed by something, a dotted target
stops at a blank. So a line and its trimmed text always pass the same tests.
-/

namespace ScriptLint

/-- The call of a function that is known by its name. -/
theorem call_isTight {word : String} (h : isSolidWord word = true) :
    Pattern.IsTight [.exactly word, .gap, .exactly "("] :=
  ⟨h, .solid h (.gap (.last rfl))⟩

/-! ## Passwords -/

namespace Password

theorem opening_isTight {keyword : String} (h : isSolidWord keyword = true) :
    (opening keyword).IsTight :=
  ⟨h, .solid h (.gap (.solid rfl (.gap (.last hasNoBlank_isQuote))))⟩

theorem upToLastQuote_append_blanks (text : List Char) {after : List Char}
    (hafter : AllBlank after) : upToLastQuote (text ++ after) = upToLastQuote text := by
  have hquote : ∀ c ∈ after.reverse, (!isQuote c) = true := by
    intro c hc
    rw [hasNoBlank_isQuote c (hafter c (List.mem_reverse.mp hc))]
    rfl
  rw [upToLastQuote, List.reverse_append, List.dropWhile_append_of_pos hquote]
  rfl

theorem literal?_ignoresMargins {keyword : String} (h : isSolidWord keyword = true) :
    IgnoresMargins (literal? keyword) := by
  have htight := opening_isTight h
  apply IgnoresMargins.of_sides
  · intro c text hc
    rw [literal?, firstSuffix?, htight.starts.strip_blank_cons hc]
    rfl
  · intro text after hafter
    apply firstSuffix?_append_blanks _ hafter
    · intro text
      show ((opening keyword).strip (text ++ after)).bind upToLastQuote = _
      rw [htight.ends.strip_append_blanks text hafter]
      cases (opening keyword).strip text with
      | none => rfl
      | some rest => exact upToLastQuote_append_blanks rest hafter
    · intro text htext
      show ((opening keyword).strip text).bind upToLastQuote = none
      rw [htight.ends.strip_allBlank htext]
      rfl

theorem assignsSecret_ignoresMargins : IgnoresMargins assignsSecret := by
  have hsolid : ∀ keyword ∈ keywords, isSolidWord keyword = true := by decide
  exact .any fun keyword hkeyword =>
    (literal?_ignoresMargins (hsolid keyword hkeyword)).map fun literal => literal.any isSecret

end Password

/-! ## Evaluation -/

namespace Evaluation

theorem isTight_of_mem_calls : ∀ call ∈ calls, Pattern.IsTight call := by
  rw [calls, List.forall_mem_cons, List.forall_mem_singleton]
  exact ⟨⟨rfl, .solid rfl (.gap (.last rfl))⟩, ⟨rfl, .solid rfl (.gap (.last rfl))⟩⟩

theorem evaluates_ignoresMargins : IgnoresMargins evaluates :=
  .any fun call hcall => (isTight_of_mem_calls call hcall).occursIn_ignoresMargins

end Evaluation

/-! ## Queries -/

namespace Query

theorem isTight_of_mem_insertions : ∀ insertion ∈ insertions, Pattern.IsTight insertion := by
  rw [insertions, List.forall_mem_cons, List.forall_mem_cons, List.forall_mem_singleton]
  exact ⟨⟨rfl, .last rfl⟩, ⟨rfl, .last rfl⟩,
    ⟨rfl, .solid rfl (.gap (.last hasNoBlank_isWord))⟩⟩

theorem startsInsertion_blank_cons {c : Char} (hc : isBlank c = true) (text : List Char) :
    startsInsertion (c :: text) = false := by
  rw [startsInsertion, List.any_eq_false]
  intro insertion hinsertion
  rw [(isTight_of_mem_insertions insertion hinsertion).starts.startsOn_blank_cons hc]
  exact Bool.false_ne_true

theorem startsInsertion_append_blanks (text : List Char) {after : List Char}
    (hafter : AllBlank after) : startsInsertion (text ++ after) = startsInsertion text := by
  rw [startsInsertion, startsInsertion, Bool.eq_iff_iff, List.any_eq_true, List.any_eq_true]
  refine exists_congr fun insertion => and_congr_right fun hinsertion => ?_
  rw [(isTight_of_mem_insertions insertion hinsertion).ends.startsOn_append_blanks text hafter]

theorem beforeLastInsertion?_blank_cons {c : Char} (hc : isBlank c = true) (text : List Char) :
    beforeLastInsertion? (c :: text) = (beforeLastInsertion? text).map (c :: ·) := by
  rw [beforeLastInsertion?, startsInsertion_blank_cons hc]
  cases beforeLastInsertion? text <;> rfl

theorem beforeLastInsertion?_allBlank {text : List Char} (htext : AllBlank text) :
    beforeLastInsertion? text = none := by
  induction text with
  | nil => rfl
  | cons c rest ih =>
      rw [allBlank_cons] at htext
      rw [beforeLastInsertion?_blank_cons htext.1, ih htext.2]
      rfl

theorem beforeLastInsertion?_append_blanks (text : List Char) {after : List Char}
    (hafter : AllBlank after) :
    beforeLastInsertion? (text ++ after) = beforeLastInsertion? text := by
  induction text with
  | nil => exact beforeLastInsertion?_allBlank hafter
  | cons c rest ih =>
      have hhere := startsInsertion_append_blanks (c :: rest) hafter
      rw [List.cons_append] at hhere ⊢
      rw [beforeLastInsertion?, beforeLastInsertion?, ih, hhere]

theorem namesVerb_ignoresMargins : IgnoresMargins namesVerb := by
  have hsolid : ∀ verb ∈ verbs, isSolidWord verb = true := by decide
  apply IgnoresMargins.any
  intro verb hverb
  have htight : Pattern.IsTight [.letters verb] := ⟨hsolid verb hverb, .last (hsolid verb hverb)⟩
  exact htight.occursIn_ignoresMargins

/-- The margin before a line is part of the text before the last insertion, where it names no
verb. -/
theorem buildsStatement_ignoresMargins : IgnoresMargins buildsStatement := by
  apply IgnoresMargins.of_sides
  · intro c text hc
    rw [buildsStatement, buildsStatement, beforeLastInsertion?_blank_cons hc]
    cases beforeLastInsertion? text with
    | none => rfl
    | some before =>
        have hmargin : AllBlank [c] := allBlank_cons.mpr ⟨hc, allBlank_nil⟩
        have hverb := namesVerb_ignoresMargins [c] before [] hmargin allBlank_nil
        rw [List.append_nil] at hverb
        exact hverb
  · intro text after hafter
    rw [buildsStatement, buildsStatement, beforeLastInsertion?_append_blanks text hafter]

end Query

/-! ## Randomness -/

namespace Randomness

theorem callsRandom_ignoresMargins : IgnoresMargins callsRandom := by
  have hsolid : ∀ name ∈ functions, isSolidWord name = true := by decide
  apply IgnoresMargins.any
  intro name hname
  exact (call_isTight (hsolid name hname)).occursAtWordStart_ignoresMargins

theorem mentionsSecret_ignoresMargins : IgnoresMargins mentionsSecret := by
  have hsolid : ∀ secret ∈ secrets, isSolidWord secret = true := by decide
  exact .any fun secret hsecret =>
    (containsText_ignoresMargins (hsolid secret hsecret)).comp_lowered

end Randomness

/-! ## Expensive operations, additions and lookups -/

namespace FrameLoop

theorem isExpensive_ignoresMargins : IgnoresMargins isExpensive := by
  have hlookups : ∀ lookup ∈ lookups, Pattern.IsTight lookup := by
    rw [lookups, List.forall_mem_cons, List.forall_mem_cons, List.forall_mem_cons,
      List.forall_mem_singleton]
    exact ⟨call_isTight rfl, isTight_exactly rfl, call_isTight rfl, call_isTight rfl⟩
  have hcreations : ∀ creation ∈ creations, Pattern.IsTight creation := by
    rw [creations, List.forall_mem_cons, List.forall_mem_singleton]
    exact ⟨call_isTight rfl, call_isTight rfl⟩
  exact .map₂ or
    (.any fun lookup h => (hlookups lookup h).occursIn_ignoresMargins)
    (.any fun creation h => (hcreations creation h).occursAtWordStart_ignoresMargins)

end FrameLoop

namespace Concatenation

theorem addition_ignoresMargins : IgnoresMargins addition.occursIn := by
  have htight : Pattern.IsTight addition :=
    ⟨hasNoBlank_isWord,
      .solid hasNoBlank_isWord (.gap (.solid rfl (.gap (.last hasNoBlank_isQuote))))⟩
  exact htight.occursIn_ignoresMargins

end Concatenation

namespace NodeLookup

theorem hasNoBlank_isShorthandStart : HasNoBlank isShorthandStart := by
  have hother : ∀ c, isBlank c = true → (c == '\x22' || c == '%') = false :=
    forall_isBlank (by decide)
  intro c hc
  rw [isShorthandStart, Bool.or_assoc, hasNoBlank_isWord c hc, hother c hc]
  rfl

theorem looksUpNode_ignoresMargins : IgnoresMargins looksUpNode := by
  have htight : Pattern.IsTight [.exactly "$", .one isShorthandStart] :=
    ⟨rfl, .solid rfl (.last hasNoBlank_isShorthandStart)⟩
  exact .map₂ or (containsText_ignoresMargins rfl)
    (.map₂ (fun found event => found && !event) htight.occursIn_ignoresMargins
      (containsText_ignoresMargins rfl).comp_lowered)

end NodeLookup

/-! ## Subscriptions -/

namespace Subscription

theorem hasNoBlank_isTargetPart : HasNoBlank isTargetPart := by
  have hdot : ∀ c, isBlank c = true → (c == '.') = false := forall_isBlank (by decide)
  intro c hc
  rw [isTargetPart, hasNoBlank_isWord c hc, hdot c hc]
  rfl

theorem hasNoBlank_isTargetStart : HasNoBlank isTargetStart :=
  forall_isBlank (by decide)

/-- A name and what follows its closing quotation mark, if the name is not empty and is closed. -/
def closed? : List Char → List Char → Option (List Char × List Char)
  | _ :: _, [] => none
  | [], _ => none
  | name, _ :: after => some (name, after)

theorem closed?_nil (name : List Char) : closed? name [] = none := by
  cases name <;> rfl

theorem closed?_cons_append (name : List Char) (quote : Char) (rest after : List Char) :
    closed? name (quote :: rest ++ after) =
      (closed? name (quote :: rest)).map (Prod.map id (· ++ after)) := by
  cases name <;> rfl

/-- The text up to the next quotation mark, and the text after the mark. -/
def quoted? (text : List Char) : Option (List Char × List Char) :=
  closed? (text.takeWhile fun c => !isQuote c) (text.dropWhile fun c => !isQuote c)

theorem signal?_eq (text : List Char) :
    signal? text = (Pattern.strip [.gap, .one isQuote] text).bind quoted? := by
  rw [signal?]
  cases Pattern.strip [.gap, .one isQuote] text <;> rfl

/-- A literal that is not closed in the text is not closed by the margin after it. -/
theorem quoted?_append_blanks (text : List Char) {after : List Char} (hafter : AllBlank after) :
    quoted? (text ++ after) = (quoted? text).map (Prod.map id (· ++ after)) := by
  have hplain : after.dropWhile (fun c => !isQuote c) = [] := by
    rw [List.dropWhile_eq_nil_iff]
    intro c hc
    rw [hasNoBlank_isQuote c (hafter c hc)]
    rfl
  rw [quoted?, quoted?, List.dropWhile_append]
  cases hrest : text.dropWhile fun c => !isQuote c with
  | nil =>
      rw [if_pos List.isEmpty_nil, hplain, closed?_nil, closed?_nil]
      rfl
  | cons quote rest =>
      have hne : (text.dropWhile fun c => !isQuote c) ≠ [] := by rw [hrest]; simp
      rw [takeWhile_append_of_dropWhile_ne_nil hne after]
      exact closed?_cons_append _ quote rest after

theorem signal?_append_blanks (text : List Char) {after : List Char} (hafter : AllBlank after) :
    signal? (text ++ after) = (signal? text).map (Prod.map id (· ++ after)) := by
  have hends : Pattern.EndsSolid [.gap, .one isQuote] := .gap (.last hasNoBlank_isQuote)
  rw [signal?_eq, signal?_eq, hends.strip_append_blanks text hafter]
  cases Pattern.strip [.gap, .one isQuote] text with
  | none => rfl
  | some rest => exact quoted?_append_blanks rest hafter

theorem atStart?_append_blanks (method : String) (c : Char) (rest : List Char)
    {after : List Char} (hafter : AllBlank after) :
    atStart? method (c :: (rest ++ after)) =
      (atStart? method (c :: rest)).map (Prod.map id (· ++ after)) := by
  have hparen : Pattern.EndsSolid [.exactly "("] := .last rfl
  rw [atStart?, atStart?, takeWhile_append_blanks hasNoBlank_isTargetPart rest hafter,
    dropWhile_append_blanks hasNoBlank_isTargetPart rest hafter,
    hparen.strip_append_blanks _ hafter]
  by_cases hc : isTargetStart c = true
  · rw [if_pos hc, if_pos hc]
    cases targetOf? method (rest.takeWhile isTargetPart) with
    | none => rfl
    | some tail =>
        cases Pattern.strip [.exactly "("] (rest.dropWhile isTargetPart) with
        | none => rfl
        | some inner =>
            simp only [Option.map_some, signal?_append_blanks inner hafter, Option.map_map]
            rfl
  · rw [if_neg hc, if_neg hc]
    rfl

theorem atStart?_blank_cons (method : String) {c : Char} (hc : isBlank c = true)
    (rest : List Char) : atStart? method (c :: rest) = none := by
  rw [atStart?, hasNoBlank_isTargetStart c hc]
  rfl

theorem hopeless_append_blanks (c : Char) (rest : List Char) {after : List Char}
    (hafter : AllBlank after) : hopeless c (rest ++ after) = hopeless c rest := by
  rw [hopeless, hopeless, takeWhile_append_blanks hasNoBlank_isTargetPart rest hafter]

theorem allFrom_blank_cons (method : String) {c : Char} (hc : isBlank c = true)
    (rest : List Char) : allFrom method 0 (c :: rest) = allFrom method 0 rest := by
  rw [allFrom, atStart?_blank_cons method hc, hopeless, hasNoBlank_isTargetStart c hc]
  rfl

theorem allFrom_allBlank (method : String) (skipped : Nat) {text : List Char}
    (htext : AllBlank text) : allFrom method skipped text = [] := by
  induction text generalizing skipped with
  | nil => rfl
  | cons c rest ih =>
      rw [allBlank_cons] at htext
      cases skipped with
      | zero => rw [allFrom_blank_cons method htext.1, ih 0 htext.2]
      | succ n => exact ih n htext.2

/-- The search skips as many characters with a margin after the text as without it. -/
theorem allFrom_append_blanks (method : String) (skipped : Nat) (text : List Char)
    {after : List Char} (hafter : AllBlank after) :
    allFrom method skipped (text ++ after) = allFrom method skipped text := by
  induction text generalizing skipped with
  | nil => exact allFrom_allBlank method skipped hafter
  | cons c rest ih =>
      rw [List.cons_append]
      cases skipped with
      | succ n => exact ih n
      | zero =>
          rw [allFrom, allFrom, atStart?_append_blanks method c rest hafter]
          cases atStart? method (c :: rest) with
          | none =>
              show allFrom method (hopeless c (rest ++ after)) (rest ++ after) = _
              rw [hopeless_append_blanks c rest hafter]
              exact ih _
          | some found =>
              -- both lengths grow by that of the margin, so their difference stays
              show found.1 :: allFrom method
                ((rest ++ after).length - (found.2 ++ after).length) (rest ++ after) = _
              rw [List.length_append, List.length_append, Nat.add_sub_add_right, ih]

theorem allFrom_ignoresMargins (method : String) : IgnoresMargins (allFrom method 0) :=
  .of_sides (fun _ text hc => allFrom_blank_cons method hc text)
    (fun text _ hafter => allFrom_append_blanks method 0 text hafter)

theorem madeIn_ignoresMargins : IgnoresMargins madeIn :=
  allFrom_ignoresMargins ".connect"

theorem cancelledIn_ignoresMargins : IgnoresMargins cancelledIn :=
  allFrom_ignoresMargins ".disconnect"

end Subscription

end ScriptLint
