import ScriptLint.Proofs.Rule.LineTests
import ScriptLint.Proofs.Text.Spelling

/-!
# The subscriptions of a line

A subscription is written as a dotted target, a method, a parenthesis and a signal between quotation
marks. The subscriptions of a line are those that a reader finds from left to right: wherever one
starts, it is taken and the reader goes on after it, and everywhere else one character is passed
over.

The search knows more than this reader. It takes the target and the method as one run, which ends at
the parenthesis, so that there is one way to read a subscription that starts at a given place. And
if none starts at the beginning of a run, it passes over the whole run: a subscription that started
further inside would also start at the beginning, with a longer target.
-/

namespace ScriptLint

namespace Subscription

/-- The text starts with the subscription, made by the method, and goes on with `rest`. -/
def StartsWith (method : String) (text : List Char) (found : Subscription) (rest : List Char) :
    Prop :=
  ∃ first tail gap opening closing,
    found.target = first :: tail ∧ isTargetStart first = true ∧
    (∀ c ∈ tail, isTargetPart c = true) ∧ AllBlank gap ∧
    isQuote opening = true ∧ isQuote closing = true ∧
    found.signal ≠ [] ∧ (∀ c ∈ found.signal, isQuote c = false) ∧
    text = found.target ++ method.toList ++ '(' :: gap ++ opening :: found.signal ++ closing :: rest

/-- What a reader finds in a text from left to right. -/
inductive LeftmostMatches (method : String) : List Char → List Subscription → Prop where
  | nil : LeftmostMatches method [] []
  | skip {c : Char} {text : List Char} {founds : List Subscription}
      (none : ∀ found rest, ¬ StartsWith method (c :: text) found rest)
      (further : LeftmostMatches method text founds) : LeftmostMatches method (c :: text) founds
  | found {text rest : List Char} {found : Subscription} {founds : List Subscription}
      (here : StartsWith method text found rest)
      (further : LeftmostMatches method rest founds) :
      LeftmostMatches method text (found :: founds)

/-! ## One subscription -/

theorem targetOf?_eq_some_iff {method : String} {call target : List Char} :
    targetOf? method call = some target ↔ call = target ++ method.toList := by
  rw [targetOf?, Option.map_eq_some_iff]
  constructor
  · rintro ⟨reversed, hstrip, rfl⟩
    have hcall := stripWord_eq_some_iff_append.mp hstrip
    rw [← List.reverse_reverse call, hcall]
    simp
  · rintro rfl
    exact ⟨target.reverse, stripWord_eq_some_iff_append.mpr (by simp), List.reverse_reverse _⟩

/-- A name stands before the next quotation mark, if it is not empty. -/
theorem quoted?_eq_some_iff {text name rest : List Char} :
    quoted? text = some (name, rest) ↔
      ∃ closing, isQuote closing = true ∧ name ≠ [] ∧ (∀ c ∈ name, isQuote c = false) ∧
        text = name ++ closing :: rest := by
  constructor
  · intro h
    have hsplit := List.takeWhile_append_dropWhile (p := fun c => !isQuote c) (l := text)
    have hname := List.all_eq_true.mp (List.all_takeWhile (p := fun c => !isQuote c) (l := text))
    have hstop := List.head?_dropWhile_not (fun c => !isQuote c) text
    rw [quoted?] at h
    generalize text.takeWhile (fun c => !isQuote c) = front at *
    generalize text.dropWhile (fun c => !isQuote c) = back at *
    cases front with
    | nil => cases h
    | cons c front =>
        cases back with
        | nil => cases h
        | cons closing after =>
            cases h
            refine ⟨closing, by simpa using hstop, List.cons_ne_nil _ _, ?_, hsplit.symm⟩
            intro d hd
            simpa using hname d hd
  · rintro ⟨closing, hclosing, hne, hname, rfl⟩
    have hinside : ∀ c ∈ name, (!isQuote c) = true := by
      intro c hc
      rw [hname c hc]
      rfl
    have hstop : ∀ c, (closing :: rest).head? = some c → (!isQuote c) = false := by
      intro c hc
      cases hc
      rw [hclosing]
      rfl
    obtain ⟨htake, hdrop⟩ := span_append hinside hstop
    rw [quoted?, htake, hdrop]
    cases name with
    | nil => exact absurd rfl hne
    | cons c name => rfl

theorem strip_openingQuote_iff {text rest : List Char} :
    Pattern.strip [.gap, .one isQuote] text = some rest ↔
      ∃ gap opening, AllBlank gap ∧ isQuote opening = true ∧ text = gap ++ opening :: rest := by
  constructor
  · intro h
    obtain ⟨_, ⟨gap, _, hgap, ⟨_, _, ⟨opening, hopening, rfl⟩, rfl, rfl⟩, rfl⟩, rfl⟩ :=
      Pattern.exists_spells_of_strip h
    exact ⟨gap, opening, hgap, hopening, by simp⟩
  · rintro ⟨gap, opening, hgap, hopening, rfl⟩
    have hstart : ∀ c, (opening :: rest).head? = some c → isBlank c = false := by
      intro c hc
      cases hc
      rw [Bool.eq_false_iff]
      intro hblank
      rw [hasNoBlank_isQuote opening hblank] at hopening
      cases hopening
    rw [Pattern.strip, Piece.strip, Option.bind_some, (span_append hgap hstart).2,
      Pattern.strip_singleton, Piece.strip, if_pos hopening]

theorem signal?_eq_some_iff {text name rest : List Char} :
    signal? text = some (name, rest) ↔
      ∃ gap opening closing, AllBlank gap ∧ isQuote opening = true ∧ isQuote closing = true ∧
        name ≠ [] ∧ (∀ c ∈ name, isQuote c = false) ∧
        text = gap ++ opening :: name ++ closing :: rest := by
  rw [signal?_eq, Option.bind_eq_some_iff]
  constructor
  · rintro ⟨inner, hstrip, hquoted⟩
    obtain ⟨gap, opening, hgap, hopening, rfl⟩ := strip_openingQuote_iff.mp hstrip
    obtain ⟨closing, hclosing, hne, hname, rfl⟩ := quoted?_eq_some_iff.mp hquoted
    exact ⟨gap, opening, closing, hgap, hopening, hclosing, hne, hname, by simp⟩
  · rintro ⟨gap, opening, closing, hgap, hopening, hclosing, hne, hname, rfl⟩
    exact ⟨name ++ closing :: rest,
      strip_openingQuote_iff.mpr ⟨gap, opening, hgap, hopening, by simp⟩,
      quoted?_eq_some_iff.mpr ⟨closing, hclosing, hne, hname, rfl⟩⟩

variable {method : String}

/-- **There is one way to read a subscription at the start of a text**, and the search finds it. A
method consists of characters that may stand in a target, which the parenthesis may not. -/
theorem atStart?_eq_some_iff (hmethod : ∀ c ∈ method.toList, isTargetPart c = true)
    {text rest : List Char} {found : Subscription} :
    atStart? method text = some (found, rest) ↔ StartsWith method text found rest := by
  constructor
  · intro h
    cases text with
    | nil => cases h
    | cons first text =>
        rw [atStart?] at h
        split at h
        · next hfirst =>
            split at h
            · next tail inside htarget hparen =>
                obtain ⟨⟨name, after⟩, hsignal, hfound⟩ := Option.map_eq_some_iff.mp h
                cases hfound
                rw [Pattern.strip_singleton] at hparen
                have hrun := targetOf?_eq_some_iff.mp htarget
                have hcall := stripWord_eq_some_iff_append.mp hparen
                obtain ⟨gap, opening, closing, hgap, hopening, hclosing, hne, hname, rfl⟩ :=
                  signal?_eq_some_iff.mp hsignal
                refine ⟨first, tail, gap, opening, closing, rfl, hfirst, ?_, hgap, hopening,
                  hclosing, hne, hname, ?_⟩
                · intro c hc
                  have hparts := List.all_eq_true.mp
                    (List.all_takeWhile (p := isTargetPart) (l := text))
                  rw [hrun] at hparts
                  exact hparts c (List.mem_append_left _ hc)
                · rw [← List.takeWhile_append_dropWhile (p := isTargetPart) (l := text), hrun,
                    hcall]
                  simp
            · cases h
        · cases h
  · rintro ⟨first, tail, gap, opening, closing, htarget, hfirst, htail, hgap, hopening, hclosing,
      hne, hname, rfl⟩
    obtain ⟨target, signal⟩ := found
    cases htarget
    have hrun : ∀ c ∈ tail ++ method.toList, isTargetPart c = true := by
      rw [List.forall_mem_append]
      exact ⟨htail, hmethod⟩
    have hstop : ∀ c, ('(' :: (gap ++ opening :: signal ++ closing :: rest)).head? = some c →
        isTargetPart c = false := by
      intro c hc
      cases hc
      decide +kernel
    obtain ⟨htake, hdrop⟩ := span_append hrun hstop
    have hsignal : signal? (gap ++ opening :: signal ++ closing :: rest) = some (signal, rest) :=
      signal?_eq_some_iff.mpr ⟨gap, opening, closing, hgap, hopening, hclosing, hne, hname, rfl⟩
    have hparen : Pattern.strip [.exactly "("] ('(' :: (gap ++ opening :: signal ++
        closing :: rest)) = some (gap ++ opening :: signal ++ closing :: rest) := by
      rw [Pattern.strip_singleton]
      exact stripWord_eq_some_iff_append.mpr rfl
    have htext : first :: tail ++ method.toList ++ '(' :: gap ++ opening :: signal ++
        closing :: rest = first :: (tail ++ method.toList ++
          '(' :: (gap ++ opening :: signal ++ closing :: rest)) := by simp
    rw [htext, atStart?, if_pos hfirst, htake, hdrop, targetOf?_eq_some_iff.mpr rfl, hparen]
    simp only [hsignal, Option.map_some]

theorem startsWith_unique (hmethod : ∀ c ∈ method.toList, isTargetPart c = true)
    {text rest rest' : List Char} {found found' : Subscription}
    (h : StartsWith method text found rest) (h' : StartsWith method text found' rest') :
    found = found' ∧ rest = rest' := by
  have hsome := (atStart?_eq_some_iff hmethod).mpr h
  rw [(atStart?_eq_some_iff hmethod).mpr h'] at hsome
  cases hsome
  exact ⟨rfl, rfl⟩

theorem isTargetPart_of_isTargetStart {c : Char} (h : isTargetStart c = true) :
    isTargetPart c = true := by
  rw [isTargetStart, Bool.or_eq_true, beq_iff_eq] at h
  rw [isTargetPart, isWord]
  rcases h with h | rfl
  · have hrange : c.toNat < 128 := by
      have hletter : (decide ('A'.val ≤ c.val ∧ c.val ≤ 'Z'.val) ||
          ('a'.val ≤ c.val && c.val ≤ 'z'.val)) = true := h
      simp only [Bool.or_eq_true, Bool.and_eq_true, decide_eq_true_eq,
        UInt32.le_iff_toNat_le] at hletter
      have hupper : 'Z'.val.toNat = 90 := rfl
      have hlower : 'z'.val.toNat = 122 := rfl
      rw [Char.toNat]
      omega
    rw [if_pos hrange, Char.isAlphanum, h]
    rfl
  · decide

/-- A subscription inside a run of target characters makes a longer one from the start of it. -/
theorem StartsWith.extend {text rest : List Char} {found : Subscription}
    (h : StartsWith method text found rest) {first : Char} (hfirst : isTargetStart first = true)
    {run : List Char} (hrun : ∀ c ∈ run, isTargetPart c = true) :
    StartsWith method (first :: run ++ text)
      { target := first :: run ++ found.target, signal := found.signal } rest := by
  obtain ⟨inner, tail, gap, opening, closing, htarget, hinner, htail, hgap, hopening, hclosing,
    hne, hname, rfl⟩ := h
  refine ⟨first, run ++ found.target, gap, opening, closing, rfl, hfirst, ?_, hgap, hopening,
    hclosing, hne, hname, by simp⟩
  rw [htarget, List.forall_mem_append, List.forall_mem_cons]
  exact ⟨hrun, isTargetPart_of_isTargetStart hinner, htail⟩

/-- A subscription takes at least one character. -/
theorem StartsWith.eq_cons {text rest : List Char} {found : Subscription}
    (h : StartsWith method text found rest) : ∃ c taken, text = c :: (taken ++ rest) := by
  obtain ⟨first, tail, gap, opening, closing, htarget, -, -, -, -, -, -, -, rfl⟩ := h
  rw [htarget]
  exact ⟨first, tail ++ method.toList ++ '(' :: gap ++ opening :: found.signal ++ [closing],
    by simp⟩

theorem not_startsWith_nil {rest : List Char} {found : Subscription} :
    ¬ StartsWith method [] found rest := by
  intro h
  obtain ⟨c, taken, hnil⟩ := h.eq_cons
  cases hnil

/-! ## All subscriptions -/

/-- A run in which no subscription starts is passed over character by character. -/
theorem LeftmostMatches.skipRun {run text : List Char} {founds : List Subscription}
    (h : LeftmostMatches method text founds)
    (hnone : ∀ skipped c later, run = skipped ++ c :: later → ∀ found rest,
      ¬ StartsWith method (c :: later ++ text) found rest) :
    LeftmostMatches method (run ++ text) founds := by
  induction run with
  | nil => exact h
  | cons c run ih =>
      refine .skip (hnone [] c run rfl) (ih ?_)
      rintro skipped d later rfl
      exact hnone (c :: skipped) d later rfl

/-- If no subscription starts at a character, none starts in the run that is hopeless after it. -/
theorem LeftmostMatches.skipHopeless {c : Char} {rest : List Char} {founds : List Subscription}
    (hnone : ∀ found after, ¬ StartsWith method (c :: rest) found after)
    (h : LeftmostMatches method (rest.drop (hopeless c rest)) founds) :
    LeftmostMatches method (c :: rest) founds := by
  refine .skip hnone ?_
  by_cases hc : isTargetStart c = true
  · have hparts := List.all_eq_true.mp (List.all_takeWhile (p := isTargetPart) (l := rest))
    rw [hopeless, if_pos hc] at h
    rw [← List.takeWhile_append_dropWhile (p := isTargetPart) (l := rest)] at hnone ⊢
    have hdrop : rest.drop (rest.takeWhile isTargetPart).length = rest.dropWhile isTargetPart := by
      have hleft : (rest.takeWhile isTargetPart ++ rest.dropWhile isTargetPart).drop
          (rest.takeWhile isTargetPart).length = rest.dropWhile isTargetPart := List.drop_left
      rwa [List.takeWhile_append_dropWhile] at hleft
    rw [hdrop] at h
    refine h.skipRun ?_
    intro skipped d later hrun found after hfound
    rw [hrun] at hparts
    -- with the characters before it the subscription would start at `c`
    have hlonger := hfound.extend hc fun e he => hparts e (List.mem_append_left _ he)
    have htext : c :: skipped ++ (d :: later ++ rest.dropWhile isTargetPart) =
        c :: (rest.takeWhile isTargetPart ++ rest.dropWhile isTargetPart) := by
      rw [hrun]
      simp
    rw [htext] at hlonger
    exact hnone _ after hlonger
  · rw [hopeless, if_neg hc] at h
    exact h

/-- **The search finds what a reader finds from left to right.** -/
theorem leftmostMatches_allFrom (hmethod : ∀ c ∈ method.toList, isTargetPart c = true)
    (skipped : Nat) (text : List Char) :
    LeftmostMatches method (text.drop skipped) (allFrom method skipped text) := by
  induction text generalizing skipped with
  | nil =>
      rw [List.drop_nil]
      exact .nil
  | cons c rest ih =>
      cases skipped with
      | succ n => exact ih n
      | zero =>
          rw [allFrom, List.drop_zero]
          cases hstart : atStart? method (c :: rest) with
          | none =>
              refine .skipHopeless ?_ (ih (hopeless c rest))
              intro found after hfound
              rw [(atStart?_eq_some_iff hmethod).mpr hfound] at hstart
              cases hstart
          | some result =>
              obtain ⟨found, after⟩ := result
              have hfound := (atStart?_eq_some_iff hmethod).mp hstart
              obtain ⟨d, taken, htext⟩ := hfound.eq_cons
              obtain ⟨rfl, rfl⟩ := List.cons.inj htext
              have hfurther := ih ((taken ++ after).length - after.length)
              rw [List.length_append, Nat.add_sub_cancel, List.drop_left] at hfurther
              refine .found hfound ?_
              rw [List.length_append, Nat.add_sub_cancel]
              exact hfurther

theorem LeftmostMatches.unique (hmethod : ∀ c ∈ method.toList, isTargetPart c = true)
    {text : List Char} {founds founds' : List Subscription}
    (h : LeftmostMatches method text founds) (h' : LeftmostMatches method text founds') :
    founds = founds' := by
  induction h generalizing founds' with
  | nil =>
      cases h' with
      | nil => rfl
      | found here _ => exact absurd here not_startsWith_nil
  | skip none _ ih =>
      cases h' with
      | skip _ further => exact ih further
      | found here _ => exact absurd here (none _ _)
  | found here _ ih =>
      cases h' with
      | nil => exact absurd here not_startsWith_nil
      | skip none _ => exact absurd here (none _ _)
      | found here' further =>
          obtain ⟨rfl, rfl⟩ := startsWith_unique hmethod here here'
          rw [ih further]

theorem leftmostMatches_iff (hmethod : ∀ c ∈ method.toList, isTargetPart c = true)
    {text : List Char} {founds : List Subscription} :
    LeftmostMatches method text founds ↔ founds = allFrom method 0 text := by
  have hall : LeftmostMatches method text (allFrom method 0 text) :=
    leftmostMatches_allFrom hmethod 0 text
  constructor
  · intro h
    exact h.unique hmethod hall
  · rintro rfl
    exact hall

/-- What is found starts somewhere in the text. -/
theorem LeftmostMatches.exists_startsWith {text : List Char} {founds : List Subscription}
    (h : LeftmostMatches method text founds) :
    ∀ found ∈ founds, ∃ before after rest, text = before ++ after ∧
      StartsWith method after found rest := by
  induction h with
  | nil => exact List.forall_mem_nil _
  | @skip c text founds _ _ ih =>
      intro found hfound
      obtain ⟨before, after, rest, rfl, hstart⟩ := ih found hfound
      exact ⟨c :: before, after, rest, rfl, hstart⟩
  | @found text rest first founds here _ ih =>
      rw [List.forall_mem_cons]
      refine ⟨⟨[], text, rest, rfl, here⟩, ?_⟩
      intro found hfound
      obtain ⟨before, after, further, rfl, hstart⟩ := ih found hfound
      obtain ⟨c, taken, rfl⟩ := here.eq_cons
      exact ⟨c :: taken ++ before, after, further, by simp, hstart⟩

end Subscription

end ScriptLint
