import ScriptLint.Proofs.Rule.SubscriptionCalls
import ScriptLint.Proofs.WellFormedFindings

/-!
# Dangling subscriptions

A subscription dangles if some line of a script makes it and no line cancels it, wherever these
lines stand. The rule on subscriptions reports the dangling ones, each once, where it is first made
and in the order in which they are first made. Comments neither make nor cancel anything.
-/

namespace ScriptLint

namespace Subscription

/-! ## First occurrences -/

variable {known : List Subscription} {entries : List (Subscription × Nat × Line)}

/-- An entry is kept if its subscription is new there. -/
theorem mem_firstOfEach_iff {entry : Subscription × Nat × Line} :
    entry ∈ firstOfEach known entries ↔
      entry.1 ∉ known ∧ ∃ before after, entries = before ++ entry :: after ∧
        ∀ earlier ∈ before, earlier.1 ≠ entry.1 := by
  induction entries generalizing known with
  | nil => simp [firstOfEach]
  | cons first rest ih =>
      rw [firstOfEach]
      by_cases hknown : known.contains first.1 = true
      · rw [if_pos hknown, ih]
        rw [List.contains_iff_mem] at hknown
        constructor
        · rintro ⟨hnew, before, after, rfl, hbefore⟩
          refine ⟨hnew, first :: before, after, rfl, ?_⟩
          rw [List.forall_mem_cons]
          exact ⟨fun hsame => hnew (hsame ▸ hknown), hbefore⟩
        · rintro ⟨hnew, before, after, hsplit, hbefore⟩
          cases before with
          | nil =>
              cases hsplit
              exact absurd hknown hnew
          | cons head before =>
              obtain ⟨rfl, rfl⟩ := List.cons.inj hsplit
              exact ⟨hnew, before, after, rfl, (List.forall_mem_cons.mp hbefore).2⟩
      · rw [if_neg hknown, List.mem_cons, ih, List.mem_cons, not_or]
        rw [List.contains_iff_mem] at hknown
        constructor
        · rintro (rfl | ⟨⟨hne, hnew⟩, before, after, rfl, hbefore⟩)
          · exact ⟨hknown, [], rest, rfl, List.forall_mem_nil _⟩
          · refine ⟨hnew, first :: before, after, rfl, ?_⟩
            rw [List.forall_mem_cons]
            exact ⟨fun hsame => hne hsame.symm, hbefore⟩
        · rintro ⟨hnew, before, after, hsplit, hbefore⟩
          cases before with
          | nil =>
              cases hsplit
              exact Or.inl rfl
          | cons head before =>
              obtain ⟨rfl, rfl⟩ := List.cons.inj hsplit
              rw [List.forall_mem_cons] at hbefore
              exact Or.inr ⟨⟨fun hsame => hbefore.1 hsame.symm, hnew⟩, before, after, rfl,
                hbefore.2⟩

theorem nodup_firstOfEach : ((firstOfEach known entries).map Prod.fst).Nodup := by
  induction entries generalizing known with
  | nil => exact .nil
  | cons first rest ih =>
      rw [firstOfEach]
      split
      · exact ih
      · rw [List.map_cons, List.nodup_cons]
        refine ⟨?_, ih⟩
        intro hmem
        obtain ⟨entry, hentry, hsame⟩ := List.mem_map.mp hmem
        have hnew := (mem_firstOfEach_iff.mp hentry).1
        rw [hsame] at hnew
        exact hnew List.mem_cons_self

/-- Each of the two entries is the first of its subscription, and they come in this order. -/
def FirstBefore (entries : List (Subscription × Nat × Line))
    (entry later : Subscription × Nat × Line) : Prop :=
  ∃ before between after, entries = before ++ entry :: (between ++ later :: after) ∧
    (∀ earlier ∈ before, earlier.1 ≠ entry.1) ∧
    ∀ earlier ∈ before ++ entry :: between, earlier.1 ≠ later.1

theorem FirstBefore.cons {entry later first : Subscription × Nat × Line}
    (h : FirstBefore entries entry later) (hentry : first.1 ≠ entry.1)
    (hlater : first.1 ≠ later.1) : FirstBefore (first :: entries) entry later := by
  obtain ⟨before, between, after, rfl, hbefore, hbetween⟩ := h
  refine ⟨first :: before, between, after, rfl, ?_, ?_⟩
  · rw [List.forall_mem_cons]
    exact ⟨hentry, hbefore⟩
  · rw [List.cons_append, List.forall_mem_cons]
    exact ⟨hlater, hbetween⟩

/-- First occurrences are kept in the order in which they stand. -/
theorem pairwise_firstOfEach : (firstOfEach known entries).Pairwise (FirstBefore entries) := by
  induction entries generalizing known with
  | nil => exact .nil
  | cons first rest ih =>
      have hnew : ∀ {known : List Subscription}, first.1 ∈ known →
          ∀ entry ∈ firstOfEach known rest, first.1 ≠ entry.1 := by
        intro known hknown entry hentry hsame
        exact (mem_firstOfEach_iff.mp hentry).1 (hsame ▸ hknown)
      rw [firstOfEach]
      split
      · next hknown =>
          rw [List.contains_iff_mem] at hknown
          exact ih.imp_of_mem fun hentry hlater h =>
            h.cons (hnew hknown _ hentry) (hnew hknown _ hlater)
      · refine List.pairwise_cons.mpr ⟨?_, ih.imp_of_mem fun hentry hlater h =>
          h.cons (hnew List.mem_cons_self _ hentry) (hnew List.mem_cons_self _ hlater)⟩
        intro later hlater
        obtain ⟨-, between, after, rfl, hbetween⟩ := mem_firstOfEach_iff.mp hlater
        refine ⟨[], between, after, rfl, List.forall_mem_nil _, ?_⟩
        rw [List.nil_append, List.forall_mem_cons]
        exact ⟨hnew List.mem_cons_self later hlater, hbetween⟩

/-- No subscription is lost by keeping first occurrences. -/
theorem mem_map_firstOfEach_iff {subscription : Subscription} :
    subscription ∈ (firstOfEach known entries).map Prod.fst ↔
      subscription ∉ known ∧ subscription ∈ entries.map Prod.fst := by
  induction entries generalizing known with
  | nil => simp [firstOfEach]
  | cons first rest ih =>
      rw [firstOfEach, List.map_cons, List.mem_cons]
      by_cases hknown : known.contains first.1 = true
      · rw [if_pos hknown, ih]
        rw [List.contains_iff_mem] at hknown
        refine and_congr_right fun hnew => ?_
        rw [or_iff_right]
        rintro rfl
        exact hnew hknown
      · rw [if_neg hknown, List.map_cons, List.mem_cons, ih, List.mem_cons, not_or]
        rw [List.contains_iff_mem] at hknown
        by_cases hsame : subscription = first.1
        · subst hsame
          simp [hknown]
        · simp [hsame]

theorem mem_map_made_iff {lines : List (Nat × Line)} {subscription : Subscription} :
    subscription ∈ (made lines).map Prod.fst ↔
      ∃ entry ∈ lines, subscription ∈ madeIn entry.2 := by
  simp [made]

/-! ## What a subscription looks like -/

/-- The target starts with an ASCII letter or an underscore and goes on with word characters and
dots. The signal is not empty and has no quotation mark in it. -/
structure WellSpelled (subscription : Subscription) : Prop where
  start : ∃ first tail, subscription.target = first :: tail ∧
    (first.isAlpha = true ∨ first = '_')
  parts : ∀ c ∈ subscription.target, isWord c = true ∨ c = '.'
  named : subscription.signal ≠ []
  unquoted : ∀ c ∈ subscription.signal, isQuote c = false

theorem StartsWith.wellSpelled {method : String} {text rest : List Char} {found : Subscription}
    (h : StartsWith method text found rest) : found.WellSpelled := by
  obtain ⟨first, tail, gap, opening, closing, htarget, hfirst, htail, -, -, -, hne, hname, -⟩ := h
  refine ⟨⟨first, tail, htarget, by simpa [isTargetStart] using hfirst⟩, ?_, hne, hname⟩
  have hparts : ∀ c ∈ found.target, isTargetPart c = true := by
    rw [htarget, List.forall_mem_cons]
    exact ⟨isTargetPart_of_isTargetStart hfirst, htail⟩
  intro c hc
  simpa [isTargetPart] using hparts c hc

theorem StartsWith.startsCall {method : String} {text rest : List Char} {found : Subscription}
    (h : StartsWith method text found rest) :
    found.target ++ method.toList ++ ['('] <+: text := by
  obtain ⟨first, tail, gap, opening, closing, -, -, -, -, -, -, -, -, rfl⟩ := h
  exact ⟨gap ++ opening :: found.signal ++ closing :: rest, by simp⟩

theorem isTargetPart_connect : ∀ c ∈ ".connect".toList, isTargetPart c = true :=
  List.all_eq_true.mp (by decide +kernel)

theorem isTargetPart_disconnect : ∀ c ∈ ".disconnect".toList, isTargetPart c = true :=
  List.all_eq_true.mp (by decide +kernel)

theorem wellSpelled_of_mem_madeIn {line : Line} {found : Subscription} (h : found ∈ madeIn line) :
    found.WellSpelled ∧ found.target ++ ".connect(".toList <:+: line := by
  have hmatches := (leftmostMatches_iff isTargetPart_connect).mpr (rfl : madeIn line = _)
  obtain ⟨before, after, rest, rfl, hstart⟩ := hmatches.exists_startsWith found h
  refine ⟨hstart.wellSpelled, ?_⟩
  have hcall := hstart.startsCall
  rw [List.append_assoc] at hcall
  exact hcall.isInfix.trans (List.suffix_append before after).isInfix

/-! ## Reports -/

/-- The lines of a script that are no comments. -/
def spokenLines (text : String) : List (Nat × Line) :=
  (numbered 1 (linesOf text)).filter fun entry => !entry.2.isComment

/-- The dangling subscriptions of a script, each with the line that first makes it. -/
def dangling (text : String) : List (Subscription × Nat × Line) :=
  (firstOfEach [] (made (spokenLines text))).filter fun entry =>
    !((spokenLines text).flatMap fun line => cancelledIn line.2).contains entry.1

theorem mem_dangling_iff {text : String} {entry : Subscription × Nat × Line} :
    entry ∈ dangling text ↔
      entry ∈ firstOfEach [] (made (spokenLines text)) ∧
        ∀ line ∈ spokenLines text, entry.1 ∉ cancelledIn line.2 := by
  simp [dangling]

/-- A subscription dangles if a line makes it and none cancels it. -/
theorem mem_map_dangling_iff {text : String} {subscription : Subscription} :
    subscription ∈ (dangling text).map Prod.fst ↔
      (∃ line ∈ spokenLines text, subscription ∈ madeIn line.2) ∧
        ∀ line ∈ spokenLines text, subscription ∉ cancelledIn line.2 := by
  have hmade : subscription ∈ (firstOfEach [] (made (spokenLines text))).map Prod.fst ↔
      ∃ line ∈ spokenLines text, subscription ∈ madeIn line.2 := by
    rw [mem_map_firstOfEach_iff, mem_map_made_iff]
    simp
  rw [← hmade, List.mem_map, List.mem_map]
  constructor
  · rintro ⟨entry, hentry, rfl⟩
    obtain ⟨hfirst, hcancelled⟩ := mem_dangling_iff.mp hentry
    exact ⟨⟨entry, hfirst, rfl⟩, hcancelled⟩
  · rintro ⟨⟨entry, hfirst, rfl⟩, hcancelled⟩
    exact ⟨entry, mem_dangling_iff.mpr ⟨hfirst, hcancelled⟩, rfl⟩

theorem dangling_sublist (text : String) : (dangling text).Sublist (made (spokenLines text)) :=
  List.filter_sublist.trans (firstOfEach_sublist [] (made (spokenLines text)))

/-- **Exactly the dangling subscriptions are reported.** The subscriptions that a line makes or
cancels are what a reader finds in it from left to right. Those that some line makes and no line
cancels, comments apart, are reported, each once, on the line where it is first made, and in the
order in which they are first made, from line to line and from left to right in a line. -/
theorem subscription_check_exact (path text : String) :
    (∀ line founds, (LeftmostMatches ".connect" line founds ↔ founds = madeIn line) ∧
      (LeftmostMatches ".disconnect" line founds ↔ founds = cancelledIn line)) ∧
    ∃ reported : List (Subscription × Nat × Line),
      rule.check path text = (reported.map fun entry =>
        rule.finding path
          { line := entry.2.1
            message := "Signal '" ++ String.ofList entry.1.signal ++ "' connected on '" ++
              String.ofList entry.1.target ++ "' but never disconnected. " ++
              "Consider disconnecting in _exit_tree() to prevent memory leaks"
            snippet := entry.2.2.snippet }) ∧
      (∀ subscription, subscription ∈ reported.map Prod.fst ↔
        (∃ line ∈ spokenLines text, subscription ∈ madeIn line.2) ∧
          ∀ line ∈ spokenLines text, subscription ∉ cancelledIn line.2) ∧
      (reported.map Prod.fst).Nodup ∧
      reported.Sublist (made (spokenLines text)) ∧
      reported.Pairwise (FirstBefore (made (spokenLines text))) ∧
      ∀ entry ∈ reported,
        (∃ before after, made (spokenLines text) = before ++ entry :: after ∧
          ∀ earlier ∈ before, earlier.1 ≠ entry.1) ∧
        entry.1.WellSpelled ∧ entry.1.target ++ ".connect(".toList <:+: entry.2.2 := by
  constructor
  · intro line founds
    exact ⟨leftmostMatches_iff isTargetPart_connect, leftmostMatches_iff isTargetPart_disconnect⟩
  · refine ⟨dangling text, List.map_map, fun _ => mem_map_dangling_iff,
      nodup_firstOfEach.sublist (List.filter_sublist.map _), dangling_sublist text,
      pairwise_firstOfEach.sublist List.filter_sublist, ?_⟩
    intro entry hentry
    have hfirst := (mem_firstOfEach_iff.mp (mem_dangling_iff.mp hentry).1).2
    obtain ⟨line, -, hmade⟩ := List.mem_flatMap.mp ((dangling_sublist text).subset hentry)
    obtain ⟨found, hfound, rfl⟩ := List.mem_map.mp hmade
    exact ⟨hfirst, wellSpelled_of_mem_madeIn hfound⟩

/-- Making a subscription once more does not move it. -/
example : (dangling "a.connect(\"s\")b.connect(\"t\")a.connect(\"s\")").map
    (fun entry => (String.ofList entry.1.target, entry.2.1)) = [("a", 1), ("b", 1)] := by
  decide +kernel

end Subscription

end ScriptLint
