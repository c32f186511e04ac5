import Mathlib.Data.List.Nodup
import ScriptLint.Proofs.Rule.Simulation

/-!
# Well-formed findings

Twelve rules scan a script, each in its own way: line by line, with a look ahead, with a state that
is carried along, or in one pass that gathers and a second that reports. Whatever the way, every
finding names its rule, lies on a line of the script and quotes that line. The findings of a rule
come in the order of their lines, and only the rule on subscriptions has more than one on a line.
-/

namespace ScriptLint

/-! ## Lines and numbers -/

theorem length_cutFrom {α : Type} [DecidableEq α] (mark : α) (current sequence : List α) :
    (cutFrom mark current sequence).length = sequence.count mark + 1 := by
  induction sequence generalizing current with
  | nil => simp [cutFrom]
  | cons c rest ih =>
      by_cases h : c = mark
      · simp [cutFrom, h, ih]
      · simp [cutFrom, h, ih]

theorem length_linesOf (text : String) :
    (linesOf text).length = text.toList.count '\n' + 1 :=
  length_cutFrom '\n' [] text.toList

theorem getElem?_of_mem_numbered {first number : Nat} {line : Line} {lines : List Line}
    (h : (number, line) ∈ numbered first lines) : lines[number - first]? = some line := by
  induction lines generalizing first with
  | nil => simp [numbered] at h
  | cons head rest ih =>
      rw [numbered, List.mem_cons] at h
      rcases h with heq | hrest
      · cases heq
        simp
      · have hbounds := mem_numbered_bounds hrest
        have hindex : number - first = (number - (first + 1)) + 1 := by
          simp only at hbounds
          omega
        rw [hindex, List.getElem?_cons_succ]
        exact ih hrest

/-- There is one line of each number. -/
theorem eq_of_mem_numbered {first number : Nat} {line line' : Line} {lines : List Line}
    (h : (number, line) ∈ numbered first lines) (h' : (number, line') ∈ numbered first lines) :
    line = line' :=
  Option.some.inj ((getElem?_of_mem_numbered h).symm.trans (getElem?_of_mem_numbered h'))

theorem numbered_increasing (first : Nat) (lines : List Line) :
    (numbered first lines).Pairwise fun a b => a.1 < b.1 := by
  induction lines generalizing first with
  | nil => exact .nil
  | cons line rest ih =>
      refine .cons ?_ (ih (first + 1))
      intro entry hentry
      exact (mem_numbered_bounds hentry).1

/-! ## Passing over lines and reporting them -/

/-- The hits go through the lines in their order: a line is passed over, or there is one hit on it
that quotes it. -/
inductive Reports (quote : Line → String) : List (Nat × Line) → List Hit → Prop where
  | nil : Reports quote [] []
  | pass {entry : Nat × Line} {entries : List (Nat × Line)} {hits : List Hit} :
      Reports quote entries hits → Reports quote (entry :: entries) hits
  | hit {entry : Nat × Line} {entries : List (Nat × Line)} {hits : List Hit} {hit : Hit}
      (number : hit.line = entry.1) (quoted : hit.snippet = quote entry.2) :
      Reports quote entries hits → Reports quote (entry :: entries) (hit :: hits)

namespace Reports

variable {quote : Line → String} {entries : List (Nat × Line)} {hits : List Hit}

theorem exists_entry (h : Reports quote entries hits) :
    ∀ hit ∈ hits, ∃ entry ∈ entries, hit.line = entry.1 ∧ hit.snippet = quote entry.2 := by
  induction h with
  | nil => simp
  | pass _ ih =>
      intro hit hhit
      obtain ⟨entry, hentry, hfrom⟩ := ih hit hhit
      exact ⟨entry, List.mem_cons_of_mem _ hentry, hfrom⟩
  | @hit entry _ _ first number quoted _ ih =>
      intro hit hhit
      rcases List.mem_cons.mp hhit with rfl | hhit
      · exact ⟨entry, List.mem_cons_self, number, quoted⟩
      · obtain ⟨entry, hentry, hfrom⟩ := ih hit hhit
        exact ⟨entry, List.mem_cons_of_mem _ hentry, hfrom⟩

/-- Hits on lines with increasing numbers have increasing numbers. -/
theorem increasing (h : Reports quote entries hits)
    (hentries : entries.Pairwise fun a b => a.1 < b.1) :
    hits.Pairwise fun a b => a.line < b.line := by
  induction h with
  | nil => exact .nil
  | pass _ ih => exact ih (List.pairwise_cons.mp hentries).2
  | @hit entry _ _ first number quoted hrest ih =>
      obtain ⟨hfirst, hlater⟩ := List.pairwise_cons.mp hentries
      refine .cons ?_ (ih hlater)
      intro later hmem
      obtain ⟨other, hother, hline, -⟩ := hrest.exists_entry later hmem
      rw [number, hline]
      exact hfirst other hother

/-- Picking lines and making a hit of each reports them. -/
theorem of_filter {make : Nat × Line → Hit}
    (hmake : ∀ entry, (make entry).line = entry.1 ∧ (make entry).snippet = quote entry.2)
    (test : Nat × Line → Bool) (entries : List (Nat × Line)) :
    Reports quote entries ((entries.filter test).map make) := by
  induction entries with
  | nil => exact .nil
  | cons entry rest ih =>
      rw [List.filter_cons]
      split
      · exact .hit (hmake entry).1 (hmake entry).2 ih
      · exact .pass ih

end Reports

/-- What is reported at a line is nothing, or one hit that quotes the line. -/
def Scanner.ReportsEach {σ : Type} (scanner : Scanner σ) (quote : Line → String) : Prop :=
  ∀ (state : σ) (entry : Nat × Line), scanner.hits state entry = [] ∨
    ∃ hit, scanner.hits state entry = [hit] ∧ hit.line = entry.1 ∧ hit.snippet = quote entry.2

/-- A scanner that reports each line at most once goes through the lines in their order. -/
theorem Scanner.ReportsEach.run {σ : Type} {scanner : Scanner σ} {quote : Line → String}
    (h : scanner.ReportsEach quote) (state : σ) (entries : List (Nat × Line)) :
    Reports quote entries (scanner.run state entries) := by
  induction entries generalizing state with
  | nil => exact .nil
  | cons entry rest ih =>
      rw [Scanner.run]
      rcases h state entry with hnone | ⟨hit, hone, hline, hsnippet⟩
      · rw [hnone]
        exact .pass (ih _)
      · rw [hone]
        exact .hit hline hsnippet (ih _)

theorem FrameLoop.scanner_reportsEach : scanner.ReportsEach Line.snippet := by
  intro state entry
  simp only [scanner]
  cases callbackAt state.1 entry.2 with
  | none => exact Or.inl rfl
  | some name =>
      dsimp only
      split
      · exact Or.inr ⟨hit name entry, rfl, rfl, rfl⟩
      · exact Or.inl rfl

theorem Concatenation.scanner_reportsEach : scanner.ReportsEach Line.snippet := by
  intro loops entry
  simp only [scanner]
  split
  · exact Or.inr ⟨hit entry, rfl, rfl, rfl⟩
  · exact Or.inl rfl

theorem NodeLookup.scanner_reportsEach : scanner.ReportsEach Line.snippet := by
  intro callback entry
  simp only [scanner]
  cases callbackAt callback entry.2 with
  | none => exact Or.inl rfl
  | some name =>
      dsimp only
      split
      · exact Or.inr ⟨hit name entry, rfl, rfl, rfl⟩
      · exact Or.inl rfl

/-! ## Hits on the lines of a script -/

/-- Every hit quotes a line of the script that passes `mayReport`, and the numbers of the lines are
in the given order. -/
structure WellFormedHits (quote : Line → String) (mayReport : Line → Bool)
    (order : Nat → Nat → Prop) (lines : List Line) (hits : List Hit) : Prop where
  onLine : ∀ hit ∈ hits, ∃ line, (hit.line, line) ∈ numbered 1 lines ∧
    mayReport line = true ∧ hit.snippet = quote line
  ordered : hits.Pairwise fun a b => order a.line b.line

def isNoComment (line : Line) : Bool :=
  !line.isComment

theorem isNoComment_of_isCode {line : Line} (h : line.isCode = true) : isNoComment line = true := by
  rw [isNoComment, ((Line.isCode_iff line).mp h).2]
  rfl

/-- Reporting some of the lines, those that pass a test, makes well-formed hits. -/
theorem Reports.wellFormedHits {quote : Line → String} {lines : List Line} {hits : List Hit}
    {test : Line → Bool} (h : Reports quote ((numbered 1 lines).filter fun e => test e.2) hits) :
    WellFormedHits quote test (· < ·) lines hits where
  onLine := by
    intro hit hhit
    obtain ⟨⟨number, line⟩, hentry, hline, hsnippet⟩ := h.exists_entry hit hhit
    obtain ⟨hmem, htest⟩ := List.mem_filter.mp hentry
    simp only at hline hsnippet htest
    exact ⟨line, hline ▸ hmem, htest, hsnippet⟩
  ordered := h.increasing ((numbered_increasing 1 lines).filter _)

theorem WellFormedHits.mono {quote : Line → String} {mayReport mayReport' : Line → Bool}
    {order order' : Nat → Nat → Prop} {lines : List Line} {hits : List Hit}
    (h : WellFormedHits quote mayReport order lines hits)
    (hreport : ∀ line, mayReport line = true → mayReport' line = true)
    (horder : ∀ {a b}, order a b → order' a b) :
    WellFormedHits quote mayReport' order' lines hits where
  onLine := by
    intro hit hhit
    obtain ⟨line, hmem, hmay, hsnippet⟩ := h.onLine hit hhit
    exact ⟨line, hmem, hreport line hmay, hsnippet⟩
  ordered := h.ordered.imp horder

/-- Picking lines among those that are no comments makes well-formed hits. -/
theorem wellFormedHits_of_filter {quote : Line → String} {make : Nat × Line → Hit}
    (hmake : ∀ entry, (make entry).line = entry.1 ∧ (make entry).snippet = quote entry.2)
    (test : Line → Bool) (lines : List Line) :
    WellFormedHits quote isNoComment (· < ·) lines
      (((numbered 1 lines).filter fun entry => !entry.2.isComment && test entry.2).map make) := by
  have hreports := Reports.of_filter hmake (fun entry => test entry.2)
    ((numbered 1 lines).filter fun entry => isNoComment entry.2)
  rw [List.filter_filter] at hreports
  simp only [Bool.and_comm (test _)] at hreports
  exact hreports.wellFormedHits

theorem LineLength.wellFormedHits (limit : Nat) (lines : List Line) :
    WellFormedHits quote isNoComment (· < ·) lines (scan limit lines) :=
  wellFormedHits_of_filter (fun _ => ⟨rfl, rfl⟩) (fun line => decide (limit < line.length)) lines

theorem scanEachLine_wellFormedHits (test : Line → Bool) (message : String) (lines : List Line) :
    WellFormedHits Line.snippet isNoComment (· < ·) lines (scanEachLine test message lines) :=
  wellFormedHits_of_filter (fun _ => ⟨rfl, rfl⟩) test lines

/-- A scanner over the code lines of a script. -/
theorem Scanner.ReportsEach.wellFormedHits {σ : Type} {scanner : Scanner σ}
    {quote : Line → String} (h : scanner.ReportsEach quote) (start : σ) (lines : List Line) :
    WellFormedHits quote isNoComment (· < ·) lines (scanner.run start (codeLines lines)) := by
  have hcode : WellFormedHits quote Line.isCode (· < ·) lines
      (scanner.run start (codeLines lines)) := (h.run start (codeLines lines)).wellFormedHits
  exact hcode.mono (fun _ => isNoComment_of_isCode) id

namespace Documentation

theorem scanFrom_reports (declared : Line → Option (List Char)) (kind : String) (first : Nat)
    (hdeclared : ∀ line, (declared line).isSome = true → line.isCode = true)
    (lines : List Line) :
    Reports (fun line => String.ofList line.trim)
      ((numbered first lines).filter fun entry => entry.2.isCode)
      (scanFrom declared kind first lines) := by
  induction lines generalizing first with
  | nil => exact .nil
  | cons line rest ih =>
      have hrest := ih (first + 1)
      rw [scanFrom, numbered, List.filter_cons]
      cases hname : declared line with
      | none =>
          dsimp only
          split
          · exact .pass hrest
          · exact hrest
      | some name =>
          have hcode : line.isCode = true := hdeclared line (by rw [hname]; rfl)
          rw [if_pos hcode]
          dsimp only
          split
          · exact .pass hrest
          · exact .hit rfl rfl hrest

theorem wellFormedHits {declared : Line → Option (List Char)} (h : ReadsCode declared)
    (kind : String) (lines : List Line) :
    WellFormedHits (fun line => String.ofList line.trim) isNoComment (· < ·) lines
      (scanFrom declared kind 1 lines) := by
  have hcode : WellFormedHits (fun line => String.ofList line.trim) Line.isCode (· < ·) lines
      (scanFrom declared kind 1 lines) :=
    (scanFrom_reports declared kind 1 (fun _ => h.isCode) lines).wellFormedHits
  exact hcode.mono (fun _ => isNoComment_of_isCode) id

end Documentation

namespace Indentation

theorem mem_of_firstMixed {tabs spaces : Bool} {entries : List (Nat × Line)}
    {entry : Nat × Line} (h : firstMixed tabs spaces entries = some entry) : entry ∈ entries := by
  induction entries generalizing tabs spaces with
  | nil => simp [firstMixed] at h
  | cons head rest ih =>
      simp only [firstMixed] at h
      split at h
      · cases h
        exact List.mem_cons_self
      · exact List.mem_cons_of_mem _ (ih h)

theorem length_scan (lines : List Line) : (scan lines).length ≤ 1 := by
  unfold scan
  split <;> simp

theorem wellFormedHits (lines : List Line) :
    WellFormedHits (fun line => String.ofList (line.take quoteWidth)) (fun _ => true) (· < ·)
      lines (scan lines) := by
  unfold scan
  split
  · exact ⟨by simp, .nil⟩
  · rename_i number line hfirst
    refine ⟨?_, List.pairwise_singleton _ _⟩
    intro hit hhit
    rw [List.mem_singleton] at hhit
    subst hhit
    exact ⟨line, mem_of_firstMixed hfirst, rfl, rfl⟩

end Indentation

namespace Subscription

theorem firstOfEach_sublist (known : List Subscription)
    (entries : List (Subscription × Nat × Line)) : (firstOfEach known entries).Sublist entries := by
  induction entries generalizing known with
  | nil => exact .slnil
  | cons entry rest ih =>
      rw [firstOfEach]
      split
      · exact (ih known).cons entry
      · exact (ih _).cons_cons entry

/-- Subscriptions are gathered line by line, so their numbers never go back. -/
theorem made_ordered {entries : List (Nat × Line)}
    (h : entries.Pairwise fun a b => a.1 < b.1) :
    (made entries).Pairwise fun a b => a.2.1 ≤ b.2.1 := by
  unfold made
  rw [List.pairwise_flatMap]
  constructor
  · intro entry _
    exact List.pairwise_map.mpr (List.pairwise_of_forall fun _ _ => Nat.le_refl _)
  · refine h.imp ?_
    intro a b hab x hx y hy
    obtain ⟨-, -, rfl⟩ := List.mem_map.mp hx
    obtain ⟨-, -, rfl⟩ := List.mem_map.mp hy
    exact Nat.le_of_lt hab

theorem wellFormedHits (lines : List Line) :
    WellFormedHits Line.snippet isNoComment (· ≤ ·) lines (scan lines) := by
  let spoken := (numbered 1 lines).filter fun entry => isNoComment entry.2
  let cancelled := spoken.flatMap fun entry => cancelledIn entry.2
  let reported := (firstOfEach [] (made spoken)).filter fun entry => !cancelled.contains entry.1
  have hscan : scan lines = reported.map hit := rfl
  have hsublist : reported.Sublist (made spoken) :=
    List.filter_sublist.trans (firstOfEach_sublist [] (made spoken))
  rw [hscan]
  constructor
  · intro found hfound
    obtain ⟨⟨subscription, number, line⟩, hmem, rfl⟩ := List.mem_map.mp hfound
    obtain ⟨entry, hentry, hmade⟩ := List.mem_flatMap.mp (hsublist.subset hmem)
    obtain ⟨_, _, hsame⟩ := List.mem_map.mp hmade
    cases hsame
    obtain ⟨hnumbered, hcomment⟩ := List.mem_filter.mp hentry
    exact ⟨line, hnumbered, hcomment, rfl⟩
  · have hspoken : spoken.Pairwise fun a b => a.1 < b.1 := (numbered_increasing 1 lines).filter _
    exact List.pairwise_map.mpr ((made_ordered hspoken).sublist hsublist)

end Subscription

/-! ## All rules -/

/-- What a rule quotes of a line, by the id of the rule: the line as it is, up to 50 characters and
an ellipsis, or up to 30 characters; or the trimmed line, whole or up to 50 characters. -/
def quotation (ruleId : String) (line : Line) : String :=
  if ruleId = "R001" then
    if line.length ≤ 50 then String.ofList line else String.ofList (line.take 50) ++ "..."
  else if ruleId = "R002" ∨ ruleId = "R003" then String.ofList line.trim
  else if ruleId = "R004" then String.ofList (line.take (min 30 line.length))
  else String.ofList (line.trim.take (min 50 line.trim.length))

theorem LineLength.quote_eq : quote = quotation "R001" := by
  funext line
  rw [quotation, if_pos rfl, quote]
  by_cases h : line.length ≤ 50
  · have hshort : ¬ line.length > Line.snippetWidth := Nat.not_lt.mpr h
    rw [if_pos h, if_neg hshort]
  · have hlong : line.length > Line.snippetWidth := Nat.not_le.mp h
    rw [if_neg h, if_pos hlong]
    rfl

theorem Indentation.quote_eq :
    (fun line : Line => String.ofList (line.take quoteWidth)) = quotation "R004" := by
  funext line
  have htake : line.take quoteWidth = line.take (min 30 line.length) :=
    List.take_eq_take_iff.mpr (by simp [quoteWidth])
  rw [htake]
  rfl

theorem snippet_eq (ruleId : String) (h : ruleId ∉ ["R001", "R002", "R003", "R004"]) :
    Line.snippet = quotation ruleId := by
  funext line
  have htake : line.trim.take Line.snippetWidth =
      line.trim.take (min 50 line.trim.length) :=
    List.take_eq_take_iff.mpr (by simp [Line.snippetWidth])
  simp only [List.mem_cons, List.not_mem_nil, or_false, not_or] at h
  obtain ⟨hlength, hclass, hfunction, hindentation⟩ := h
  rw [quotation, if_neg hlength, if_neg (by simp [hclass, hfunction]), if_neg hindentation,
    Line.snippet, htake]

/-- The lines that a rule may report: those that are no comments, and all lines for the rule on
indentation. -/
def mayReport (ruleId : String) (line : Line) : Bool :=
  ruleId == "R004" || isNoComment line

/-- The order of the lines that a rule reports: strict, except for the rule on subscriptions. -/
def reportOrder (ruleId : String) (a b : Nat) : Prop :=
  if ruleId = "P003" then a ≤ b else a < b

theorem WellFormedHits.ofRule {ruleId : String} {quote : Line → String} {lines : List Line}
    {hits : List Hit} (h : WellFormedHits quote isNoComment (· < ·) lines hits)
    (hquote : quote = quotation ruleId) (hid : ruleId ≠ "P003") :
    WellFormedHits (quotation ruleId) (mayReport ruleId) (reportOrder ruleId) lines hits := by
  rw [← hquote]
  refine h.mono ?_ ?_
  · intro line hline
    rw [mayReport, hline, Bool.or_true]
  · intro a b hab
    rw [reportOrder, if_neg hid]
    exact hab

theorem wellFormedHits_of_mem_catalog {limit : Nat} {rule : Rule} (hrule : rule ∈ catalog limit)
    (lines : List Line) :
    WellFormedHits (quotation rule.id) (mayReport rule.id) (reportOrder rule.id) lines
      (rule.scan lines) := by
  simp only [catalog, List.mem_cons, List.not_mem_nil, or_false] at hrule
  rcases hrule with rfl | rfl | rfl | rfl | rfl | rfl | rfl | rfl | rfl | rfl | rfl | rfl
  · have hid : "R001" ≠ "P003" := by decide
    exact (LineLength.wellFormedHits limit lines).ofRule LineLength.quote_eq hid
  · exact (Documentation.wellFormedHits Documentation.readsCode_class "Class" lines).ofRule rfl
      (by decide)
  · exact (Documentation.wellFormedHits Documentation.readsCode_publicFunction "Function"
      lines).ofRule rfl (by decide)
  · -- the one rule that reports comments
    rw [show quotation Indentation.rule.id = _ from Indentation.quote_eq.symm]
    exact (Indentation.wellFormedHits lines).mono (fun _ _ => rfl) id
  · exact (scanEachLine_wellFormedHits _ _ lines).ofRule (snippet_eq "S001" (by decide))
      (by decide)
  · exact (scanEachLine_wellFormedHits _ _ lines).ofRule (snippet_eq "S002" (by decide))
      (by decide)
  · exact (scanEachLine_wellFormedHits _ _ lines).ofRule (snippet_eq "S003" (by decide))
      (by decide)
  · exact (scanEachLine_wellFormedHits
      (fun line => Randomness.callsRandom line && Randomness.mentionsSecret line) _ lines).ofRule
      (snippet_eq "S004" (by decide)) (by decide)
  · rw [FrameLoop.scan_eq_run]
    exact (FrameLoop.scanner_reportsEach.wellFormedHits _ lines).ofRule
      (snippet_eq "P001" (by decide)) (by decide)
  · rw [Concatenation.scan_eq_run]
    exact (Concatenation.scanner_reportsEach.wellFormedHits _ lines).ofRule
      (snippet_eq "P002" (by decide)) (by decide)
  · -- the one rule that may report a line more than once
    rw [show quotation Subscription.rule.id = _ from (snippet_eq "P003" (by decide)).symm]
    exact (Subscription.wellFormedHits lines).mono (fun _ => id) id
  · rw [NodeLookup.scan_eq_run]
    exact (NodeLookup.scanner_reportsEach.wellFormedHits _ lines).ofRule
      (snippet_eq "P004" (by decide)) (by decide)

/-- The ids of the twelve rules. -/
theorem catalog_ids (limit : Nat) :
    (catalog limit).map Rule.id =
      ["R001", "R002", "R003", "R004", "S001", "S002", "S003", "S004", "P001", "P002", "P003",
       "P004"] := rfl

/-- The id of a rule tells which one it is. -/
theorem eq_of_id_eq {limit : Nat} {rule rule' : Rule} (hrule : rule ∈ catalog limit)
    (hrule' : rule' ∈ catalog limit) (h : rule.id = rule'.id) : rule = rule' := by
  have hnodup : ((catalog limit).map Rule.id).Nodup := by
    rw [catalog_ids]
    decide
  exact List.inj_on_of_nodup_map hnodup hrule hrule' h

theorem mayReport_of_ne {ruleId : String} (h : ruleId ≠ "R004") {line : Line}
    (hline : mayReport ruleId line = true) : line.isComment = false := by
  rw [mayReport, beq_eq_false_iff_ne.mpr h, Bool.false_or, isNoComment, Bool.not_eq_true'] at hline
  exact hline

theorem le_of_reportOrder {ruleId : String} {a b : Nat} (h : reportOrder ruleId a b) : a ≤ b := by
  unfold reportOrder at h
  split at h
  · exact h
  · exact Nat.le_of_lt h

/-- **Findings are well formed.** Every finding bears what identifies its rule and names the file;
it lies on a line of the script, which is no comment unless the rule is the one on indentation, and
it quotes this line. The findings of a rule go down the script, at most one on a line except for
subscriptions, and there is at most one on indentation. -/
theorem check_wellFormed (limit : Nat) (path text : String) :
    (catalog limit).map Rule.id =
        ["R001", "R002", "R003", "R004", "S001", "S002", "S003", "S004", "P001", "P002", "P003",
         "P004"] ∧
      ∀ rule ∈ catalog limit,
        (∀ finding ∈ rule.check path text,
          (finding.ruleId = rule.id ∧ finding.ruleName = rule.name ∧
            finding.severity = rule.severity ∧ finding.category = rule.category) ∧
          finding.file = path ∧ finding.column = none ∧
          1 ≤ finding.line ∧ finding.line ≤ 1 + text.toList.count '\n' ∧
          ∃ line, (linesOf text)[finding.line - 1]? = some line ∧
            (rule.id ≠ "R004" → line.isComment = false) ∧
            finding.snippet = some (quotation rule.id line)) ∧
        ((rule.check path text).Pairwise fun a b => a.line ≤ b.line) ∧
        (rule.id ≠ "P003" → (rule.check path text).Pairwise fun a b => a.line < b.line) ∧
        (rule.id = "R004" → (rule.check path text).length ≤ 1) := by
  refine ⟨catalog_ids limit, ?_⟩
  intro rule hrule
  have hhits := wellFormedHits_of_mem_catalog hrule (linesOf text)
  refine ⟨?_, ?_, ?_, ?_⟩
  · intro finding hfinding
    obtain ⟨hit, hhit, rfl⟩ := List.mem_map.mp hfinding
    obtain ⟨line, hline, hmay, hsnippet⟩ := hhits.onLine hit hhit
    have hbounds := mem_numbered_bounds hline
    rw [length_linesOf] at hbounds
    refine ⟨⟨rfl, rfl, rfl, rfl⟩, rfl, rfl, hbounds.1, ?_, line, ?_, ?_, ?_⟩
    · show hit.line ≤ _
      have hlast := hbounds.2
      dsimp only at hlast
      omega
    · exact getElem?_of_mem_numbered hline
    · exact fun hid => mayReport_of_ne hid hmay
    · exact congrArg some hsnippet
  · exact List.pairwise_map.mpr (hhits.ordered.imp le_of_reportOrder)
  · intro hid
    refine List.pairwise_map.mpr (hhits.ordered.imp ?_)
    intro a b hab
    rwa [reportOrder, if_neg hid] at hab
  · intro hid
    have hindentation : Indentation.rule ∈ catalog limit := by simp [catalog]
    rw [eq_of_id_eq hrule hindentation hid, Rule.check, List.length_map]
    exact Indentation.length_scan (linesOf text)

/-- Two subscriptions on one line are two findings, which quote the line up to its fiftieth
character, whatever the size of the characters. -/
theorem check_wellFormed_twoOnLine :
    Subscription.rule ∈ catalog 100 ∧
      ((Subscription.rule.check "a.gd"
          "# é\n\ta.connect(\"é\", f); b.connect(\"ü\", g)  # ééé ééé ééé ééé €").Pairwise
        fun a b => a.line ≤ b.line) ∧
      (Subscription.rule.check "a.gd"
          "# é\n\ta.connect(\"é\", f); b.connect(\"ü\", g)  # ééé ééé ééé ééé €").map
        (fun finding => (finding.line, finding.snippet)) =
          [(2, some "a.connect(\"é\", f); b.connect(\"ü\", g)  # ééé ééé éé"),
           (2, some "a.connect(\"é\", f); b.connect(\"ü\", g)  # ééé ééé éé")] := by
  have hrule : Subscription.rule ∈ catalog 100 := by simp [catalog]
  have hcheck := (check_wellFormed 100 "a.gd"
    "# é\n\ta.connect(\"é\", f); b.connect(\"ü\", g)  # ééé ééé ééé ééé €").2 _ hrule
  exact ⟨hrule, hcheck.2.1, by decide +kernel⟩

end ScriptLint
