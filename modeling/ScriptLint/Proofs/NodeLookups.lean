import ScriptLint.Proofs.LoopBodies

/-!
# Node lookups in frame callbacks

The rule on node lookups reports them wherever they stand in a frame callback, and the rule on
expensive work reports them in loops. Each of the two goes down the code lines by itself and carries
the callback along. What they carry is the same at every line, the last function declared if that is
a callback, so a lookup in a loop is reported by both, and both name the callback alike.
-/

namespace ScriptLint

namespace NodeLookup

/-- The line calls the lookup by its name; or it has a dollar sign with a word character, a double
quotation mark or a percent sign right after it, and its lowercase form has no event in it. -/
def LooksUpNode (line : Line) : Prop :=
  "get_node(".toList <:+: line ∨
    (∃ before c after, (isWord c = true ∨ c = '\x22' ∨ c = '%') ∧
      line = before ++ '$' :: c :: after) ∧
    ¬ "event".toList <:+: lowered line

/-! ## The test -/

theorem isShorthandStart_iff {c : Char} :
    isShorthandStart c = true ↔ isWord c = true ∨ c = '\x22' ∨ c = '%' := by
  simp [isShorthandStart, or_assoc]

theorem occursIn_shorthand_iff {line : Line} :
    Pattern.occursIn [.exactly "$", .one isShorthandStart] line = true ↔
      ∃ before c after, (isWord c = true ∨ c = '\x22' ∨ c = '%') ∧
        line = before ++ '$' :: c :: after := by
  have hsteady : Pattern.IsSteady [.exactly "$", .one isShorthandStart] :=
    ⟨rfl, hasNoBlank_isShorthandStart, trivial⟩
  rw [Pattern.occursIn_iff hsteady]
  constructor
  · rintro ⟨before, _, after, ⟨_, _, rfl, ⟨_, _, ⟨c, hc, rfl⟩, rfl, rfl⟩, rfl⟩, rfl⟩
    exact ⟨before, c, after, isShorthandStart_iff.mp hc, by simp⟩
  · rintro ⟨before, c, after, hc, rfl⟩
    refine ⟨before, ['$', c], after, ?_, by simp⟩
    exact ⟨['$'], [c], rfl, ⟨[c], [], ⟨c, isShorthandStart_iff.mpr hc, rfl⟩, rfl, rfl⟩, rfl⟩

/-- **The test recognises exactly the lines that look a node up.** -/
theorem looksUpNode_iff {line : Line} : looksUpNode line = true ↔ LooksUpNode line := by
  rw [looksUpNode, Bool.or_eq_true, Bool.and_eq_true, Bool.not_eq_true', ← Bool.not_eq_true,
    containsText_iff (by decide), containsText_iff (by decide), occursIn_shorthand_iff]
  rfl

/-! ## The scan -/

theorem mem_hits_iff {callback : Option (List Char)} {entry : Nat × Line} {found : Hit} :
    found ∈ scanner.hits callback entry ↔
      ∃ name, callbackAt callback entry.2 = some name ∧ looksUpNode entry.2 = true ∧
        found = hit name entry := by
  simp only [scanner]
  cases callbackAt callback entry.2 with
  | none => simp
  | some name =>
      dsimp only
      split
      · next h => simp [h]
      · next h => simp [h]

theorem stateAfter_eq (seen : List (Nat × Line)) :
    scanner.stateAfter none seen = callbackAfter seen := rfl

theorem mem_scan_iff {lines : List Line} {found : Hit} :
    found ∈ rule.scan lines ↔
      ∃ before entry after name, codeLines lines = before ++ entry :: after ∧
        callbackAfter (before ++ [entry]) = some name ∧ LooksUpNode entry.2 ∧
        found = hit name entry := by
  simp only [scan_eq_run, Scanner.mem_run_iff, mem_hits_iff, stateAfter_eq, looksUpNode_iff,
    ← callbackAfter_concat]
  constructor
  · rintro ⟨before, entry, after, hcode, name, hname, hlookup, rfl⟩
    exact ⟨before, entry, after, name, hcode, hname, hlookup, rfl⟩
  · rintro ⟨before, entry, after, name, hcode, hname, hlookup, rfl⟩
    exact ⟨before, entry, after, hcode, name, hname, hlookup, rfl⟩

end NodeLookup

/-- Expensive work is reported under the callback that the scan for lookups carries too. -/
theorem FrameLoop.exists_of_mem_scan {lines : List Line} {found : Hit}
    (h : found ∈ FrameLoop.rule.scan lines) :
    ∃ before entry after name, codeLines lines = before ++ entry :: after ∧
      callbackAfter (before ++ [entry]) = some name ∧ found = hit name entry := by
  rw [scan_eq_run, Scanner.mem_run_iff] at h
  obtain ⟨before, entry, after, hcode, hhit⟩ := h
  obtain ⟨name, hname, -, -, rfl⟩ := mem_hits_iff.mp hhit
  rw [stateAfter_eq] at hname
  exact ⟨before, entry, after, name, hcode, (callbackAfter_concat before entry).trans hname, rfl⟩

/-- **Node lookups are reported exactly in frame callbacks.** A code line is reported if the last
function declared up to it is a callback and if it looks a node up; each such line once, in the
order of lines. If expensive work is reported on a line that looks a node up, then the lookup is
reported as well, and both messages name the same callback. -/
theorem nodeLookup_check_exact (path text : String) :
    (∀ finding, finding ∈ NodeLookup.rule.check path text ↔
      ∃ before entry after name,
        codeLines (linesOf text) = before ++ entry :: after ∧
        (LastDeclares (before ++ [entry]) name ∧ IsCallbackName name) ∧
        NodeLookup.LooksUpNode entry.2 ∧
        finding = NodeLookup.rule.finding path
          { line := entry.1
            message := "get_node() or $ called in " ++ String.ofList name ++
              "(). Cache the reference in _ready() for better performance"
            snippet := entry.2.snippet }) ∧
    ((NodeLookup.rule.check path text).Pairwise fun a b => a.line < b.line) ∧
    ∀ finding ∈ FrameLoop.rule.check path text, ∀ line,
      (finding.line, line) ∈ numbered 1 (linesOf text) → NodeLookup.LooksUpNode line →
        ∃ name, IsCallbackName name ∧
          finding.message = "Expensive operation in loop within " ++ String.ofList name ++
            "(). Cache results outside the loop" ∧
          ∃ other ∈ NodeLookup.rule.check path text, other.line = finding.line ∧
            other.message = "get_node() or $ called in " ++ String.ofList name ++
              "(). Cache the reference in _ready() for better performance" := by
  refine ⟨?_, ?_, ?_⟩
  · intro finding
    simp only [Rule.check, List.mem_map, NodeLookup.mem_scan_iff, callbackAfter_eq_some_iff,
      isFrameCallback_iff]
    constructor
    · rintro ⟨_, ⟨before, entry, after, name, hcode, hcallback, hlookup, rfl⟩, rfl⟩
      exact ⟨before, entry, after, name, hcode, hcallback, hlookup, rfl⟩
    · rintro ⟨before, entry, after, name, hcode, hcallback, hlookup, rfl⟩
      exact ⟨_, ⟨before, entry, after, name, hcode, hcallback, hlookup, rfl⟩, rfl⟩
  · rw [Rule.check, NodeLookup.scan_eq_run]
    exact List.pairwise_map.mpr
      (NodeLookup.scanner_reportsEach.wellFormedHits _ (linesOf text)).ordered
  · intro finding hfinding line hline hlookup
    obtain ⟨_, hfound, rfl⟩ := List.mem_map.mp hfinding
    obtain ⟨before, entry, after, name, hcode, hname, rfl⟩ := FrameLoop.exists_of_mem_scan hfound
    have hentry : entry ∈ codeLines (linesOf text) := by simp [hcode]
    have hsame : line = entry.2 := eq_of_mem_numbered hline (List.mem_filter.mp hentry).1
    have hcallback := (callbackAfter_eq_some_iff.mp hname).2
    have hother : NodeLookup.hit name entry ∈ NodeLookup.rule.scan (linesOf text) :=
      NodeLookup.mem_scan_iff.mpr
        ⟨before, entry, after, name, hcode, hname, hsame ▸ hlookup, rfl⟩
    exact ⟨name, isFrameCallback_iff.mp hcallback, rfl, _, List.mem_map_of_mem hother, rfl, rfl⟩

/-- A lookup by a percent sign, in a loop of a callback. -/
def lookupInLoop : String :=
  "func _PROCESS(d):\n\tfor i in d:\n\t\t$%Bar.hide()"

/-- The lookup is expensive work as well, and both rules report it under the name of the callback as
it is spelled where it is declared. -/
theorem nodeLookup_check_exact_bothRules :
    (FrameLoop.rule.check "a.gd" lookupInLoop).map Finding.line = [3] ∧
      (3, "\t\t$%Bar.hide()".toList) ∈ numbered 1 (linesOf lookupInLoop) ∧
      NodeLookup.LooksUpNode "\t\t$%Bar.hide()".toList ∧
      ∀ finding ∈ FrameLoop.rule.check "a.gd" lookupInLoop, finding.line = 3 →
        ∃ name, IsCallbackName name ∧
          finding.message = "Expensive operation in loop within " ++ String.ofList name ++
            "(). Cache results outside the loop" ∧
          ∃ other ∈ NodeLookup.rule.check "a.gd" lookupInLoop, other.line = finding.line ∧
            other.message = "get_node() or $ called in " ++ String.ofList name ++
              "(). Cache the reference in _ready() for better performance" := by
  have hline : (3, "\t\t$%Bar.hide()".toList) ∈ numbered 1 (linesOf lookupInLoop) := by
    decide +kernel
  have hlookup : NodeLookup.LooksUpNode "\t\t$%Bar.hide()".toList :=
    NodeLookup.looksUpNode_iff.mp (by decide +kernel)
  refine ⟨by decide +kernel, hline, hlookup, ?_⟩
  intro finding hfinding hthird
  exact (nodeLookup_check_exact "a.gd" lookupInLoop).2.2 finding hfinding _ (hthird ▸ hline) hlookup

end ScriptLint
