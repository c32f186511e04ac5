import ScriptLint.Proofs.Rule.Correspondence

/-!
# Runs over code lines

The rules that depend on where a line stands carry a state from line to line: the callback around
the line, the open loops, or both. Each is a scanner, which says for a state and a line what is
reported there and which state comes next. What a scanner reports for two stretches of code is what
it reports for the first, and then for the second from the state that the first leaves behind.

What holds of one step holds of a whole run: a scanner whose steps respect a correspondence follows
it, and a line on which two states lead to the same hits and the same next state makes the states
indistinguishable.
-/

namespace ScriptLint

/-- What is reported at a line in a state, and the state after the line. -/
structure Scanner (σ : Type) where
  step : σ → Nat × Line → σ
  hits : σ → Nat × Line → List Hit

namespace Scanner

variable {σ : Type} (scanner : Scanner σ)

def run : σ → List (Nat × Line) → List Hit
  | _, [] => []
  | state, entry :: rest => scanner.hits state entry ++ run (scanner.step state entry) rest

/-- The state that some lines leave behind. -/
def stateAfter (state : σ) (entries : List (Nat × Line)) : σ :=
  entries.foldl scanner.step state

theorem run_append (state : σ) (a b : List (Nat × Line)) :
    scanner.run state (a ++ b) =
      scanner.run state a ++ scanner.run (scanner.stateAfter state a) b := by
  induction a generalizing state with
  | nil => rfl
  | cons entry rest ih =>
      rw [List.cons_append, run, run, ih, List.append_assoc]
      rfl

/-- Steps from related states on corresponding lines report alike and keep the states related. -/
structure Respects (c : Correspondence) (Related : σ → σ → Prop) : Prop where
  step : ∀ {state state' : σ} {entry entry' : Nat × Line}, Related state state' →
    c.SameCode entry entry' → Related (scanner.step state entry) (scanner.step state' entry')
  hits : ∀ {state state' : σ} {entry entry' : Nat × Line}, Related state state' →
    c.SameCode entry entry' →
      scanner.hits state' entry' = (scanner.hits state entry).map (Hit.renumbered c.renumber)

variable {scanner}

theorem Respects.run {c : Correspondence} {Related : σ → σ → Prop}
    (h : scanner.Respects c Related) {entries entries' : List (Nat × Line)}
    (hentries : List.Forall₂ c.SameCode entries entries') {state state' : σ}
    (hstate : Related state state') :
    scanner.run state' entries' =
      (scanner.run state entries).map (Hit.renumbered c.renumber) := by
  induction hentries generalizing state state' with
  | nil => rfl
  | cons same _ ih =>
      rw [Scanner.run, Scanner.run, List.map_append, h.hits hstate same, ih (h.step hstate same)]

/-- The line makes the states indistinguishable. -/
theorem run_cons_congr {state state' : σ} {entry : Nat × Line} {rest : List (Nat × Line)}
    (hhits : scanner.hits state entry = scanner.hits state' entry)
    (hstep : scanner.step state entry = scanner.step state' entry) :
    scanner.run state (entry :: rest) = scanner.run state' (entry :: rest) := by
  rw [run, run, hhits, hstep]

end Scanner

/-! ## The scanners -/

/-- The callback around a line and the loops open before it. -/
def FrameLoop.scanner : Scanner (Option (List Char) × LoopStack) where
  step := fun state entry =>
    (callbackAt state.1 entry.2, (state.2.close entry.2.width).enter entry.2)
  hits := fun state entry =>
    match callbackAt state.1 entry.2 with
    | none => []
    | some name =>
        if !(state.2.close entry.2.width).isEmpty && isExpensive entry.2 then [hit name entry]
        else []

theorem FrameLoop.scanFrom_eq_run (callback : Option (List Char)) (loops : LoopStack)
    (entries : List (Nat × Line)) :
    scanFrom callback loops entries = scanner.run (callback, loops) entries := by
  induction entries generalizing callback loops with
  | nil => rfl
  | cons entry rest ih =>
      rw [scanFrom, Scanner.run, ih]
      simp only [scanner]
      cases callbackAt callback entry.2 with
      | none => rfl
      | some name =>
          simp only []
          split <;> rfl

theorem FrameLoop.scan_eq_run (lines : List Line) :
    FrameLoop.rule.scan lines = scanner.run (none, []) (codeLines lines) :=
  scanFrom_eq_run none [] (codeLines lines)

/-- The loops open before a line. -/
def Concatenation.scanner : Scanner LoopStack where
  step := fun loops entry => (loopsAt loops entry.2).enter entry.2
  hits := fun loops entry =>
    if !(loopsAt loops entry.2).isEmpty && addition.occursIn entry.2 then [hit entry] else []

theorem Concatenation.scanFrom_eq_run (loops : LoopStack) (entries : List (Nat × Line)) :
    scanFrom loops entries = scanner.run loops entries := by
  induction entries generalizing loops with
  | nil => rfl
  | cons entry rest ih =>
      rw [scanFrom, Scanner.run, ih]
      simp only [scanner]
      split <;> rfl

theorem Concatenation.scan_eq_run (lines : List Line) :
    Concatenation.rule.scan lines = scanner.run [] (codeLines lines) :=
  scanFrom_eq_run [] (codeLines lines)

/-- The callback around the line before. -/
def NodeLookup.scanner : Scanner (Option (List Char)) where
  step := fun callback entry => callbackAt callback entry.2
  hits := fun callback entry =>
    match callbackAt callback entry.2 with
    | none => []
    | some name => if looksUpNode entry.2 then [hit name entry] else []

theorem NodeLookup.scanFrom_eq_run (callback : Option (List Char))
    (entries : List (Nat × Line)) :
    scanFrom callback entries = scanner.run callback entries := by
  induction entries generalizing callback with
  | nil => rfl
  | cons entry rest ih =>
      rw [scanFrom, Scanner.run, ih]
      simp only [scanner]
      cases callbackAt callback entry.2 with
      | none => rfl
      | some name =>
          simp only []
          split <;> rfl

theorem NodeLookup.scan_eq_run (lines : List Line) :
    NodeLookup.rule.scan lines = scanner.run none (codeLines lines) :=
  scanFrom_eq_run none (codeLines lines)

end ScriptLint
