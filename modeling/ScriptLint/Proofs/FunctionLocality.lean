import ScriptLint.Proofs.Rule.Simulation

/-!
# Functions are checked one by one

A script that is cut before a function declaration without indentation is checked like two scripts:
the report is that of the first part and then that of the second, with its numbers moved on. The
declaration wipes out whatever callback and loops the first part leaves open, and since it is no
comment, it documents no declaration at the end of the first part.

This is so for every rule but two, which look at a script as a whole: one for the indentation that
was used first, the other for a cancelled subscription anywhere. The rules that look at each line
alone let a script be cut anywhere.
-/

namespace ScriptLint

/-- The second of two scripts is checked as it is by itself when it follows any other. -/
def SplitsBefore (scan : List Line → List Hit) (b : List Line) : Prop :=
  ∀ a : List Line, scan (a ++ b) = scan a ++ (scan b).map (Hit.renumbered (· + a.length))

/-- The first line declares a function and is not indented. -/
def StartsWithFunction : List Line → Prop
  | [] => False
  | first :: _ => first.width = 0 ∧ (declaredFunction? first.trim).isSome = true

/-! ## Rules that look at each line alone -/

theorem numbered_one_append (a b : List Line) :
    numbered 1 (a ++ b) =
      numbered 1 a ++ (numbered 1 b).map fun entry => (entry.1 + a.length, entry.2) := by
  rw [numbered_append, numbered_add]

/-- A rule that picks lines by their text splits anywhere. -/
theorem splitsBefore_of_filter (test : Line → Bool) {hit : Nat × Line → Hit}
    (hhit : ∀ number shift line, hit (number + shift, line) =
      (hit (number, line)).renumbered (· + shift)) (b : List Line) :
    SplitsBefore (fun lines =>
      ((numbered 1 lines).filter fun entry => test entry.2).map hit) b := by
  intro a
  show ((numbered 1 (a ++ b)).filter fun entry => test entry.2).map hit = _
  rw [numbered_one_append, List.filter_append, List.map_append, List.filter_map, List.map_map,
    List.map_map]
  congr 2
  funext entry
  exact hhit entry.1 a.length entry.2

theorem LineLength.splitsBefore (limit : Nat) (b : List Line) :
    SplitsBefore (LineLength.scan limit) b :=
  splitsBefore_of_filter (fun line => !line.isComment && limit < line.length)
    (fun _ _ _ => rfl) b

theorem scanEachLine_splitsBefore (test : Line → Bool) (message : String) (b : List Line) :
    SplitsBefore (scanEachLine test message) b :=
  splitsBefore_of_filter (fun line => !line.isComment && test line) (fun _ _ _ => rfl) b

/-! ## Rules with a state -/

theorem codeLines_append (a b : List Line) :
    codeLines (a ++ b) =
      codeLines a ++ (codeLines b).map fun entry => (entry.1 + a.length, entry.2) := by
  rw [codeLines, numbered_one_append, List.filter_append, List.filter_map]
  rfl

theorem LoopStack.close_zero (loops : LoopStack) : loops.close 0 = [] := by
  rw [close, List.dropWhile_eq_nil_iff]
  intro header _
  exact decide_eq_true (Nat.zero_le header)

theorem callbackAt_of_declared {line : Line} (h : (declaredFunction? line.trim).isSome = true)
    (before before' : Option (List Char)) : callbackAt before line = callbackAt before' line := by
  rw [callbackAt, callbackAt]
  cases hname : declaredFunction? line.trim with
  | none => rw [hname] at h; cases h
  | some name => rfl

/-- A scanner that starts afresh at every declaration without indentation splits before one. -/
theorem Scanner.splitsBefore {σ : Type} {scanner : Scanner σ} {start : σ}
    (hfollows : FollowsCode (scanner.run start)) {scan : List Line → List Hit}
    (hscan : ∀ lines, scan lines = scanner.run start (codeLines lines))
    (hfresh : ∀ state number first, first.width = 0 →
      (declaredFunction? first.trim).isSome = true → ∀ rest,
        scanner.run state ((number, first) :: rest) = scanner.run start ((number, first) :: rest))
    {b : List Line} (hb : StartsWithFunction b) : SplitsBefore scan b := by
  intro a
  cases b with
  | nil => exact hb.elim
  | cons first rest =>
      obtain ⟨hwidth, hdeclared⟩ := hb
      have hcode : first.isCode = true := isCode_of_declaredFunction? hdeclared
      have hfirst : codeLines (first :: rest) =
          (1, first) :: (numbered 2 rest).filter fun entry => entry.2.isCode := by
        rw [codeLines, numbered, List.filter_cons, if_pos hcode]
      have hshift := hfollows (.renumbering (· + a.length)) _ _
        (Correspondence.forall₂_renumbering (· + a.length) (codeLines (first :: rest)))
      rw [hscan, hscan, hscan, codeLines_append, scanner.run_append]
      refine congrArg _ (Eq.trans ?_ hshift)
      -- the state that `a` leaves behind is forgotten on the first line of `b`
      rw [hfirst, List.map_cons]
      exact hfresh _ _ first hwidth hdeclared _

theorem FrameLoop.splitsBefore {b : List Line} (hb : StartsWithFunction b) :
    SplitsBefore FrameLoop.rule.scan b := by
  refine Scanner.splitsBefore followsCode scan_eq_run ?_ hb
  intro state number first hwidth hdeclared rest
  have hcallback := callbackAt_of_declared hdeclared state.1 none
  apply Scanner.run_cons_congr
  · simp only [scanner, hwidth, hcallback, LoopStack.close_zero]
  · simp only [scanner, hwidth, hcallback, LoopStack.close_zero]

theorem Concatenation.splitsBefore {b : List Line} (hb : StartsWithFunction b) :
    SplitsBefore Concatenation.rule.scan b := by
  refine Scanner.splitsBefore followsCode scan_eq_run ?_ hb
  intro loops number first _ hdeclared rest
  apply Scanner.run_cons_congr
  · simp only [scanner, loopsAt, if_pos hdeclared]
  · simp only [scanner, loopsAt, if_pos hdeclared]

theorem NodeLookup.splitsBefore {b : List Line} (hb : StartsWithFunction b) :
    SplitsBefore NodeLookup.rule.scan b := by
  refine Scanner.splitsBefore followsCode scan_eq_run ?_ hb
  intro callback number first _ hdeclared rest
  have hcallback := callbackAt_of_declared hdeclared callback none
  apply Scanner.run_cons_congr
  · simp only [scanner, hcallback]
  · simp only [scanner, hcallback]

/-! ## Documentation -/

namespace Documentation

theorem startsWithComment_of_function {lines : List Line} (h : StartsWithFunction lines) :
    startsWithComment lines = false := by
  cases lines with
  | nil => exact h.elim
  | cons first rest =>
      have hcode := (Line.isCode_iff first).mp (isCode_of_declaredFunction? h.2)
      rw [startsWithComment, List.find?_cons, hcode.1]
      exact hcode.2

/-- What follows a script documents nothing in it unless it starts with a comment. -/
theorem startsWithComment_append {b : List Line} (hb : startsWithComment b = false)
    (a : List Line) : startsWithComment (a ++ b) = startsWithComment a := by
  rw [startsWithComment, startsWithComment, List.find?_append]
  cases a.find? fun line => !line.isBlankLine with
  | none => exact hb
  | some line => rfl

theorem scanFrom_append (declared : Line → Option (List Char)) (kind : String) (number : Nat)
    {b : List Line} (hb : startsWithComment b = false) (a : List Line) :
    scanFrom declared kind number (a ++ b) =
      scanFrom declared kind number a ++ scanFrom declared kind (number + a.length) b := by
  induction a generalizing number with
  | nil => rfl
  | cons line rest ih =>
      have hlength : number + (line :: rest).length = number + 1 + rest.length := by
        rw [List.length_cons]
        omega
      rw [List.cons_append, scanFrom, scanFrom, startsWithComment_append hb, ih, hlength]
      cases declared line with
      | none => rfl
      | some name =>
          simp only []
          split <;> rfl

theorem scanFrom_add (declared : Line → Option (List Char)) (kind : String)
    (number shift : Nat) (lines : List Line) :
    scanFrom declared kind (number + shift) lines =
      (scanFrom declared kind number lines).map (Hit.renumbered (· + shift)) := by
  induction lines generalizing number with
  | nil => rfl
  | cons line rest ih =>
      rw [scanFrom, scanFrom, Nat.add_right_comm, ih]
      cases declared line with
      | none => rfl
      | some name =>
          simp only []
          split <;> rfl

theorem splitsBefore (declared : Line → Option (List Char)) (kind : String) {b : List Line}
    (hb : StartsWithFunction b) : SplitsBefore (scanFrom declared kind 1) b := by
  intro a
  rw [scanFrom_append declared kind 1 (startsWithComment_of_function hb) a, scanFrom_add]

end Documentation

/-! ## All rules -/

theorem SplitsBefore.check_eq {rule : Rule} {b : String}
    (h : SplitsBefore rule.scan (linesOf b)) (path a : String) :
    rule.check path (a ++ "\n" ++ b) =
      rule.check path a ++
        (rule.check path b).map (Finding.renumbered (· + (linesOf a).length)) := by
  rw [Rule.check, linesOf_append, h (linesOf a), List.map_append, Rule.check, Rule.check,
    List.map_map, List.map_map]
  rfl

theorem splitsBefore_of_lineLocal {limit : Nat} {rule : Rule} (hrule : rule ∈ catalog limit)
    (hid : rule.id ∈ ["R001", "S001", "S002", "S003", "S004"]) (b : List Line) :
    SplitsBefore rule.scan b := by
  simp only [catalog, List.mem_cons, List.not_mem_nil, or_false] at hrule
  rcases hrule with rfl | rfl | rfl | rfl | rfl | rfl | rfl | rfl | rfl | rfl | rfl | rfl
  · exact LineLength.splitsBefore limit b
  · exact absurd hid (by decide)
  · exact absurd hid (by decide)
  · exact absurd hid (by decide)
  · exact scanEachLine_splitsBefore Password.assignsSecret _ b
  · exact scanEachLine_splitsBefore Evaluation.evaluates _ b
  · exact scanEachLine_splitsBefore Query.buildsStatement _ b
  · exact scanEachLine_splitsBefore
      (fun line => Randomness.callsRandom line && Randomness.mentionsSecret line) _ b
  · exact absurd hid (by decide)
  · exact absurd hid (by decide)
  · exact absurd hid (by decide)
  · exact absurd hid (by decide)

theorem splitsBefore_of_startsWithFunction {limit : Nat} {rule : Rule}
    (hrule : rule ∈ catalog limit) (hindentation : rule.id ≠ "R004")
    (hsubscription : rule.id ≠ "P003") {b : List Line} (hb : StartsWithFunction b) :
    SplitsBefore rule.scan b := by
  by_cases hid : rule.id ∈ ["R001", "S001", "S002", "S003", "S004"]
  · exact splitsBefore_of_lineLocal hrule hid b
  · simp only [catalog, List.mem_cons, List.not_mem_nil, or_false] at hrule
    rcases hrule with rfl | rfl | rfl | rfl | rfl | rfl | rfl | rfl | rfl | rfl | rfl | rfl
    · exact absurd (by decide : "R001" ∈ _) hid
    · exact Documentation.splitsBefore _ _ hb
    · exact Documentation.splitsBefore _ _ hb
    · exact absurd rfl hindentation
    · exact absurd (by decide : "S001" ∈ _) hid
    · exact absurd (by decide : "S002" ∈ _) hid
    · exact absurd (by decide : "S003" ∈ _) hid
    · exact absurd (by decide : "S004" ∈ _) hid
    · exact FrameLoop.splitsBefore hb
    · exact Concatenation.splitsBefore hb
    · exact absurd rfl hsubscription
    · exact NodeLookup.splitsBefore hb

/-- **Functions are checked one by one.** A script followed by one that starts with a function is
reported like the two by themselves, the second with its numbers moved on by the length of the
first. The rules on single lines do not even need the function. -/
theorem check_append {limit : Nat} {rule : Rule} (hrule : rule ∈ catalog limit)
    (path a b : String) :
    (rule.id ≠ "R004" → rule.id ≠ "P003" → StartsWithFunction (linesOf b) →
      rule.check path (a ++ "\n" ++ b) =
        rule.check path a ++
          (rule.check path b).map (Finding.renumbered (· + (linesOf a).length))) ∧
    (rule.id ∈ ["R001", "S001", "S002", "S003", "S004"] →
      rule.check path (a ++ "\n" ++ b) =
        rule.check path a ++
          (rule.check path b).map (Finding.renumbered (· + (linesOf a).length))) := by
  constructor
  · intro hindentation hsubscription hb
    have hsplits := splitsBefore_of_startsWithFunction hrule hindentation hsubscription hb
    exact hsplits.check_eq path a
  · intro hid
    exact (splitsBefore_of_lineLocal hrule hid (linesOf b)).check_eq path a

/-- The first script leaves a loop of a callback open, and the second looks a node up at the depth
of that loop. Only the lookup in a loop of its own is reported. -/
theorem check_append_openLoop :
    StartsWithFunction (linesOf "func _process(d):\n\t\t$B\n\tfor e in es:\n\t\t$C") ∧
      FrameLoop.rule.check "a.gd" ("func _process(d):\n\twhile x:" ++ "\n" ++
          "func _process(d):\n\t\t$B\n\tfor e in es:\n\t\t$C") =
        FrameLoop.rule.check "a.gd" "func _process(d):\n\twhile x:" ++
          (FrameLoop.rule.check "a.gd"
            "func _process(d):\n\t\t$B\n\tfor e in es:\n\t\t$C").map
              (Finding.renumbered (· + 2)) ∧
      (FrameLoop.rule.check "a.gd"
        "func _process(d):\n\t\t$B\n\tfor e in es:\n\t\t$C").map Finding.line = [4] := by
  have hrule : FrameLoop.rule ∈ catalog 100 := by simp [catalog]
  have hfunction :
      StartsWithFunction (linesOf "func _process(d):\n\t\t$B\n\tfor e in es:\n\t\t$C") :=
    ⟨by decide +kernel, by decide +kernel⟩
  have hlength : (linesOf "func _process(d):\n\twhile x:").length = 2 := by decide +kernel
  have hcheck := (check_append hrule "a.gd" "func _process(d):\n\twhile x:" _).1 (by decide)
    (by decide) hfunction
  rw [hlength] at hcheck
  exact ⟨hfunction, hcheck, by decide +kernel⟩

end ScriptLint
