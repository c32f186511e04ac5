import ScriptLint.Proofs.Rule.Run

/-!
# The rules report corresponding lines alike

Each rule but those on the length of lines and on the kind of indentation follows correspondences.
For the rules that keep a stack of open loops this is a simulation: the two stacks hold different
widths, but they compare alike with the width of each line, so the same loops are open.
-/

namespace ScriptLint

/-! ## Loops and callbacks -/

namespace LoopStack

variable {c : Correspondence} {loops loops' : LoopStack}

/-- Closing keeps stacks related, since the widths compare alike. -/
theorem close_related (hloops : List.Forall₂ c.widths loops loops') {width width' : Nat}
    (hwidth : c.widths width width') :
    List.Forall₂ c.widths (loops.close width) (loops'.close width') := by
  induction hloops with
  | nil => exact .nil
  | @cons header header' rest rest' hheader hrest ih =>
      -- the innermost loop stays open in both scripts or is closed in both
      have horder : header < width ↔ header' < width' := c.keepsOrder hheader hwidth
      rw [close, close, List.dropWhile_cons, List.dropWhile_cons]
      by_cases hopen : header < width
      · have hopen' := horder.mp hopen
        rw [if_neg (by simpa using hopen), if_neg (by simpa using hopen')]
        exact .cons hheader hrest
      · have hopen' := fun h => hopen (horder.mpr h)
        rw [if_pos (by simpa using hopen), if_pos (by simpa using hopen')]
        exact ih

theorem enter_related (hloops : List.Forall₂ c.widths loops loops') {entry entry' : Nat × Line}
    (same : c.SameCode entry entry') :
    List.Forall₂ c.widths (loops.enter entry.2) (loops'.enter entry'.2) := by
  rw [enter, enter, same.trim]
  by_cases hheader : isLoopHeader entry.2.trim = true
  · rw [if_pos hheader, if_pos hheader]
    exact .cons same.width hloops
  · rw [if_neg hheader, if_neg hheader]
    exact hloops

theorem isEmpty_related (hloops : List.Forall₂ c.widths loops loops') :
    loops'.isEmpty = loops.isEmpty := by
  cases hloops <;> rfl

end LoopStack

theorem callbackAt_congr {line line' : Line} (h : line'.trim = line.trim)
    (before : Option (List Char)) : callbackAt before line' = callbackAt before line := by
  rw [callbackAt, callbackAt, h]

namespace FrameLoop

/-- The same callback, and stacks of corresponding widths. -/
def Related (c : Correspondence) (state state' : Option (List Char) × LoopStack) : Prop :=
  state'.1 = state.1 ∧ List.Forall₂ c.widths state.2 state'.2

theorem scanner_respects (c : Correspondence) : scanner.Respects c (Related c) where
  step := by
    rintro state state' entry entry' ⟨hcallback, hloops⟩ same
    refine ⟨?_, LoopStack.enter_related (LoopStack.close_related hloops same.width) same⟩
    show callbackAt state'.1 entry'.2 = callbackAt state.1 entry.2
    rw [hcallback, callbackAt_congr same.trim]
  hits := by
    rintro state state' entry entry' ⟨hcallback, hloops⟩ same
    have hclosed := LoopStack.close_related hloops same.width
    simp only [scanner, hcallback, callbackAt_congr same.trim, LoopStack.isEmpty_related hclosed,
      isExpensive_ignoresMargins.congr same.trim]
    cases callbackAt state.1 entry.2 with
    | none => rfl
    | some name =>
        have hhit : hit name entry' = (hit name entry).renumbered c.renumber := by
          rw [hit, same.number, Line.snippet_congr same.trim]
          rfl
        simp only [hhit]
        split <;> rfl

theorem followsCode : FollowsCode (scanner.run (none, [])) :=
  fun c _ _ h => (scanner_respects c).run h ⟨rfl, .nil⟩

theorem followsLines : FollowsLines rule.scan :=
  followsCode.followsLines_of scan_eq_run

end FrameLoop

namespace Concatenation

theorem loopsAt_related {c : Correspondence} {loops loops' : LoopStack}
    (hloops : List.Forall₂ c.widths loops loops') {entry entry' : Nat × Line}
    (same : c.SameCode entry entry') :
    List.Forall₂ c.widths (loopsAt loops entry.2) (loopsAt loops' entry'.2) := by
  rw [loopsAt, loopsAt, same.trim]
  by_cases hdeclared : (declaredFunction? entry.2.trim).isSome = true
  · rw [if_pos hdeclared, if_pos hdeclared]
    exact .nil
  · rw [if_neg hdeclared, if_neg hdeclared]
    exact LoopStack.close_related hloops same.width

theorem scanner_respects (c : Correspondence) : scanner.Respects c (List.Forall₂ c.widths) where
  step := fun hloops same => LoopStack.enter_related (loopsAt_related hloops same) same
  hits := by
    intro loops loops' entry entry' hloops same
    have hhit : hit entry' = (hit entry).renumbered c.renumber := by
      rw [hit, same.number, Line.snippet_congr same.trim]
      rfl
    simp only [scanner, LoopStack.isEmpty_related (loopsAt_related hloops same),
      addition_ignoresMargins.congr same.trim, hhit]
    split <;> rfl

theorem followsCode : FollowsCode (scanner.run []) :=
  fun c _ _ h => (scanner_respects c).run h .nil

theorem followsLines : FollowsLines rule.scan :=
  followsCode.followsLines_of scan_eq_run

end Concatenation

namespace NodeLookup

theorem scanner_respects (c : Correspondence) : scanner.Respects c Eq where
  step := by
    rintro callback _ entry entry' rfl same
    exact (callbackAt_congr same.trim callback).symm
  hits := by
    rintro callback _ entry entry' rfl same
    simp only [scanner, callbackAt_congr same.trim, looksUpNode_ignoresMargins.congr same.trim]
    cases callbackAt callback entry.2 with
    | none => rfl
    | some name =>
        have hhit : hit name entry' = (hit name entry).renumbered c.renumber := by
          rw [hit, same.number, Line.snippet_congr same.trim]
          rfl
        simp only [hhit]
        split <;> rfl

theorem followsCode : FollowsCode (scanner.run none) :=
  fun c _ _ h => (scanner_respects c).run h rfl

theorem followsLines : FollowsLines rule.scan :=
  followsCode.followsLines_of scan_eq_run

end NodeLookup

/-! ## Documentation -/

namespace Documentation

/-- What a way to recognise declarations has to do with the rest of the line. -/
structure ReadsCode (declared : Line → Option (List Char)) : Prop where
  congr : ∀ {line line' : Line}, line'.trim = line.trim → declared line' = declared line
  isCode : ∀ {line : Line}, (declared line).isSome = true → line.isCode = true

theorem ReadsCode.eq_none {declared : Line → Option (List Char)} (h : ReadsCode declared)
    {line : Line} (hline : ¬ line.isCode = true) : declared line = none := by
  cases hdeclared : declared line with
  | none => rfl
  | some name => exact absurd (h.isCode (by rw [hdeclared]; rfl)) hline

/-- Whether the first of some numbered lines is a comment. -/
def commentFirst (entries : List (Nat × Line)) : Bool :=
  entries.head?.any fun entry => entry.2.isComment

/-- The hits among the lines that are not blank. -/
def scanFilled (declared : Line → Option (List Char)) (kind : String) :
    List (Nat × Line) → List Hit
  | [] => []
  | entry :: rest =>
      match declared entry.2 with
      | none => scanFilled declared kind rest
      | some name =>
          if commentFirst rest then scanFilled declared kind rest
          else
            { line := entry.1
              message := s!"{kind} '" ++ String.ofList name ++ "' is missing a docstring"
              snippet := String.ofList entry.2.trim } :: scanFilled declared kind rest

theorem startsWithComment_eq (first : Nat) (lines : List Line) :
    startsWithComment lines = commentFirst (filledFrom first lines) := by
  induction lines generalizing first with
  | nil => rfl
  | cons line rest ih =>
      rw [filledFrom_cons, startsWithComment, List.find?_cons]
      cases hblank : line.isBlankLine with
      | false => rfl
      | true => exact ih (first + 1)

/-- Blank lines neither declare anything nor come between a declaration and its comment. -/
theorem scanFrom_eq_scanFilled {declared : Line → Option (List Char)} (h : ReadsCode declared)
    (kind : String) (first : Nat) (lines : List Line) :
    scanFrom declared kind first lines = scanFilled declared kind (filledFrom first lines) := by
  induction lines generalizing first with
  | nil => rfl
  | cons line rest ih =>
      rw [scanFrom, filledFrom_cons, startsWithComment_eq (first + 1), ih]
      by_cases hblank : line.isBlankLine = true
      · have hcode : ¬ line.isCode = true := by
          rw [Line.isCode_iff, hblank]
          rintro ⟨hfalse, _⟩
          cases hfalse
        rw [if_pos hblank, h.eq_none hcode]
      · rw [if_neg hblank]
        rfl

theorem commentFirst_related {c : Correspondence} {entries entries' : List (Nat × Line)}
    (h : List.Forall₂ c.Counterparts entries entries') :
    commentFirst entries' = commentFirst entries := by
  cases h with
  | nil => rfl
  | cons hentry _ =>
      cases hentry with
      | comment hc hc' => exact hc'.trans hc.symm
      | code hcode same =>
          show Line.isComment _ = Line.isComment _
          rw [Line.isComment, Line.isComment, same.trim]

theorem scanFilled_follows {declared : Line → Option (List Char)} (hreads : ReadsCode declared)
    (kind : String) (c : Correspondence) {entries entries' : List (Nat × Line)}
    (h : List.Forall₂ c.Counterparts entries entries') :
    scanFilled declared kind entries' =
      (scanFilled declared kind entries).map (Hit.renumbered c.renumber) := by
  induction h with
  | nil => rfl
  | @cons entry entry' rest rest' hentry hrest ih =>
      rw [scanFilled, scanFilled, commentFirst_related hrest, ih]
      cases hentry with
      | comment hc hc' =>
          rw [hreads.eq_none (Line.isCode_of_isComment hc),
            hreads.eq_none (Line.isCode_of_isComment hc')]
      | code hcode same =>
          -- the name, the comment after it and the snippet are the same, the number corresponds
          rw [hreads.congr same.trim, same.number, same.trim]
          cases declared entry.2 with
          | none => rfl
          | some name =>
              simp only []
              split <;> rfl

theorem scanFrom_followsLines {declared : Line → Option (List Char)}
    (hreads : ReadsCode declared) (kind : String) : FollowsLines (scanFrom declared kind 1) := by
  intro c lines lines' h
  rw [scanFrom_eq_scanFilled hreads, scanFrom_eq_scanFilled hreads]
  exact scanFilled_follows hreads kind c h

theorem readsCode_class : ReadsCode fun line => declaredClass? line.trimStart where
  congr := by
    intro line line' h
    show declaredClass? _ = declaredClass? _
    rw [declaredClass?_trimStart, declaredClass?_trimStart, h]
  isCode := by
    intro line h
    rw [declaredClass?_trimStart] at h
    exact isCode_of_declaredClass? h

theorem readsCode_publicFunction : ReadsCode publicFunction? where
  congr := by
    intro line line' h
    rw [publicFunction?, publicFunction?, declaredFunction?_trimStart,
      declaredFunction?_trimStart, h]
  isCode := by
    intro line h
    rw [publicFunction?, declaredFunction?_trimStart] at h
    apply isCode_of_declaredFunction?
    cases hname : declaredFunction? line.trim with
    | none => rw [hname] at h; cases h
    | some name => rfl

end Documentation

/-! ## Subscriptions -/

namespace Subscription

/-- The subscriptions among code lines that none of them cancels. -/
def pending (entries : List (Nat × Line)) : List Hit :=
  let cancelled := entries.flatMap fun entry => cancelledIn entry.2
  ((firstOfEach [] (made entries)).filter fun entry => !cancelled.contains entry.1).map hit

/-- What is gathered from lines is gathered from code if blank lines give nothing. -/
theorem flatMap_spoken {β : Type} {f : Nat × Line → List β}
    (hblank : ∀ entry, entry.2.isBlankLine = true → f entry = [])
    (entries : List (Nat × Line)) :
    (entries.filter fun entry => !entry.2.isComment).flatMap f =
      (entries.filter fun entry => entry.2.isCode).flatMap f := by
  induction entries with
  | nil => rfl
  | cons entry rest ih =>
      rw [List.filter_cons, List.filter_cons, Line.isCode]
      cases entry.2.isComment with
      | true => simpa using ih
      | false =>
          cases hempty : entry.2.isBlankLine with
          | true => simpa [hblank entry hempty] using ih
          | false => simpa using ih

theorem eq_nil_of_isBlankLine {f : Line → List Subscription} (hf : IgnoresMargins f)
    (hnil : f [] = []) {line : Line} (h : line.isBlankLine = true) : f line = [] := by
  rw [hf.trim line, (Line.isBlankLine_iff line).mp h, hnil]

theorem scan_eq_pending (lines : List Line) : scan lines = pending (codeLines lines) := by
  have hcancelled := flatMap_spoken (f := fun entry : Nat × Line => cancelledIn entry.2)
    (fun entry h => eq_nil_of_isBlankLine cancelledIn_ignoresMargins rfl h) (numbered 1 lines)
  have hmade : made ((numbered 1 lines).filter fun entry => !entry.2.isComment) =
      made (codeLines lines) := by
    apply flatMap_spoken
    intro entry h
    rw [eq_nil_of_isBlankLine madeIn_ignoresMargins rfl h]
    rfl
  simp only [scan, pending, hcancelled, hmade]
  rfl

/-- The same subscription, made on corresponding lines. -/
def SameMade (c : Correspondence) (entry entry' : Subscription × Nat × Line) : Prop :=
  entry'.1 = entry.1 ∧ c.SameCode entry.2 entry'.2

variable {c : Correspondence}

theorem made_related {entries entries' : List (Nat × Line)}
    (h : List.Forall₂ c.SameCode entries entries') :
    List.Forall₂ (SameMade c) (made entries) (made entries') := by
  refine List.rel_flatMap h ?_
  intro entry entry' same
  show List.Forall₂ (SameMade c) ((madeIn entry.2).map fun found => (found, entry))
    ((madeIn entry'.2).map fun found => (found, entry'))
  rw [madeIn_ignoresMargins.congr same.trim, List.forall₂_map_left_iff,
    List.forall₂_map_right_iff, List.forall₂_same]
  intro found _
  exact ⟨rfl, same⟩

theorem cancelled_congr {entries entries' : List (Nat × Line)}
    (h : List.Forall₂ c.SameCode entries entries') :
    (entries'.flatMap fun entry => cancelledIn entry.2) =
      entries.flatMap fun entry => cancelledIn entry.2 := by
  induction h with
  | nil => rfl
  | cons same _ ih =>
      rw [List.flatMap_cons, List.flatMap_cons, ih, cancelledIn_ignoresMargins.congr same.trim]

/-- Which entries are kept depends on the subscriptions alone. -/
theorem firstOfEach_related {entries entries' : List (Subscription × Nat × Line)}
    (h : List.Forall₂ (SameMade c) entries entries') (known : List Subscription) :
    List.Forall₂ (SameMade c) (firstOfEach known entries) (firstOfEach known entries') := by
  induction h generalizing known with
  | nil => exact .nil
  | @cons entry entry' rest rest' same _ ih =>
      rw [firstOfEach, firstOfEach, same.1]
      by_cases hknown : known.contains entry.1 = true
      · rw [if_pos hknown, if_pos hknown]
        exact ih known
      · rw [if_neg hknown, if_neg hknown]
        exact .cons same (ih _)

theorem followsCode : FollowsCode pending := by
  intro c entries entries' h
  simp only [pending, cancelled_congr h, List.map_map]
  refine map_eq_of_forall₂ ?_ (List.rel_filter ?_ (firstOfEach_related (made_related h) []))
  · rintro entry entry' ⟨hsub, same⟩
    rw [hit, hsub, same.number, Line.snippet_congr same.trim]
    rfl
  · rintro entry entry' ⟨hsub, _⟩
    simp only [hsub]

end Subscription

/-! ## All rules -/

/-- Every rule follows correspondences, or it is the one on the length of lines or the one on the
kind of indentation. -/
theorem mem_catalog_cases {limit : Nat} {rule : Rule} (hrule : rule ∈ catalog limit) :
    rule = LineLength.rule limit ∨ rule = Indentation.rule ∨ FollowsLines rule.scan := by
  simp only [catalog, List.mem_cons, List.not_mem_nil, or_false] at hrule
  rcases hrule with rfl | rfl | rfl | rfl | rfl | rfl | rfl | rfl | rfl | rfl | rfl | rfl
  · exact Or.inl rfl
  · exact Or.inr (Or.inr
      (Documentation.scanFrom_followsLines Documentation.readsCode_class "Class"))
  · exact Or.inr (Or.inr
      (Documentation.scanFrom_followsLines Documentation.readsCode_publicFunction "Function"))
  · exact Or.inr (Or.inl rfl)
  · exact Or.inr (Or.inr (scanEachLine_follows Password.assignsSecret_ignoresMargins rfl _))
  · exact Or.inr (Or.inr (scanEachLine_follows Evaluation.evaluates_ignoresMargins rfl _))
  · exact Or.inr (Or.inr (scanEachLine_follows Query.buildsStatement_ignoresMargins rfl _))
  · exact Or.inr (Or.inr (scanEachLine_follows
      (.map₂ and Randomness.callsRandom_ignoresMargins Randomness.mentionsSecret_ignoresMargins)
      rfl _))
  · exact Or.inr (Or.inr FrameLoop.followsLines)
  · exact Or.inr (Or.inr Concatenation.followsLines)
  · exact Or.inr (Or.inr
      (Subscription.followsCode.followsLines_of Subscription.scan_eq_pending))
  · exact Or.inr (Or.inr NodeLookup.followsLines)

theorem followsLines_of_mem_catalog {limit : Nat} {rule : Rule} (hrule : rule ∈ catalog limit)
    (hlength : rule.id ≠ "R001") (hindentation : rule.id ≠ "R004") : FollowsLines rule.scan := by
  rcases mem_catalog_cases hrule with rfl | rfl | hfollows
  · exact absurd rfl hlength
  · exact absurd rfl hindentation
  · exact hfollows

end ScriptLint
