import Mathlib.Data.List.Infix

/-!
# Finding and replacing text

A text is broken at the first occurrence of another, or every occurrence is replaced, from left to
right. Where characters are written as codes, the codes can be replaced back one kind after the
other: a code starts with a mark that stands nowhere else, so replacing one kind neither makes nor
breaks a code of another kind.
-/

namespace ScriptLint

/-! ## Breaking a text -/

/-- What stands before the first occurrence of a text and what follows it. -/
def breakAt? (found : List Char) : List Char → Option (List Char × List Char)
  | [] => none
  | c :: rest =>
      if found.isPrefixOf (c :: rest) then some ([], (c :: rest).drop found.length)
      else (breakAt? found rest).map fun sides => (c :: sides.1, sides.2)

theorem breakAt?_append {c : Char} {before : List Char} (h : c ∉ before) (more after : List Char) :
    breakAt? (c :: more) (before ++ (c :: more ++ after)) = some (before, after) := by
  induction before with
  | nil =>
      have hprefix : (c :: more).isPrefixOf (c :: more ++ after) = true :=
        List.isPrefixOf_iff_prefix.mpr (List.prefix_append _ _)
      rw [List.cons_append] at hprefix
      rw [List.nil_append, List.cons_append, breakAt?, if_pos hprefix]
      simp
  | cons d before ih =>
      obtain ⟨hne, hbefore⟩ := List.ne_and_not_mem_of_not_mem_cons h
      have hprefix : ¬ (c :: more).isPrefixOf (d :: (before ++ (c :: more ++ after))) = true := by
        simp [hne]
      rw [List.cons_append, breakAt?, if_neg hprefix, ih hbefore]
      rfl

/-! ## Replacing -/

/-- Replaces every occurrence of a text that is not empty. The first `skip` characters belong to an
occurrence that is already replaced. -/
def replaceFrom (old new : List Char) : Nat → List Char → List Char
  | _, [] => []
  | skip + 1, _ :: rest => replaceFrom old new skip rest
  | 0, c :: rest =>
      if old.isPrefixOf (c :: rest) then new ++ replaceFrom old new (old.length - 1) rest
      else c :: replaceFrom old new 0 rest

/-- The text with every occurrence of another replaced, from left to right. -/
def replaceAll (old new text : List Char) : List Char :=
  replaceFrom old new 0 text

theorem replaceFrom_length (old new skipped rest : List Char) :
    replaceFrom old new skipped.length (skipped ++ rest) = replaceAll old new rest := by
  induction skipped with
  | nil => rfl
  | cons c skipped ih => exact ih

section Occurrences

variable {c : Char} (more new : List Char)

theorem replaceAll_occurrence (rest : List Char) :
    replaceAll (c :: more) new (c :: more ++ rest) = new ++ replaceAll (c :: more) new rest := by
  have hprefix : (c :: more).isPrefixOf (c :: (more ++ rest)) = true :=
    List.isPrefixOf_iff_prefix.mpr (List.prefix_append (c :: more) rest)
  rw [List.cons_append, replaceAll, replaceFrom, if_pos hprefix]
  exact congrArg (new ++ ·) (replaceFrom_length (c :: more) new more rest)

theorem replaceAll_cons {d : Char} {rest : List Char}
    (h : ¬ (c :: more).isPrefixOf (d :: rest) = true) :
    replaceAll (c :: more) new (d :: rest) = d :: replaceAll (c :: more) new rest := by
  rw [replaceAll, replaceFrom, if_neg h]
  rfl

theorem replaceAll_cons_of_ne {d : Char} (h : d ≠ c) (rest : List Char) :
    replaceAll (c :: more) new (d :: rest) = d :: replaceAll (c :: more) new rest := by
  apply replaceAll_cons
  simp [h.symm]

theorem replaceAll_append_of_notMem {before : List Char} (h : c ∉ before) (rest : List Char) :
    replaceAll (c :: more) new (before ++ rest) = before ++ replaceAll (c :: more) new rest := by
  induction before with
  | nil => rfl
  | cons d before ih =>
      obtain ⟨hne, hbefore⟩ := List.ne_and_not_mem_of_not_mem_cons h
      rw [List.cons_append, replaceAll_cons_of_ne more new hne.symm, ih hbefore, List.cons_append]

theorem replaceAll_of_notMem {text : List Char} (h : c ∉ text) :
    replaceAll (c :: more) new text = text := by
  have happend := replaceAll_append_of_notMem more new h []
  have hnil : replaceAll (c :: more) new [] = [] := rfl
  rwa [hnil, List.append_nil] at happend

end Occurrences

/-- Replacing a single character is writing every character by itself, apart from that one. -/
theorem replaceAll_singleton (c : Char) (new text : List Char) :
    replaceAll [c] new text = text.flatMap fun d => if d = c then new else [d] := by
  induction text with
  | nil => rfl
  | cons d rest ih =>
      rw [List.flatMap_cons, ← ih]
      by_cases h : d = c
      · subst h
        rw [if_pos rfl]
        exact replaceAll_occurrence [] new rest
      · rw [if_neg h, replaceAll_cons_of_ne [] new h, List.singleton_append]

/-! ## Codes -/

/-- A character by itself, or a code: a mark and a number of characters after it, the mark being in
neither. -/
inductive IsCoded (mark : Char) (size : Nat) : List Char → Prop where
  | plain {c : Char} (h : c ≠ mark) : IsCoded mark size [c]
  | code {body : List Char} (hsize : body.length = size) (h : mark ∉ body) :
      IsCoded mark size (mark :: body)

section Codes

variable {mark : Char} {size : Nat} {body : List Char} {f : Char → List Char}

/-- Replacing a code replaces a whole code or nothing. -/
theorem replaceAll_of_isCoded (hsize : body.length = size) (new : List Char) {word : List Char}
    (hword : IsCoded mark size word) (rest : List Char) :
    replaceAll (mark :: body) new (word ++ rest) =
      (if word = mark :: body then new else word) ++ replaceAll (mark :: body) new rest := by
  cases hword with
  | plain h =>
      have hne : ¬ [_] = mark :: body := fun heq => h (List.cons.inj heq).1
      rw [if_neg hne, List.singleton_append, replaceAll_cons_of_ne body new h,
        List.singleton_append]
  | @code body' hsize' hbody' =>
      by_cases hsame : body' = body
      · subst hsame
        rw [if_pos rfl, replaceAll_occurrence]
      · -- codes are of one size, so none is the start of another
        have hprefix : ¬ (mark :: body).isPrefixOf (mark :: (body' ++ rest)) = true := by
          rw [List.isPrefixOf_iff_prefix, List.cons_prefix_cons]
          rintro ⟨-, hbody⟩
          have hlength : body.length = body'.length := hsize.trans hsize'.symm
          have hstart : body <+: body' :=
            List.prefix_of_prefix_length_le hbody (List.prefix_append body' rest) hlength.le
          exact hsame (hstart.eq_of_length hlength).symm
        have hne : ¬ mark :: body' = mark :: body := fun heq => hsame (List.cons.inj heq).2
        rw [if_neg hne, List.cons_append, replaceAll_cons body new hprefix,
          replaceAll_append_of_notMem body new hbody', List.cons_append]

/-- Replacing a code in a text is replacing it in the way characters are written. -/
theorem replaceAll_flatMap (hsize : body.length = size) (hf : ∀ c, IsCoded mark size (f c))
    (new text : List Char) :
    replaceAll (mark :: body) new (text.flatMap f) =
      text.flatMap fun c => if f c = mark :: body then new else f c := by
  induction text with
  | nil => rfl
  | cons c rest ih =>
      rw [List.flatMap_cons, List.flatMap_cons, replaceAll_of_isCoded hsize new (hf c), ih]

theorem isCoded_replaced (hf : ∀ c, IsCoded mark size (f c)) {d : Char} (hd : d ≠ mark)
    (code : List Char) (c : Char) : IsCoded mark size (if f c = code then [d] else f c) := by
  split
  · exact .plain hd
  · exact hf c

end Codes

end ScriptLint
