import ScriptLint.Proofs.UndocumentedDeclarations

/-!
# One notion of a function declaration

A function declaration is looked for in two ways. The rule on documentation reads every line as it
stands and passes over its indentation. The rules that follow functions down a script read only code
lines, and those trimmed on both sides. Both find what one pattern describes, a keyword, blanks, a
name, and an opening parenthesis, and it is the same lines with the same names that they find.

Three things make it so. What indents a line is what is trimmed off, so that the keyword comes
first in both views. A pattern that ends in a parenthesis has no use for the blanks at the end of a
line. And no blank can be part of a name, so there is one name only that fits.
-/

namespace ScriptLint

/-- The functions that `declared` finds in some lines, each with its number. -/
def functionsIn (declared : Line → Option (List Char)) (entries : List (Nat × Line)) :
    List (Nat × List Char) :=
  entries.filterMap fun entry => (declared entry.2).map fun name => (entry.1, name)

/-- Nothing is declared on the lines that are left out. -/
theorem functionsIn_codeLines (lines : List Line) :
    functionsIn (fun line => declaredFunction? line.trim) (codeLines lines) =
      functionsIn (fun line => declaredFunction? line.trimStart) (numbered 1 lines) := by
  rw [functionsIn, functionsIn, codeLines, List.filterMap_filter]
  apply List.filterMap_congr
  intro entry _
  rw [declaredFunction?_trimStart]
  by_cases hcode : entry.2.isCode = true
  · rw [if_pos hcode]
  · rw [if_neg hcode]
    cases hname : declaredFunction? entry.2.trim with
    | none => rfl
    | some name => exact absurd (isCode_of_declaredFunction? (by rw [hname]; rfl)) hcode

/-- **All rules agree on what declares a function.** A name is found on a line as it stands exactly
if it is found on the trimmed line, and either way exactly if the pattern fits. So what a line does
to the callback and to the loops around it is given by what the rule on documentation finds there;
and in a whole script both ways find the same functions on the same lines. -/
theorem functionDeclarations_agree (text : String) :
    (∀ (line : Line) (name : List Char),
      (declaredFunction? line.trimStart = some name ↔ declaredFunction? line.trim = some name) ∧
      (declaredFunction? line.trimStart = some name ↔ DeclaresIndented line name) ∧
      (declaredFunction? line.trim = some name ↔ DeclaresFunction line.trim name) ∧
      (Documentation.publicFunction? line = some name ↔
        DeclaresIndented line name ∧ name.head? ≠ some '_')) ∧
    (∀ line : Line,
      (∀ before, callbackAt before line =
        (declaredFunction? line.trimStart).elim before fun name =>
          if isFrameCallback name then some name else none) ∧
      ∀ before, Concatenation.loopsAt before line =
        if (declaredFunction? line.trimStart).isSome then [] else before.close line.width) ∧
    functionsIn (fun line => declaredFunction? line.trim) (codeLines (linesOf text)) =
      functionsIn (fun line => declaredFunction? line.trimStart)
        (numbered 1 (linesOf text)) := by
  refine ⟨?_, ?_, functionsIn_codeLines (linesOf text)⟩
  · intro line name
    refine ⟨?_, declaredFunction?_trimStart_eq_some_iff, declaredFunction?_eq_some_iff,
      Documentation.publicFunction?_eq_some_iff_indented⟩
    rw [declaredFunction?_trimStart]
  · intro line
    rw [declaredFunction?_trimStart]
    refine ⟨?_, fun before => rfl⟩
    intro before
    rw [callbackAt]
    cases declaredFunction? line.trim with
    | none => rfl
    | some name => rfl

-- blanks of several kinds around a name beyond ASCII, a comment, and a keyword in capitals
example : functionsIn (fun line => declaredFunction? line.trim)
    (codeLines (linesOf "\u3000func\u00a0größe\t(x) \n# func a()\n\tFUNC _b( ")) =
      [(1, "größe".toList), (3, "_b".toList)] := by
  decide +kernel

end ScriptLint
