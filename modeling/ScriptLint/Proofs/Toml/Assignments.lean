import ScriptLint.Proofs.Toml.Values

/-!
# Documents of assignments

The simplest TOML document has one line for each key, with the value after an equals sign. Each line
is read by itself: its key is taken up to the blank, its value up to the end of the line, and what
was read before decides only whether the key is new. So such a document is read as its lines say, in
their order, if no key occurs twice.
-/

namespace ScriptLint

namespace Toml

/-! ## Keys -/

theorem keyPart?_bare {key rest : List Char} (hnonempty : key ≠ [])
    (hkey : ∀ c ∈ key, isBareKeyChar c = true)
    (hrest : ∀ c, rest.head? = some c → isBareKeyChar c = false) :
    keyPart? (key ++ rest) = some (String.ofList key, rest) := by
  obtain ⟨htake, hdrop⟩ := span_append hkey hrest
  have hmark : ∀ mark more, isBareKeyChar mark = false → key ++ rest ≠ mark :: more := by
    intro mark more hmark heq
    obtain ⟨c, key, rfl⟩ := List.exists_cons_of_ne_nil hnonempty
    exact ne_of_class (hkey c List.mem_cons_self) hmark (List.cons.inj heq).1
  unfold keyPart?
  split
  · next heq => exact absurd heq (hmark _ _ (by decide))
  · next heq => exact absurd heq (hmark _ _ (by decide))
  · rw [htake, hdrop, if_neg (by simpa using hnonempty)]

/-- A key is read up to the equals sign, without the blank before it. -/
theorem key?_bare {key : List Char} (hnonempty : key ≠ [])
    (hkey : ∀ c ∈ key, isBareKeyChar c = true) (rest : List Char) :
    key? (key ++ ' ' :: '=' :: rest) = some ([String.ofList key], '=' :: rest) := by
  have hvisible : startsVisibly (key ++ ' ' :: '=' :: rest) = true := by
    obtain ⟨c, key, rfl⟩ := List.exists_cons_of_ne_nil hnonempty
    exact startsVisibly_of_class (by decide) (hkey c List.mem_cons_self) _
  have hpart : keyPart? (key ++ ' ' :: '=' :: rest) =
      some (String.ofList key, ' ' :: '=' :: rest) := by
    apply keyPart?_bare hnonempty hkey
    rintro c hc
    cases hc
    decide
  have hblank : skipBlanks (' ' :: '=' :: rest) = '=' :: rest := rfl
  change keyFrom (79 + 1) _ = _
  rw [keyFrom, skipBlanks_of_startsVisibly hvisible, hpart]
  simp only [hblank]
  rfl

/-! ## Lines -/

/-- A key, a value and how the value is written. -/
structure Assignment where
  key : String
  literal : List Char
  value : Toml

namespace Assignment

/-- The key needs no quotation marks and the literal is read as the value. -/
structure WellFormed (assignment : Assignment) : Prop where
  named : assignment.key.toList ≠ []
  bare : ∀ c ∈ assignment.key.toList, isBareKeyChar c = true
  isLiteral : IsLiteral assignment.literal assignment.value

/-- The line that makes the assignment. -/
def line (assignment : Assignment) : List Char :=
  assignment.key.toList ++ ' ' :: '=' :: ' ' :: assignment.literal

/-- The document of which the given lines have been read. -/
def drafted (assignments : List Assignment) : Draft where
  entries := assignments.map fun assignment => (assignment.key, .value assignment.value)

end Assignment

theorem Entries.get?_of_notMem {key : String} {entries : Entries}
    (h : key ∉ entries.map Prod.fst) : entries.get? key = none := by
  rw [get?, List.lookup_eq_none_iff]
  intro entry hentry
  apply bne_iff_ne.mpr
  rintro rfl
  exact h (List.mem_map_of_mem hentry)

theorem Entries.put_of_notMem {key : String} {entries : Entries}
    (h : key ∉ entries.map Prod.fst) (tree : Tree) :
    entries.put key tree = entries ++ [(key, tree)] := by
  induction entries with
  | nil => rfl
  | cons entry entries ih =>
      simp only [List.map_cons, List.mem_cons, not_or] at h
      have hkey : (entry.1 == key) = false := by
        simpa using Ne.symm h.1
      rw [put, hkey, ih h.2]
      rfl

namespace Assignment

theorem fst_entries_drafted (seen : List Assignment) :
    (drafted seen).entries.map Prod.fst = seen.map key := by
  simp [drafted]

/-- A new key comes after those that have been read before. -/
theorem add_drafted {seen : List Assignment} {assignment : Assignment}
    (hnew : assignment.key ∉ seen.map key) :
    Entries.add assignment.key assignment.value [] (drafted seen).entries =
      some (drafted (seen ++ [assignment])).entries := by
  rw [← fst_entries_drafted] at hnew
  rw [Entries.add, Entries.get?_of_notMem hnew, Entries.put_of_notMem hnew]
  simp [drafted]

theorem line_append (assignment : Assignment) (rest : List Char) :
    assignment.line ++ rest =
      assignment.key.toList ++ ' ' :: '=' :: ' ' :: (assignment.literal ++ rest) := by
  simp [line]

/-- A line begins with the first character of its key. -/
theorem WellFormed.line_eq_cons {assignment : Assignment} (wellFormed : assignment.WellFormed) :
    ∃ c more, isBareKeyChar c = true ∧ assignment.line = c :: more := by
  obtain ⟨c, more, hkey⟩ := List.exists_cons_of_ne_nil wellFormed.named
  have hc : isBareKeyChar c = true := wellFormed.bare c (hkey ▸ List.mem_cons_self)
  exact ⟨c, _, hc, by rw [line, hkey, List.cons_append]⟩

theorem startsVisibly_line {assignment : Assignment} (wellFormed : assignment.WellFormed)
    (rest : List Char) : startsVisibly (assignment.line ++ rest) = true := by
  obtain ⟨c, more, hc, hline⟩ := wellFormed.line_eq_cons
  rw [hline]
  exact startsVisibly_of_class (by decide) hc _

/-- The value of a line is what its literal is read as. -/
theorem valueFrom_literal {assignment : Assignment} (wellFormed : assignment.WellFormed)
    {rest : List Char} (hrest : atLineEnd rest = true) :
    skipBlanks (' ' :: (assignment.literal ++ rest)) = assignment.literal ++ rest ∧
      valueFrom (2 * (assignment.literal ++ rest).length + 2) maxDepth
        (assignment.literal ++ rest) = some (assignment.value, rest) := by
  constructor
  · obtain ⟨c, more, hliteral⟩ := List.exists_cons_of_ne_nil wellFormed.isLiteral.nonempty
    have hvisible : startsVisibly (assignment.literal ++ rest) = true := by
      have hvisible := wellFormed.isLiteral.visible
      rw [hliteral] at hvisible ⊢
      exact hvisible
    exact skipBlanks_of_startsVisibly hvisible
  · have hfuel : assignment.literal.length < 2 * (assignment.literal ++ rest).length + 2 := by
      rw [List.length_append]
      omega
    exact wellFormed.isLiteral.reads hrest hfuel 79

/-- **A line with a new key** adds its key and value to what has been read before. -/
theorem statement?_line {seen : List Assignment} {assignment : Assignment}
    (wellFormed : assignment.WellFormed) (hnew : assignment.key ∉ seen.map key)
    {rest : List Char} (hrest : atLineEnd rest = true) :
    statement? (drafted seen) (assignment.line ++ rest) =
      some (drafted (seen ++ [assignment]), rest) := by
  obtain ⟨hstart, hvalue⟩ := valueFrom_literal wellFormed hrest
  have hkey := key?_bare wellFormed.named wellFormed.bare (' ' :: (assignment.literal ++ rest))
  have hheader : ∀ more, assignment.line ++ rest ≠ '[' :: more := by
    intro more heq
    obtain ⟨c, _, hc, hline⟩ := wellFormed.line_eq_cons
    rw [hline] at heq
    exact ne_of_class hc (by decide) (List.cons.inj heq).1
  unfold statement?
  split
  · next heq => exact absurd heq (hheader _)
  · next heq => exact absurd heq (hheader _)
  · rw [line_append, hkey]
    have hsplit : splitLast? [assignment.key] = some ([], assignment.key) := rfl
    have hadd : (drafted seen).entries.alter
        (Entries.add assignment.key assignment.value []) (drafted seen).path =
          some (drafted (seen ++ [assignment])).entries := add_drafted hnew
    simp only [String.ofList_toList, hsplit, hstart, hvalue, hadd, Option.bind_eq_bind,
      Option.bind_some]
    rfl

/-! ## Documents -/

/-- The lines of a document, and what stands after the last one. -/
def document (lineBreak ending : List Char) (assignments : List Assignment) : List Char :=
  lineBreak.intercalate (assignments.map line) ++ ending

/-- One line is read, wherever the line before it ended. -/
theorem statementsFrom_line {seen : List Assignment} {assignment : Assignment}
    (wellFormed : assignment.WellFormed) (hnew : assignment.key ∉ seen.map key)
    {gap rest : List Char} (hgap : gap ∈ [] :: lineBreaks) (hrest : atLineEnd rest = true)
    (fuel : Nat) :
    statementsFrom (fuel + 1) (drafted seen) (gap ++ (assignment.line ++ rest)) =
      statementsFrom fuel (drafted (seen ++ [assignment])) rest := by
  have hvisible := nextVisible?_gap hgap (startsVisibly_line wellFormed rest)
  have hstatement := statement?_line wellFormed hnew hrest
  rw [statementsFrom, hvisible]
  split
  · next heq => cases heq
  · next heq =>
      rw [Option.some.inj heq] at hstatement
      cases hstatement
  · next heq =>
      cases heq
      simp only [hstatement, endOfLine?_of_atLineEnd hrest]

/-- Empty lines at the end of a document say nothing. -/
theorem statementsFrom_ending {gap ending : List Char} (hgap : gap ∈ [] :: lineBreaks)
    (hending : ending ∈ [] :: lineBreaks) (fuel : Nat) (draft : Draft) :
    statementsFrom (fuel + 1) draft (gap ++ ending) = some draft := by
  rw [List.mem_cons, mem_lineBreaks] at hgap hending
  rcases hgap with rfl | rfl | rfl <;> rcases hending with rfl | rfl | rfl <;> rfl

/-- What follows the first line of a document: a line break before the next line, or the end. -/
theorem document_cons (lineBreak ending : List Char) (first : Assignment)
    (more : List Assignment) :
    ∃ gap, document lineBreak ending (first :: more) =
        first.line ++ (gap ++ document lineBreak ending more) ∧
      (gap = lineBreak ∨ gap = [] ∧ more = []) := by
  cases more with
  | nil => exact ⟨[], by simp [document], .inr ⟨rfl, rfl⟩⟩
  | cons next more => exact ⟨lineBreak, by simp [document], .inl rfl⟩

/-- **Every line of a document is read**, one after the other. -/
theorem statementsFrom_document {lineBreak ending : List Char} (hbreak : lineBreak ∈ lineBreaks)
    (hending : ending ∈ [] :: lineBreaks) {seen more : List Assignment}
    (wellFormed : ∀ assignment ∈ more, assignment.WellFormed)
    (hkeys : ((seen ++ more).map key).Nodup) {gap : List Char} (hgap : gap ∈ [] :: lineBreaks)
    {fuel : Nat} (hfuel : more.length < fuel) :
    statementsFrom fuel (drafted seen) (gap ++ document lineBreak ending more) =
      some (drafted (seen ++ more)) := by
  -- the line break before a line is left over from the line above, so the first line has none
  induction more generalizing seen gap fuel with
  | nil =>
      obtain ⟨fuel, rfl⟩ : ∃ left, fuel = left + 1 := ⟨fuel - 1, by omega⟩
      rw [List.append_nil]
      exact statementsFrom_ending hgap hending fuel (drafted seen)
  | cons first more ih =>
      obtain ⟨hfirst, hmore⟩ := List.forall_mem_cons.mp wellFormed
      rw [List.length_cons] at hfuel
      obtain ⟨fuel, rfl⟩ : ∃ left, fuel = left + 1 := ⟨fuel - 1, by omega⟩
      have hnew : first.key ∉ seen.map key := by
        rw [List.map_append, List.map_cons] at hkeys
        exact fun hmem => (List.nodup_append.mp hkeys).2.2 _ hmem _ List.mem_cons_self rfl
      rw [List.append_cons] at hkeys ⊢
      obtain ⟨next, hdocument, hnext⟩ := document_cons lineBreak ending first more
      have hend : atLineEnd (next ++ document lineBreak ending more) = true := by
        rcases hnext with rfl | ⟨rfl, rfl⟩
        · exact atLineEnd_append hbreak _
        · rcases List.mem_cons.mp hending with rfl | hending
          · rfl
          · simpa [document] using atLineEnd_append hending []
      have hgaps : next ∈ [] :: lineBreaks := by
        rcases hnext with rfl | ⟨rfl, -⟩
        · exact List.mem_cons_of_mem _ hbreak
        · exact List.mem_cons_self
      rw [hdocument, statementsFrom_line hfirst hnew hgap hend, ih hmore hkeys hgaps (by omega)]

theorem length_le_document (lineBreak ending : List Char) (assignments : List Assignment) :
    assignments.length ≤ (document lineBreak ending assignments).length := by
  induction assignments with
  | nil => exact Nat.zero_le _
  | cons first more ih =>
      obtain ⟨gap, hdocument, -⟩ := document_cons lineBreak ending first more
      simp only [hdocument, line, List.length_append, List.length_cons]
      omega

/-- No document of assignments begins with a byte order mark. -/
theorem head?_document {lineBreak ending : List Char} (hending : ending ∈ [] :: lineBreaks)
    {assignments : List Assignment} (wellFormed : ∀ assignment ∈ assignments,
      assignment.WellFormed) :
    (document lineBreak ending assignments).head? ≠ some '\ufeff' := by
  cases assignments with
  | nil =>
      rw [List.mem_cons, mem_lineBreaks] at hending
      rcases hending with rfl | rfl | rfl <;> simp [document]
  | cons first more =>
      obtain ⟨gap, hdocument, -⟩ := document_cons lineBreak ending first more
      obtain ⟨c, _, hc, hline⟩ := (wellFormed first List.mem_cons_self).line_eq_cons
      rw [hdocument, hline, List.cons_append, List.head?_cons]
      exact fun heq => ne_of_class hc (by decide) (Option.some.inj heq)

theorem entriesToToml_drafted (assignments : List Assignment) :
    entriesToToml (drafted assignments).entries =
      assignments.map fun assignment => (assignment.key, assignment.value) := by
  induction assignments with
  | nil => rfl
  | cons first more ih =>
      change (first.key, first.value) :: entriesToToml (drafted more).entries = _
      rw [ih, List.map_cons]

/-- **A document of assignments is read as they say** if no key is assigned twice. -/
theorem parse?_document {lineBreak ending : List Char} (hbreak : lineBreak ∈ lineBreaks)
    (hending : ending ∈ [] :: lineBreaks) {assignments : List Assignment}
    (wellFormed : ∀ assignment ∈ assignments, assignment.WellFormed)
    (hkeys : (assignments.map key).Nodup) :
    parse? (String.ofList (document lineBreak ending assignments)) =
      some (assignments.map fun assignment => (assignment.key, assignment.value)) := by
  have hlength := length_le_document lineBreak ending assignments
  have hread : statementsFrom ((document lineBreak ending assignments).length + 1) (drafted [])
      ([] ++ document lineBreak ending assignments) = some (drafted ([] ++ assignments)) :=
    statementsFrom_document hbreak hending wellFormed (by simpa using hkeys) List.mem_cons_self
      (by omega)
  rw [List.nil_append, List.nil_append, show drafted [] = {} from rfl] at hread
  simp only [parse?, String.toList_ofList]
  rw [if_neg (head?_document hending wellFormed), hread, Option.map_some, entriesToToml_drafted]

end Assignment

end Toml

end ScriptLint
