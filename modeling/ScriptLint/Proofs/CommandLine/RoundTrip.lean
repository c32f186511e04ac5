import ScriptLint.Proofs.CommandLine.OptionUses

/-!
# Command lines read back

A check with all its options can be written as a command line, and the command line gives the check
back. The options may stand in any order. Only the values of an option that collects have to keep
theirs. The options that every command has may all stand before the name of the command or all
after it. Values are attached to their options, so they may start with a dash or contain equals
signs, and the path stands after the separator, so it may be anything but empty.
-/

namespace ScriptLint

open OptionUse

/-! ## Levels -/

/-- If each use is taken up with what it adds, a level is read up to what follows the uses. -/
theorem Grammar.read_arguments {α : Type} {grammar : Grammar α} (said : List OptionUse → α)
    {uses : List OptionUse}
    (hstep : ∀ before use after, uses = before ++ use :: after →
      grammar.startsCommand { draft := said before } use.argument = false ∧
        grammar.take { draft := said before } use.argument =
          .ok { draft := said (before ++ [use]) })
    (rest : List String) :
    grammar.read { draft := said [] } (uses.map argument ++ rest) =
      grammar.read { draft := said uses } rest := by
  -- The uses are split into those that are said already and those that are still to be read.
  have hfrom : ∀ after before, uses = before ++ after →
      grammar.read { draft := said before } (after.map argument ++ rest) =
        grammar.read { draft := said uses } rest := by
    intro after
    induction after with
    | nil =>
        rintro before rfl
        rw [List.append_nil]
        rfl
    | cons use after ih =>
        intro before hsplit
        obtain ⟨hname, htaken⟩ := hstep before use after hsplit
        rw [List.map_cons, List.cons_append, Grammar.read, hname, if_neg Bool.false_ne_true, htaken]
        exact ih (before ++ [use]) (by rw [hsplit, List.append_assoc, List.singleton_append])
  exact hfrom uses [] rfl

/-- What the uses of a command line say on the level of a check. -/
def Draft.ofUses (uses : List OptionUse) : Draft CheckDraft where
  globals := .ofUses uses
  own := .ofUses uses

/-- An option of the check says nothing about every command. -/
theorem GlobalDraft.ofUses_own {use : OptionUse} (h : use.isGlobal = false)
    (before : List OptionUse) : GlobalDraft.ofUses (before ++ [use]) = .ofUses before := by
  cases use with
  | verbose | quiet | color | noConfig => cases h
  | _ => simp [GlobalDraft.ofUses]

/-- An option that every command has says nothing about the check. -/
theorem CheckDraft.ofUses_global {use : OptionUse} (h : use.isGlobal = true)
    (before : List OptionUse) : CheckDraft.ofUses (before ++ [use]) = .ofUses before := by
  cases use with
  | verbose | quiet | color | noConfig => simp [CheckDraft.ofUses]
  | _ => cases h

namespace CommandLine

variable {uses : List OptionUse}

/-- The level of a check takes up a use of any option. -/
theorem take_checkGrammar {before : List OptionUse} {use : OptionUse} (hnew : IsNew before use)
    (hreadable : use.IsReadable) :
    checkGrammar.take { draft := .ofUses before } use.argument =
      .ok { draft := .ofUses (before ++ [use]) } := by
  by_cases hglobal : use.isGlobal = true
  · have htaken := take_global knowsGlobals_checkGrammar hnew hglobal (CheckDraft.ofUses before)
    rw [← CheckDraft.ofUses_global hglobal before] at htaken
    rw [Draft.ofUses, ← CheckDraft.ofUses_global hglobal before]
    exact htaken
  · have hown : use.isGlobal = false := Bool.eq_false_iff.mpr hglobal
    have htaken := take_own hnew hown hreadable (GlobalDraft.ofUses before)
    rw [← GlobalDraft.ofUses_own hown before] at htaken
    rw [Draft.ofUses, ← GlobalDraft.ofUses_own hown before]
    exact htaken

/-- The arguments of a check are read up to the separator. -/
theorem read_checkGrammar (honce : UsedOnce uses) (hreadable : ∀ use ∈ uses, use.IsReadable)
    (rest : List String) :
    checkGrammar.read { draft := { own := {} } } (uses.map argument ++ rest) =
      checkGrammar.read { draft := .ofUses uses } rest := by
  refine Grammar.read_arguments Draft.ofUses (fun before use after hsplit => ⟨?_, ?_⟩) rest
  · simp [Grammar.startsCommand, checkGrammar]
  · refine take_checkGrammar (UsedOnce.isNew (hsplit ▸ honce)) (hreadable use ?_)
    simp [hsplit]

/-- The level of a check ends with the path, which stands after the separator. -/
theorem read_path (draft : Draft CheckDraft) {path : String} (hpath : path ≠ "") :
    checkGrammar.read { draft } ["--", path] =
      .ok (.finish { draft with own := { draft.own with path := some path } }) := by
  have hseparator : Argument.ofText "--" = .separator := by decide
  simp [Grammar.read, Grammar.startsCommand, Grammar.take, Grammar.takeWord, Reading.putOff,
    Reading.settle, checkGrammar, storeOwn, readPath, Except.map, hseparator, hpath]

/-- An argument that uses an option starts with a dash. -/
theorem head?_argument (use : OptionUse) : use.argument.toList.head? = some '-' := by
  cases use <;> simp [argument, name]

/-- An argument that uses an option is not the name of a command. -/
theorem argument_notMem_commands (use : OptionUse) : use.argument ∉ rootGrammar.commands := by
  have hheads : ∀ command ∈ rootGrammar.commands, command.toList.head? ≠ some '-' := by decide
  exact fun hmem => hheads _ hmem (head?_argument use)

/-- The arguments before the name of a command are read up to it. -/
theorem read_rootGrammar (hglobal : ∀ use ∈ uses, use.isGlobal = true) (honce : UsedOnce uses)
    (rest : List String) :
    rootGrammar.read { draft := { own := () } } (uses.map argument ++ "check" :: rest) =
      .ok (.command "check" rest { draft := { globals := .ofUses uses, own := () } }) := by
  let said (uses : List OptionUse) : Draft Unit := { globals := .ofUses uses, own := () }
  calc rootGrammar.read { draft := said [] } (uses.map argument ++ "check" :: rest)
      = rootGrammar.read { draft := said uses } ("check" :: rest) := by
        refine Grammar.read_arguments said (fun before use after hsplit => ⟨?_, ?_⟩) _
        · simp [Grammar.startsCommand, argument_notMem_commands use]
        · have hnew : IsNew before use := UsedOnce.isNew (hsplit ▸ honce)
          exact take_global knowsGlobals_rootGrammar hnew (hglobal use (by simp [hsplit])) ()
    _ = .ok (.command "check" rest { draft := said uses }) := rfl

/-- What a command line asks for whose arguments use options one by one. -/
theorem ofArguments_uses {globals own : List OptionUse} {path : String}
    (hglobal : ∀ use ∈ globals, use.isGlobal = true) (hglobals : UsedOnce globals)
    (hown : UsedOnce own) (hreadable : ∀ use ∈ own, use.IsReadable) (hpath : path ≠ "") :
    Invocation.ofArguments
        (globals.map argument ++ "check" :: (own.map argument ++ ["--", path])) =
      .ok { options := ((GlobalDraft.ofUses own).within (.ofUses globals)).toOptions
            command := .check
              { CheckDraft.ofUses own with path := some path : CheckDraft }.toOptions } := by
  have hlast : readRootCommand "check" (own.map argument ++ ["--", path]) =
      .ok (GlobalDraft.ofUses own,
        .check { CheckDraft.ofUses own with path := some path : CheckDraft }.toOptions) := by
    rw [readRootCommand, if_pos rfl, readLast, read_checkGrammar hown hreadable, read_path _ hpath]
    rfl
  rw [Invocation.ofArguments, readOuter, read_rootGrammar hglobal hglobals]
  dsimp only
  rw [hlast]
  rfl

end CommandLine

/-! ## Writing a check as options -/

/-- The uses that say what the options of every command are. -/
def GlobalOptions.uses (general : GlobalOptions) : List OptionUse :=
  List.replicate general.verbosity OptionUse.verbose ++
    (if general.quiet then [OptionUse.quiet] else []) ++ [OptionUse.color general.color] ++
    (if general.noConfig then [OptionUse.noConfig] else [])

/-- The uses that say what the options of a check are, except for its path. -/
def CheckOptions.uses (check : CheckOptions) : List OptionUse :=
  check.config.toList.map OptionUse.config ++ [OptionUse.format check.format] ++
    check.output.toList.map OptionUse.output ++
    check.maxLineLength.toList.map OptionUse.maxLineLength ++
    check.disable.map OptionUse.disable ++ check.exclude.map OptionUse.exclude ++
    (if check.failOnWarning then [OptionUse.failOnWarning] else [])

/-- Whether a check can be told from its command line. -/
structure CheckOptions.IsRenderable (check : CheckOptions) : Prop where
  path : check.path ≠ ""
  config : ∀ path ∈ check.config, path ≠ ""
  output : ∀ path ∈ check.output, path ≠ ""
  maxLineLength : ∀ number ∈ check.maxLineLength, number ≤ Settings.maxNumber
  /-- A comma would end the identifier of a rule. -/
  disable : ∀ id ∈ check.disable, ',' ∉ id.toList

/-- The values of the options that collect are in the order of the check. -/
structure CheckOptions.KeepsOrder (check : CheckOptions) (uses : List OptionUse) : Prop where
  disable : uses.filterMap disable? = check.disable
  exclude : uses.filterMap exclude? = check.exclude

variable {general : GlobalOptions} {check : CheckOptions} {uses others : List OptionUse}

theorem GlobalOptions.isGlobal_uses (general : GlobalOptions) :
    ∀ use ∈ general.uses, use.isGlobal = true := by
  intro use hmem
  simp only [uses, List.mem_append, List.mem_replicate, List.mem_ite_nil_right,
    List.mem_singleton] at hmem
  rcases hmem with ((⟨-, rfl⟩ | ⟨-, rfl⟩) | rfl) | ⟨-, rfl⟩ <;> rfl

theorem CheckOptions.isGlobal_uses (check : CheckOptions) :
    ∀ use ∈ check.uses, use.isGlobal = false := by
  intro use hmem
  simp only [uses, List.mem_append, List.mem_map, List.mem_ite_nil_right,
    List.mem_singleton] at hmem
  rcases hmem with (((((⟨_, -, rfl⟩ | rfl) | ⟨_, -, rfl⟩) | ⟨_, -, rfl⟩) | ⟨_, -, rfl⟩) |
    ⟨_, -, rfl⟩) | ⟨-, rfl⟩ <;> rfl

/-- The value of each use of a check can be told from its text. -/
theorem CheckOptions.IsRenderable.isReadable_uses (h : check.IsRenderable) :
    ∀ use ∈ check.uses, use.IsReadable := by
  intro use hmem
  simp only [uses, List.mem_append, List.mem_map, Option.mem_toList, List.mem_ite_nil_right,
    List.mem_singleton] at hmem
  rcases hmem with (((((⟨path, hpath, rfl⟩ | rfl) | ⟨path, hpath, rfl⟩) | ⟨number, hnumber, rfl⟩) |
    ⟨id, hid, rfl⟩) | ⟨pattern, -, rfl⟩) | ⟨-, rfl⟩
  · exact h.config path hpath
  · trivial
  · exact h.output path hpath
  · exact h.maxLineLength number hnumber
  · exact h.disable id hid
  · trivial
  · trivial

/-- The same for the uses of the options that every command has. -/
theorem OptionUse.isReadable_of_isGlobal {use : OptionUse} (h : use.isGlobal = true) :
    use.IsReadable := by
  cases use with
  | verbose | quiet | color | noConfig => trivial
  | _ => cases h

/-- Uses of an option that may be used again do not count. -/
theorem OptionUse.singleNames_eq_nil (h : ∀ use ∈ uses, use.isRepeatable = true) :
    singleNames uses = [] := by
  rw [singleNames, List.filter_eq_nil_iff.mpr fun use hmem => by simp [h use hmem], List.map_nil]

/-- At most one use counts at most once. -/
theorem OptionUse.singleNames_sublist {use : OptionUse} (h : uses.Sublist [use]) :
    (singleNames uses).Sublist [use.name] :=
  (List.filter_sublist.trans h).map name

/-- The same for a value that may be missing. -/
theorem OptionUse.singleNames_toList {α : Type} (write : α → OptionUse) {name : String}
    (hname : ∀ value, (write value).name = name) (value? : Option α) :
    (singleNames (value?.toList.map write)).Sublist [name] := by
  cases value? with
  | none => exact List.nil_sublist _
  | some value => exact hname value ▸ singleNames_sublist (List.Sublist.refl _)

/-- The same for a mark that may be missing. -/
theorem OptionUse.singleNames_ite (condition : Bool) (use : OptionUse) :
    (singleNames (if condition then [use] else [])).Sublist [use.name] := by
  cases condition with
  | false => exact List.nil_sublist _
  | true => exact singleNames_sublist (List.Sublist.refl _)

theorem GlobalOptions.singleNames_uses (general : GlobalOptions) :
    (singleNames general.uses).Sublist ["quiet", "color", "no-config"] := by
  have hverbose : singleNames (List.replicate general.verbosity .verbose) = [] :=
    singleNames_eq_nil fun use hmem => (List.mem_replicate.mp hmem).2 ▸ rfl
  have hcolor := singleNames_sublist (List.Sublist.refl [OptionUse.color general.color])
  rw [uses, singleNames_append, singleNames_append, singleNames_append, hverbose]
  exact ((singleNames_ite general.quiet .quiet).append hcolor).append
    (singleNames_ite general.noConfig .noConfig)

theorem CheckOptions.singleNames_uses (check : CheckOptions) :
    (singleNames check.uses).Sublist
      ["config", "format", "output", "max-line-length", "fail-on-warning"] := by
  have hconfig := singleNames_toList .config (fun _ => rfl) check.config
  have hformat := singleNames_sublist (List.Sublist.refl [OptionUse.format check.format])
  have houtput := singleNames_toList .output (fun _ => rfl) check.output
  have hlength := singleNames_toList .maxLineLength (fun _ => rfl) check.maxLineLength
  have hdisable : singleNames (check.disable.map .disable) = [] :=
    singleNames_eq_nil fun use hmem => by
      obtain ⟨_, -, rfl⟩ := List.mem_map.mp hmem
      rfl
  have hexclude : singleNames (check.exclude.map .exclude) = [] :=
    singleNames_eq_nil fun use hmem => by
      obtain ⟨_, -, rfl⟩ := List.mem_map.mp hmem
      rfl
  simp only [uses, singleNames_append, hdisable, hexclude, List.append_nil]
  exact (((hconfig.append hformat).append houtput).append hlength).append
    (singleNames_ite check.failOnWarning .failOnWarning)

/-- A written check uses no option again that can be used once. -/
theorem usedOnce_uses (general : GlobalOptions) (check : CheckOptions) :
    UsedOnce (general.uses ++ check.uses) := by
  have hsub := general.singleNames_uses.append check.singleNames_uses
  rw [← singleNames_append] at hsub
  exact hsub.nodup (by decide)

/-! ## Telling a check from its uses -/

/-- What is said once is found wherever it is said. -/
theorem findSome?_of_perm {α β : Type} {read : α → Option β} {sequence : List α} {value? : Option β}
    (h : (sequence.filterMap read).Perm value?.toList) : sequence.findSome? read = value? := by
  rw [← List.head?_filterMap]
  cases value? with
  | none => rw [List.perm_nil.mp h]; rfl
  | some value => rw [List.perm_singleton.mp h]; rfl

/-- What each part of a written check adds to what is collected from its uses. -/
theorem CheckOptions.filterMap_uses {α : Type} (read : OptionUse → Option α)
    (check : CheckOptions) :
    check.uses.filterMap read =
      check.config.toList.filterMap (fun path => read (.config path)) ++
        (read (.format check.format)).toList ++
        check.output.toList.filterMap (fun path => read (.output path)) ++
        check.maxLineLength.toList.filterMap (fun number => read (.maxLineLength number)) ++
        check.disable.filterMap (fun id => read (.disable id)) ++
        check.exclude.filterMap (fun pattern => read (.exclude pattern)) ++
        (if check.failOnWarning then (read .failOnWarning).toList else []) := by
  have hsingle : ∀ use : OptionUse, [use].filterMap read = (read use).toList := fun use => by
    rw [List.filterMap_cons, List.filterMap_nil]
    cases read use <;> rfl
  rw [uses]
  simp only [List.filterMap_append, List.filterMap_map, apply_ite (List.filterMap read),
    List.filterMap_nil, hsingle]
  rfl

/-- No option of a check chooses when output is coloured. -/
theorem OptionUse.color?_eq_none {use : OptionUse} (h : use.isGlobal = false) :
    use.color? = none := by
  cases use with
  | color => cases h
  | _ => rfl

/-- The options of every command are told from their uses in any order, whatever options of a check
stand between them. -/
theorem GlobalDraft.ofUses_of_perm (hmax : general.verbosity ≤ CommandLine.maxVerbosity)
    (hothers : ∀ use ∈ others, use.isGlobal = false) (horder : uses.Perm (general.uses ++ others)) :
    GlobalDraft.ofUses uses =
      { verbosity := general.verbosity, quiet := general.quiet, color := some general.color
        noConfig := general.noConfig } := by
  have habsent : ∀ use : OptionUse, use.isGlobal = true → use ∉ others := fun use hglobal hmem =>
    absurd (hothers use hmem) (by simp [hglobal])
  have hverbose : uses.count .verbose = general.verbosity := by
    rw [horder.count_eq, List.count_append, List.count_eq_zero.mpr (habsent .verbose rfl)]
    simp [GlobalOptions.uses, apply_ite (List.count _)]
  have hquiet : .quiet ∈ uses ↔ general.quiet = true := by
    simp [horder.mem_iff, habsent .quiet rfl, GlobalOptions.uses]
  have hnoConfig : .noConfig ∈ uses ↔ general.noConfig = true := by
    simp [horder.mem_iff, habsent .noConfig rfl, GlobalOptions.uses]
  have hcolor : uses.findSome? color? = some general.color := by
    have hnone : others.filterMap color? = [] :=
      List.filterMap_eq_nil_iff.mpr fun use hmem => color?_eq_none (hothers use hmem)
    refine findSome?_of_perm ((horder.filterMap color?).trans (.of_eq ?_))
    rw [List.filterMap_append, hnone]
    simp [GlobalOptions.uses, apply_ite (List.filterMap _), List.filterMap_replicate,
      List.filterMap_cons]
  simp [GlobalDraft.ofUses, hverbose, hquiet, hnoConfig, hcolor, hmax]

/-- The options of a check are told from their uses in any order that keeps the order of what is
collected, whatever options that every command has stand between them. -/
theorem CheckDraft.ofUses_of_perm (hothers : ∀ use ∈ others, use.isGlobal = true)
    (horder : uses.Perm (others ++ check.uses)) (hkeeps : check.KeepsOrder uses) :
    CheckDraft.ofUses uses =
      { config := check.config, format := some check.format, output := check.output
        maxLineLength := check.maxLineLength, disable := check.disable, exclude := check.exclude
        failOnWarning := check.failOnWarning } := by
  have hfind : ∀ {α : Type} {read : OptionUse → Option α} {value? : Option α},
      (∀ use, use.isGlobal = true → read use = none) →
      check.uses.filterMap read = value?.toList → uses.findSome? read = value? := by
    intro α read value? hread hwritten
    have hnone : others.filterMap read = [] :=
      List.filterMap_eq_nil_iff.mpr fun use hmem => hread use (hothers use hmem)
    have hall := horder.filterMap read
    rw [List.filterMap_append, hnone, List.nil_append, hwritten] at hall
    exact findSome?_of_perm hall
  have hconfig : uses.findSome? config? = check.config :=
    hfind (fun use _ => by cases use <;> trivial) (by simp [CheckOptions.filterMap_uses])
  have hformat : uses.findSome? format? = some check.format :=
    hfind (fun use _ => by cases use <;> trivial) (by simp [CheckOptions.filterMap_uses])
  have houtput : uses.findSome? output? = check.output :=
    hfind (fun use _ => by cases use <;> trivial) (by simp [CheckOptions.filterMap_uses])
  have hlength : uses.findSome? maxLineLength? = check.maxLineLength :=
    hfind (fun use _ => by cases use <;> trivial) (by simp [CheckOptions.filterMap_uses])
  have hmark : .failOnWarning ∈ uses ↔ check.failOnWarning = true := by
    have habsent : .failOnWarning ∉ others := fun hmem =>
      absurd (hothers _ hmem) Bool.false_ne_true
    simp [horder.mem_iff, habsent, CheckOptions.uses]
  simp [CheckDraft.ofUses, hconfig, hformat, houtput, hlength, hmark, hkeeps.disable,
    hkeeps.exclude]

/-- Options of a check say nothing about every command. -/
theorem GlobalDraft.ofUses_eq_default (h : ∀ use ∈ uses, use.isGlobal = false) :
    GlobalDraft.ofUses uses = {} := by
  have habsent : ∀ use : OptionUse, use.isGlobal = true → use ∉ uses := fun use hglobal hmem =>
    absurd (h use hmem) (by simp [hglobal])
  have hcolor : uses.findSome? color? = none :=
    List.findSome?_eq_none_iff.mpr fun use hmem => color?_eq_none (h use hmem)
  simp [GlobalDraft.ofUses, List.count_eq_zero.mpr (habsent .verbose rfl), habsent .quiet rfl,
    habsent .noConfig rfl, hcolor]

theorem GlobalDraft.default_within (outer : GlobalDraft) : GlobalDraft.within {} outer = outer := by
  simp [GlobalDraft.within]

theorem GlobalDraft.within_default (inner : GlobalDraft) : inner.within {} = inner := by
  obtain ⟨verbosity, quiet, color, noConfig⟩ := inner
  cases verbosity <;> simp [GlobalDraft.within]

/-! ## Command lines -/

/-- **A check is read back from its command line, in whatever order its options stand**: with the
options that every command has before the name of the command, and with all options after it. Only
the values of `--disable` and those of `--exclude` keep their order. -/
theorem ofArguments_rendered (hmax : general.verbosity ≤ CommandLine.maxVerbosity)
    (hcheck : check.IsRenderable) :
    (∀ globals own : List OptionUse, globals.Perm general.uses → own.Perm check.uses →
      check.KeepsOrder own →
      Invocation.ofArguments
          (globals.map argument ++ "check" :: (own.map argument ++ ["--", check.path])) =
        .ok { options := general, command := .check check }) ∧
    (∀ uses : List OptionUse, uses.Perm (general.uses ++ check.uses) → check.KeepsOrder uses →
      Invocation.ofArguments ("check" :: (uses.map argument ++ ["--", check.path])) =
        .ok { options := general, command := .check check }) := by
  have honce := usedOnce_uses general check
  constructor
  · intro globals own hglobals hown hkeeps
    obtain ⟨hgeneral, hchecked⟩ := honce.of_append
    have hread := CommandLine.ofArguments_uses
      (fun use hmem => general.isGlobal_uses use (hglobals.mem_iff.mp hmem))
      (UsedOnce.of_perm hgeneral hglobals) (UsedOnce.of_perm hchecked hown)
      (fun use hmem => hcheck.isReadable_uses use (hown.mem_iff.mp hmem)) hcheck.path
    -- each level says what belongs to it and nothing else
    have hbefore : globals.Perm (general.uses ++ []) := by simpa using hglobals
    have hafter : own.Perm ([] ++ check.uses) := hown
    have hsilent : ∀ use ∈ own, use.isGlobal = false := fun use hmem =>
      check.isGlobal_uses use (hown.mem_iff.mp hmem)
    rw [GlobalDraft.ofUses_eq_default hsilent, GlobalDraft.default_within,
      GlobalDraft.ofUses_of_perm hmax (List.forall_mem_nil _) hbefore,
      CheckDraft.ofUses_of_perm (List.forall_mem_nil _) hafter hkeeps] at hread
    exact hread
  · intro uses horder hkeeps
    have hreadable : ∀ use ∈ uses, use.IsReadable := by
      intro use hmem
      rcases List.mem_append.mp (horder.mem_iff.mp hmem) with hglobal | hown
      · exact isReadable_of_isGlobal (general.isGlobal_uses use hglobal)
      · exact hcheck.isReadable_uses use hown
    have hread := CommandLine.ofArguments_uses (List.forall_mem_nil _) List.nodup_nil
      (honce.of_perm horder) hreadable hcheck.path
    rw [GlobalDraft.ofUses_eq_default (List.forall_mem_nil _), GlobalDraft.within_default,
      GlobalDraft.ofUses_of_perm hmax check.isGlobal_uses horder,
      CheckDraft.ofUses_of_perm general.isGlobal_uses horder hkeeps] at hread
    exact hread

/-- Options that every command has, all of them chosen. -/
def chosenOptions : GlobalOptions where
  verbosity := 2
  quiet := true
  color := .never
  noConfig := true

/-- A check whose values look like options, separators and lists. -/
def trickyCheck : CheckOptions where
  path := "--disable"
  config := some "-c=--"
  format := .github
  output := some "--output"
  maxLineLength := some Settings.maxNumber
  disable := ["R9", "=R1"]
  exclude := ["--", "a,b"]
  failOnWarning := true

theorem trickyCheck_isRenderable : trickyCheck.IsRenderable where
  path := by decide
  config := by decide
  output := by decide
  maxLineLength := by decide
  disable := by decide

theorem ofArguments_rendered_tricky :
    Invocation.ofArguments
        ["--no-config", "-v", "--color=never", "--quiet", "-v", "check", "--exclude=--",
          "--fail-on-warning", "--disable=R9", "--max-line-length=18446744073709551615",
          "--output=--output", "--exclude=a,b", "--format=github", "--disable==R1",
          "--config=-c=--", "--", "--disable"] =
      .ok { options := chosenOptions, command := .check trickyCheck } ∧
    Invocation.ofArguments
        ["check", "--exclude=--", "-v", "--no-config", "--disable=R9", "--fail-on-warning", "-v",
          "--config=-c=--", "--exclude=a,b", "--quiet", "--disable==R1", "--format=github",
          "--color=never", "--output=--output", "--max-line-length=18446744073709551615", "--",
          "--disable"] =
      .ok { options := chosenOptions, command := .check trickyCheck } := by
  have hmax : chosenOptions.verbosity ≤ CommandLine.maxVerbosity := by decide
  have hread := ofArguments_rendered hmax trickyCheck_isRenderable
  let globals : List OptionUse := [.noConfig, .verbose, .color .never, .quiet, .verbose]
  let own : List OptionUse := [.exclude "--", .failOnWarning, .disable "R9",
    .maxLineLength Settings.maxNumber, .output "--output", .exclude "a,b", .format .github,
    .disable "=R1", .config "-c=--"]
  let uses : List OptionUse := [.exclude "--", .verbose, .noConfig, .disable "R9", .failOnWarning,
    .verbose, .config "-c=--", .exclude "a,b", .quiet, .disable "=R1", .format .github,
    .color .never, .output "--output", .maxLineLength Settings.maxNumber]
  exact ⟨hread.1 globals own (by decide) (by decide) ⟨by decide, by decide⟩,
    hread.2 uses (by decide) ⟨by decide, by decide⟩⟩

end ScriptLint
