import ScriptLint.CommandLine.Parser
import ScriptLint.Proofs.Json.Literals
import ScriptLint.Proofs.Text.Lines

/-!
# Options as they are used

The options of a check can be written one by one, each as an argument of its own: a mark as it is, a
value after an equals sign. What a list of such arguments says can be told without reading them one
after the other. An option that is used once stands for itself wherever it stands, the uses of an
option that counts are counted, and the values of an option that collects are in the order of its
uses.

The reading of a level agrees with this. It holds what the arguments so far say, and with one more
argument it holds what they say together with that one, provided that no option is used again that
can be used once.
-/

namespace ScriptLint

/-- The name that chooses when output is coloured. -/
def ColorMode.name : ColorMode → String
  | auto => "auto"
  | always => "always"
  | never => "never"

/-- One use of an option, with its value if it has one. -/
inductive OptionUse where
  | verbose
  | quiet
  | color (mode : ColorMode)
  | noConfig
  | config (path : String)
  | format (chosen : ReportFormat)
  | output (path : String)
  | maxLineLength (number : Nat)
  | disable (id : String)
  | exclude (pattern : String)
  | failOnWarning
  deriving DecidableEq, Repr

namespace OptionUse

/-- The name of the option. -/
def name : OptionUse → String
  | verbose => "verbose"
  | quiet => "quiet"
  | color _ => "color"
  | noConfig => "no-config"
  | config _ => "config"
  | format _ => "format"
  | output _ => "output"
  | maxLineLength _ => "max-line-length"
  | disable _ => "disable"
  | exclude _ => "exclude"
  | failOnWarning => "fail-on-warning"

/-- The value that is written after the equals sign. -/
@[simp]
def value? : OptionUse → Option String
  | color mode => some mode.name
  | config path => some path
  | format chosen => some chosen.name
  | output path => some path
  | maxLineLength number => some number.repr
  | disable id => some id
  | exclude pattern => some pattern
  | verbose | quiet | noConfig | failOnWarning => none

/-- The argument that uses the option. -/
def argument (use : OptionUse) : String :=
  match use, use.value? with
  | verbose, _ => "-v"
  | _, some value => "--" ++ use.name ++ "=" ++ value
  | _, none => "--" ++ use.name

/-- Whether every command has the option. -/
def isGlobal : OptionUse → Bool
  | verbose | quiet | color _ | noConfig => true
  | _ => false

/-- Whether the option may be used again. -/
def isRepeatable (use : OptionUse) : Bool :=
  ["verbose", "disable", "exclude"].contains use.name

/-- Whether the value can be told from its text. -/
def IsReadable : OptionUse → Prop
  | config path => path ≠ ""
  | output path => path ≠ ""
  | maxLineLength number => number ≤ Settings.maxNumber
  | disable id => ',' ∉ id.toList
  | _ => True

@[simp]
def color? : OptionUse → Option ColorMode
  | color mode => some mode
  | _ => none

@[simp]
def config? : OptionUse → Option String
  | config path => some path
  | _ => none

@[simp]
def format? : OptionUse → Option ReportFormat
  | format chosen => some chosen
  | _ => none

@[simp]
def output? : OptionUse → Option String
  | output path => some path
  | _ => none

@[simp]
def maxLineLength? : OptionUse → Option Nat
  | maxLineLength number => some number
  | _ => none

@[simp]
def disable? : OptionUse → Option String
  | disable id => some id
  | _ => none

@[simp]
def exclude? : OptionUse → Option String
  | exclude pattern => some pattern
  | _ => none

end OptionUse

/-! ## What uses say -/

/-- What the uses say about the options that every command has. -/
def GlobalDraft.ofUses (uses : List OptionUse) : GlobalDraft where
  verbosity := min (uses.count .verbose) CommandLine.maxVerbosity
  quiet := decide (.quiet ∈ uses)
  color := uses.findSome? OptionUse.color?
  noConfig := decide (.noConfig ∈ uses)

/-- What the uses say about the options of a check. -/
def CheckDraft.ofUses (uses : List OptionUse) : CheckDraft where
  config := uses.findSome? OptionUse.config?
  format := uses.findSome? OptionUse.format?
  output := uses.findSome? OptionUse.output?
  maxLineLength := uses.findSome? OptionUse.maxLineLength?
  disable := uses.filterMap OptionUse.disable?
  exclude := uses.filterMap OptionUse.exclude?
  failOnWarning := decide (.failOnWarning ∈ uses)

namespace OptionUse

/-- The option is not used before, unless it may be used again. -/
def IsNew (before : List OptionUse) (use : OptionUse) : Prop :=
  use.isRepeatable = false → ∀ earlier ∈ before, earlier.name ≠ use.name

/-- The names of the options that are used and can be used once, as often as they are used. -/
def singleNames (uses : List OptionUse) : List String :=
  (uses.filter fun use => !use.isRepeatable).map name

theorem singleNames_append (uses others : List OptionUse) :
    singleNames (uses ++ others) = singleNames uses ++ singleNames others := by
  rw [singleNames, List.filter_append, List.map_append]
  rfl

/-- No option is used again that can be used once. -/
def UsedOnce (uses : List OptionUse) : Prop :=
  (singleNames uses).Nodup

theorem UsedOnce.isNew {before after : List OptionUse} {use : OptionUse}
    (h : UsedOnce (before ++ use :: after)) : IsNew before use := by
  intro hsingle earlier hearlier hname
  have hagain : earlier.isRepeatable = false := by rw [isRepeatable, hname]; exact hsingle
  rw [UsedOnce, singleNames_append, List.nodup_append] at h
  refine h.2.2 earlier.name (List.mem_map_of_mem ?_) use.name (List.mem_map_of_mem ?_) hname
  · simp [hearlier, hagain]
  · simp [hsingle]

theorem UsedOnce.of_append {uses others : List OptionUse} (h : UsedOnce (uses ++ others)) :
    UsedOnce uses ∧ UsedOnce others := by
  rw [UsedOnce, singleNames_append, List.nodup_append] at h
  exact ⟨h.1, h.2.1⟩

theorem UsedOnce.of_perm {uses others : List OptionUse} (h : UsedOnce others)
    (hperm : uses.Perm others) : UsedOnce uses :=
  ((hperm.filter _).map name).nodup_iff.mpr h

end OptionUse

/-! ## Arguments -/

section Arguments

variable {name : String}

/-- After two dashes there is a name up to the first equals sign. -/
theorem ofText_eq_long (hname : '=' ∉ name.toList) (hne : name ≠ "") (attached : Option String) :
    Argument.ofText ("--" ++ name ++ (attached.map ("=" ++ ·)).getD "") = .long name attached := by
  let rest : List Char := ((attached.map ("=" ++ ·)).getD "").toList
  have htext : ("--" ++ name ++ (attached.map ("=" ++ ·)).getD "").toList =
      '-' :: '-' :: (name.toList ++ rest) := by simp [rest]
  have hall : ∀ c ∈ name.toList, (c != '=') = true := by
    intro c hc
    rw [bne_iff_ne]
    rintro rfl
    exact hname hc
  have htaken : (name.toList ++ rest).takeWhile (· != '=') = name.toList := by
    rw [List.takeWhile_append_of_pos hall]
    cases attached <;> simp [rest]
  obtain ⟨c, more, hcons⟩ := List.exists_cons_of_ne_nil
    (show name.toList ++ rest ≠ [] by simp [hne])
  rw [Argument.ofText, htext, hcons]
  show Argument.long (String.ofList ((c :: more).takeWhile (· != '='))) _ = _
  rw [← hcons, htaken, String.ofList_toList, List.drop_left]
  cases attached <;> simp [rest]

end Arguments

namespace OptionUse

/-- The names of all options. -/
def names : List String :=
  ["verbose", "quiet", "color", "no-config", "config", "format", "output", "max-line-length",
   "disable", "exclude", "fail-on-warning"]

theorem name_mem_names (use : OptionUse) : use.name ∈ names := by
  cases use <;> simp [names, name]

theorem names_wellFormed : ∀ name ∈ names, '=' ∉ name.toList ∧ name ≠ "" := by
  decide

/-- What the argument that uses an option looks like. -/
theorem ofText_argument {use : OptionUse} (h : use ≠ .verbose) :
    Argument.ofText use.argument = .long use.name use.value? := by
  obtain ⟨hname, hne⟩ := names_wellFormed use.name use.name_mem_names
  have hargument : use.argument = "--" ++ use.name ++ (use.value?.map ("=" ++ ·)).getD "" := by
    cases use <;> simp [argument, value?, String.append_assoc] at h ⊢
  rw [hargument, ofText_eq_long hname hne]

end OptionUse

/-! ## One use more -/

namespace OptionUse

variable {before : List OptionUse} {use : OptionUse}

/-- Nothing is said so far about an option that is new and can be used once. -/
theorem IsNew.findSome?_eq_none {α : Type} (h : IsNew before use)
    (hsingle : use.isRepeatable = false) {read : OptionUse → Option α}
    (hread : ∀ other, other.name ≠ use.name → read other = none) :
    before.findSome? read = none :=
  List.findSome?_eq_none_iff.mpr fun earlier hearlier => hread earlier (h hsingle earlier hearlier)

/-- An option that is new and can be used once was not used. -/
theorem IsNew.notMem (h : IsNew before use) (hsingle : use.isRepeatable = false) : use ∉ before :=
  fun hmem => h hsingle use hmem rfl

end OptionUse

namespace Grammar

variable {α : Type}

/-- An option with all that belongs to it is stored at once. -/
theorem takeOption_complete {option : OptionSpec α} {attached : Option String}
    (h : option.takesValue = attached.isSome) (draft : α) :
    takeOption { draft } option attached =
      (option.store (attached.getD "") draft).map fun draft => { draft } := by
  cases attached <;> rw [takeOption.eq_def, h] <;> rfl

/-- A use is stored at once if the level knows its option. -/
theorem take_argument (use : OptionUse) (hne : use ≠ .verbose) {grammar : Grammar α}
    {option : OptionSpec α}
    (hfind : grammar.options.find? (fun option => option.long == use.name) = some option)
    (htakes : option.takesValue = use.value?.isSome) (draft : α) :
    grammar.take { draft } use.argument =
      (option.store (use.value?.getD "") draft).map fun draft => { draft } := by
  rw [take, if_neg Bool.false_ne_true, OptionUse.ofText_argument hne]
  dsimp only
  rw [takeLong, hfind]
  exact takeOption_complete htakes draft

/-- The same for the option that is used by a letter. -/
theorem take_verbose {grammar : Grammar α} {option : OptionSpec α}
    (hfind : grammar.options.find? (fun option => option.short == some 'v') = some option)
    (htakes : option.takesValue = false) (draft : α) :
    grammar.take { draft } OptionUse.verbose.argument =
      (option.store "" draft).map fun draft => { draft } := by
  have htext : Argument.ofText OptionUse.verbose.argument = .short ['v'] := by decide
  have hstored : takeOption { draft } option none =
      (option.store "" draft).map fun draft => { draft } := takeOption_complete htakes draft
  rw [take, if_neg Bool.false_ne_true, htext]
  dsimp only
  rw [takeShort, hfind]
  dsimp only
  rw [if_neg (by simp [htakes]), hstored]
  -- there is no letter after this one
  cases option.store "" draft <;> rfl

end Grammar

/-- A level knows the options that every command has. -/
structure Grammar.KnowsGlobals {α : Type} (grammar : Grammar (Draft α)) : Prop where
  verbose : grammar.options.find? (fun option => option.short == some 'v') =
    (CommandLine.globalOptions α).find? fun option => option.short == some 'v'
  others : ∀ name ∈ ["quiet", "color", "no-config"],
    grammar.options.find? (fun option => option.long == name) =
      (CommandLine.globalOptions α).find? fun option => option.long == name

namespace CommandLine

theorem knowsGlobals_rootGrammar : rootGrammar.KnowsGlobals where
  verbose := rfl
  others := by
    intro name hname
    simp only [List.mem_cons, List.not_mem_nil, or_false] at hname
    rcases hname with rfl | rfl | rfl <;> rfl

theorem knowsGlobals_checkGrammar : checkGrammar.KnowsGlobals where
  verbose := rfl
  others := by
    intro name hname
    simp only [List.mem_cons, List.not_mem_nil, or_false] at hname
    rcases hname with rfl | rfl | rfl <;> rfl

theorem readColor_name (mode : ColorMode) : readColor mode.name = .ok mode := by
  cases mode <;> rfl

/-- A level that knows the options of every command takes up a use of one of them. -/
theorem take_global {α : Type} {grammar : Grammar (Draft α)} (hknows : grammar.KnowsGlobals)
    {before : List OptionUse} {use : OptionUse} (hnew : OptionUse.IsNew before use)
    (hglobal : use.isGlobal = true) (own : α) :
    grammar.take { draft := { globals := .ofUses before, own } } use.argument =
      .ok { draft := { globals := .ofUses (before ++ [use]), own } } := by
  have hothers := hknows.others
  simp only [List.forall_mem_cons] at hothers
  obtain ⟨hquiet, hcolor, hnoConfig, -⟩ := hothers
  cases use with
  | verbose =>
      have hcount : min (min (before.count .verbose) maxVerbosity + 1) maxVerbosity =
          min (before.count .verbose + 1) maxVerbosity := by omega
      rw [Grammar.take_verbose (hknows.verbose.trans rfl) rfl]
      simp [storeGlobal, GlobalDraft.ofUses, Except.map, OptionUse.color?, hcount]
  | quiet =>
      have hunset : OptionUse.quiet ∉ before := hnew.notMem rfl
      rw [Grammar.take_argument .quiet nofun (hquiet.trans rfl) rfl]
      simp [storeGlobal, GlobalDraft.ofUses, Except.map, OptionUse.color?, mark, hunset]
  | color mode =>
      have hunset : before.findSome? OptionUse.color? = none := by
        refine hnew.findSome?_eq_none rfl fun other hother => ?_
        cases other with
        | color => exact absurd rfl hother
        | _ => rfl
      rw [Grammar.take_argument (.color mode) nofun (hcolor.trans rfl) rfl]
      simp [storeGlobal, GlobalDraft.ofUses, Except.map, OptionUse.color?, OptionUse.value?, once,
        hunset, readColor_name]
  | noConfig =>
      have hunset : OptionUse.noConfig ∉ before := hnew.notMem rfl
      rw [Grammar.take_argument .noConfig nofun (hnoConfig.trans rfl) rfl]
      simp [storeGlobal, GlobalDraft.ofUses, Except.map, OptionUse.color?, mark, hunset]
  | _ => cases hglobal

theorem readFormat_name (chosen : ReportFormat) : readFormat chosen.name = .ok chosen := by
  cases chosen <;> rfl

/-- A number is read back from its digits. -/
theorem readNumber_repr {n : Nat} (h : n ≤ Settings.maxNumber) : readNumber n.repr = .ok n := by
  have hdigit : ∀ c ∈ Nat.toDigits 10 n, c.isDigit = true := fun c => isDigit_of_mem_toDigits
  -- no digit is a sign, so the whole text is taken for the number
  have hsign : ∀ rest, Nat.toDigits 10 n ≠ '+' :: rest := fun rest heq =>
    absurd (hdigit '+' (by simp [heq])) (by decide)
  have hall : (Nat.toDigits 10 n).all Char.isDigit = true := List.all_eq_true.mpr hdigit
  unfold readNumber
  extract_lets digits
  have hdigits : digits = Nat.toDigits 10 n := by simp only [digits, Nat.toList_repr]
  rw [hdigits, hall, valueOfDigits_toDigits]
  simp [h, Nat.toDigits_ne_nil]

/-- A text without commas is a list of one. -/
theorem readList_of_notMem {id : String} (h : ',' ∉ id.toList) : readList id = [id] := by
  rw [readList, cutAt_of_notMem ',' h, List.map_singleton, String.ofList_toList]

/-- The level of a check takes up a use of one of its own options. -/
theorem take_own {before : List OptionUse} {use : OptionUse} (hnew : OptionUse.IsNew before use)
    (hown : use.isGlobal = false) (hreadable : use.IsReadable) (globals : GlobalDraft) :
    checkGrammar.take { draft := { globals, own := .ofUses before } } use.argument =
      .ok { draft := { globals, own := .ofUses (before ++ [use]) } } := by
  cases use with
  | config path =>
      have hunset : before.findSome? OptionUse.config? = none :=
        hnew.findSome?_eq_none rfl fun other hother => by
          cases other <;> first | rfl | exact absurd rfl hother
      have hpath : path ≠ "" := hreadable
      rw [Grammar.take_argument (.config path) nofun rfl rfl]
      simp [storeOwn, CheckDraft.ofUses, Except.map, once, hunset, readPath, hpath]
  | format chosen =>
      have hunset : before.findSome? OptionUse.format? = none :=
        hnew.findSome?_eq_none rfl fun other hother => by
          cases other <;> first | rfl | exact absurd rfl hother
      rw [Grammar.take_argument (.format chosen) nofun rfl rfl]
      simp [storeOwn, CheckDraft.ofUses, Except.map, once, hunset, readFormat_name]
  | output path =>
      have hunset : before.findSome? OptionUse.output? = none :=
        hnew.findSome?_eq_none rfl fun other hother => by
          cases other <;> first | rfl | exact absurd rfl hother
      have hpath : path ≠ "" := hreadable
      rw [Grammar.take_argument (.output path) nofun rfl rfl]
      simp [storeOwn, CheckDraft.ofUses, Except.map, once, hunset, readPath, hpath]
  | maxLineLength number =>
      have hunset : before.findSome? OptionUse.maxLineLength? = none :=
        hnew.findSome?_eq_none rfl fun other hother => by
          cases other <;> first | rfl | exact absurd rfl hother
      have hread := readNumber_repr (show number ≤ Settings.maxNumber from hreadable)
      rw [Grammar.take_argument (.maxLineLength number) nofun rfl rfl]
      simp [storeOwn, CheckDraft.ofUses, Except.map, once, hunset, hread]
  | disable id =>
      have hlist := readList_of_notMem (show ',' ∉ id.toList from hreadable)
      rw [Grammar.take_argument (.disable id) nofun rfl rfl]
      simp [storeOwn, CheckDraft.ofUses, Except.map, hlist]
  | exclude pattern =>
      rw [Grammar.take_argument (.exclude pattern) nofun rfl rfl]
      simp [storeOwn, CheckDraft.ofUses, Except.map]
  | failOnWarning =>
      have hunset : OptionUse.failOnWarning ∉ before := hnew.notMem rfl
      rw [Grammar.take_argument .failOnWarning nofun rfl rfl]
      simp [storeOwn, CheckDraft.ofUses, Except.map, mark, hunset]
  | verbose | quiet | color | noConfig => cases hown

end CommandLine

end ScriptLint
