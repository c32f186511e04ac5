import ScriptLint.Proofs.CommandOutcomes

/-!
# Presentation

Verbosity, quietness and colours concern what a check says about its results, and not the results.
Verbosity adds infos to the notices. Quietness withholds a report that would be printed. Colours
change the report for readers, and that one only. A coloured report is longer, so it may not fit
into a file that takes only so many bytes. Apart from that no check ends otherwise for its colours.

All three are among the options that every command has. A check hands these options to four places,
which are taken up one by one: the notices on the settings, those on the analysis, the report and
its delivery.
-/

namespace ScriptLint

/-! ## Notices -/

namespace Notice

def isInfo : Notice → Bool
  | info _ => true
  | _ => false

/-- The notices that are given whether or not more is told. -/
def lasting (notices : List Notice) : List Notice :=
  notices.filter fun notice => !notice.isInfo

/-- All of the fewer notices are among the others, in their order, and what is added are infos. -/
structure AddsInfos (fewer more : List Notice) : Prop where
  sublist : fewer.Sublist more
  lasting : lasting more = lasting fewer

namespace AddsInfos

theorem refl (notices : List Notice) : AddsInfos notices notices :=
  ⟨.refl notices, rfl⟩

theorem append {fewer more fewer' more' : List Notice} (h : AddsInfos fewer more)
    (h' : AddsInfos fewer' more') : AddsInfos (fewer ++ fewer') (more ++ more') := by
  refine ⟨h.sublist.append h'.sublist, ?_⟩
  rw [Notice.lasting, List.filter_append, Notice.lasting, List.filter_append]
  exact congrArg₂ (· ++ ·) h.lasting h'.lasting

end AddsInfos

end Notice

open Notice (AddsInfos)

attribute [ext] Outcome

namespace CheckOptions

variable {options : CheckOptions} {general general' : GlobalOptions} {files : FileSystem}
  {onTerminal : Bool}

/-! ## Reports -/

/-- The reports of two checks do not differ, or the output file has room for either. -/
def ReportsFit (options : CheckOptions) (general general' : GlobalOptions) (files : FileSystem) :
    Prop :=
  (options.format = .text → (general'.color = .always ↔ general.color = .always)) ∨
    ∀ path, options.output = some path → files.HasRoom path

theorem ReportsFit.symm (h : options.ReportsFit general general' files) :
    options.ReportsFit general' general files :=
  h.imp_left fun hcolor hformat => (hcolor hformat).symm

end CheckOptions

end ScriptLint
