import Mathlib.Data.Option.Basic
import ScriptLint.Proofs.Json.Literals
import ScriptLint.Proofs.Text.Lines
import ScriptLint.Proofs.Text.Replacement
import ScriptLint.Report.Annotation

/-!
# Annotations read back

The service that reads annotations breaks a line at the delimiters of its parts and replaces the
percent escapes. Whatever texts a finding holds, reading its annotation gives the finding back: the
delimiters of a part are escaped in it, and so are line breaks, so that no text starts a line or a
part of its own. A report has one annotation for each finding, and no other line looks like one.
-/

namespace ScriptLint

/-! ## Lines that are ended -/

/-- The text in which each line is ended by a line feed. -/
def endedLines (lines : List String) : String :=
  String.join (lines.map (· ++ "\n"))

theorem endedLines_cons (line : String) (lines : List String) :
    endedLines (line :: lines) = line ++ "\n" ++ endedLines lines := by
  simp [endedLines]

theorem endedLines_append (lines lines' : List String) :
    endedLines (lines ++ lines') = endedLines lines ++ endedLines lines' := by
  simp [endedLines]

/-- After the last line feed there is an empty line. -/
theorem linesOf_endedLines {lines : List String} (h : ∀ line ∈ lines, '\n' ∉ line.toList) :
    linesOf (endedLines lines) = lines.map String.toList ++ [[]] := by
  induction lines with
  | nil => rfl
  | cons line lines ih =>
      obtain ⟨hline, hlines⟩ := List.forall_mem_cons.mp h
      have hself : linesOf line = [line.toList] := cutAt_of_notMem '\n' hline
      rw [endedLines_cons, linesOf_append, hself, ih hlines]
      rfl

namespace Annotation

/-! ## Reading annotations -/

/-- The escapes, with what they stand for. They are replaced in this order, so that the escape of
the percent sign comes last. -/
def escapes : List (List Char × Char) :=
  [("%3A".toList, ':'), ("%2C".toList, ','), ("%0D".toList, '\r'), ("%0A".toList, '\n'),
   ("%25".toList, '%')]

def unescaped (text : List Char) : List Char :=
  escapes.foldl (fun text escape => replaceAll escape.1 [escape.2] text) text

/-- What an annotation says. -/
structure Reading where
  level : String
  file : String
  line : Nat
  title : String
  message : String
  deriving DecidableEq, Repr

/-- The name and the value of a property. -/
def property? (part : List Char) : Option (String × String) :=
  (breakAt? ['='] part).map fun sides =>
    (String.ofList sides.1, String.ofList (unescaped sides.2))

/-- The number that a text spells. -/
def number? (text : String) : Option Nat :=
  if !text.toList.isEmpty && text.toList.all Char.isDigit then some (valueOfDigits text.toList)
  else none

/-- Reads a line as an annotation: two colons, the level up to the first blank, properties with
commas between them up to the next two colons, and the message. -/
def read? (line : List Char) : Option Reading := do
  let (start, command) ← breakAt? "::".toList line
  guard start.isEmpty
  let (level, arguments) ← breakAt? [' '] command
  let (listed, message) ← breakAt? "::".toList arguments
  let properties ← (cutAt ',' listed).mapM property?
  return {
    level := String.ofList level
    file := ← properties.lookup "file"
    line := ← number? (← properties.lookup "line")
    title := ← properties.lookup "title"
    message := String.ofList (unescaped message) }

/-- What the annotation of a finding should say. -/
def Reading.ofFinding (finding : Finding) : Reading where
  level :=
    match finding.severity with
    | .error => "error"
    | .warning => "warning"
    | .info => "notice"
  file := finding.file
  line := finding.line
  title := "[" ++ finding.ruleId ++ "] " ++ finding.ruleName
  message := finding.message

/-! ## Escapes -/

theorem isCoded_escapedInMessage (c : Char) : IsCoded '%' 2 (escapedInMessage c) := by
  unfold escapedInMessage
  split
  · exact .code rfl (by decide)
  · exact .code rfl (by decide)
  · exact .code rfl (by decide)
  · next hpercent _ _ => exact .plain hpercent

theorem isCoded_escapedInProperty (c : Char) : IsCoded '%' 2 (escapedInProperty c) := by
  unfold escapedInProperty
  split
  · exact .code rfl (by decide)
  · exact .code rfl (by decide)
  · exact isCoded_escapedInMessage c

/-- The escapes but for that of the percent sign. -/
def plainEscapes : List (List Char × Char) :=
  escapes.dropLast

/-- What is left of one written character when escapes are replaced. -/
def reduced (escapes : List (List Char × Char)) (word : List Char) : List Char :=
  escapes.foldl (fun word escape => if word = escape.1 then [escape.2] else word) word

/-- Escapes that stand for other characters than the percent sign are replaced one by one. -/
theorem foldl_replaceAll {escapes : List (List Char × Char)}
    (hescapes : ∀ escape ∈ escapes, escape.2 ≠ '%' ∧ ∃ body, body.length = 2 ∧
      escape.1 = '%' :: body)
    {f : Char → List Char} (hf : ∀ c, IsCoded '%' 2 (f c)) (text : List Char) :
    escapes.foldl (fun text escape => replaceAll escape.1 [escape.2] text) (text.flatMap f) =
        text.flatMap (fun c => reduced escapes (f c)) ∧
      ∀ c, IsCoded '%' 2 (reduced escapes (f c)) := by
  induction escapes generalizing f with
  | nil => exact ⟨rfl, hf⟩
  | cons escape escapes ih =>
      obtain ⟨⟨hplain, body, hsize, hcode⟩, hrest⟩ := List.forall_mem_cons.mp hescapes
      have hstep := replaceAll_flatMap hsize hf [escape.2] text
      rw [← hcode] at hstep
      rw [List.foldl_cons, hstep]
      exact ih hrest (isCoded_replaced hf hplain escape.1)

theorem unescaped_flatMap {f : Char → List Char} (hf : ∀ c, IsCoded '%' 2 (f c))
    (text : List Char) :
    unescaped (text.flatMap f) = text.flatMap fun c => reduced escapes (f c) := by
  have hsplit : escapes = plainEscapes ++ [("%25".toList, '%')] := rfl
  have hplain : ∀ escape ∈ plainEscapes, escape.2 ≠ '%' ∧ ∃ body : List Char, body.length = 2 ∧
      escape.1 = '%' :: body := by
    simp [plainEscapes, escapes]
  obtain ⟨hreplaced, hcoded⟩ := foldl_replaceAll hplain hf text
  have hsize : ['2', '5'].length = 2 := rfl
  have hlast := replaceAll_flatMap hsize hcoded ['%'] text
  rw [unescaped, hsplit, List.foldl_append, hreplaced]
  simp only [reduced, List.foldl_append]
  exact hlast

theorem reduced_escapedInMessage (c : Char) : reduced escapes (escapedInMessage c) = [c] := by
  unfold escapedInMessage
  split
  · rfl
  · rfl
  · rfl
  · simp [reduced, escapes]

theorem reduced_escapedInProperty (c : Char) : reduced escapes (escapedInProperty c) = [c] := by
  unfold escapedInProperty
  split
  · rfl
  · rfl
  · exact reduced_escapedInMessage c

/-- Every text is read back from a message. -/
theorem unescaped_message (text : String) : unescaped (message text).toList = text.toList := by
  rw [message, String.toList_ofList, unescaped_flatMap isCoded_escapedInMessage]
  simp [reduced_escapedInMessage]

/-- Every text is read back from a property. -/
theorem unescaped_property (text : String) : unescaped (property text).toList = text.toList := by
  rw [property, String.toList_ofList, unescaped_flatMap isCoded_escapedInProperty]
  simp [reduced_escapedInProperty]

theorem unescaped_of_notMem {text : List Char} (h : '%' ∉ text) : unescaped text = text := by
  simp [unescaped, escapes, replaceAll_of_notMem _ _ h]

/-! ## Escapes as replacements -/

/-- Escaping a message is replacing the characters one kind after the other. The percent sign comes
first, so that it is not replaced in the escapes of the others. -/
theorem message_eq_replaceAll (text : String) :
    (message text).toList =
      replaceAll ['\n'] "%0A".toList (replaceAll ['\r'] "%0D".toList
        (replaceAll ['%'] "%25".toList text.toList)) := by
  rw [message, String.toList_ofList, replaceAll_singleton, replaceAll_singleton,
    replaceAll_singleton, List.flatMap_assoc, List.flatMap_assoc]
  congr 1
  funext c
  unfold escapedInMessage
  split
  · rfl
  · rfl
  · rfl
  · next hpercent hreturn hfeed =>
      simp [if_neg hpercent, if_neg hreturn, if_neg hfeed]

/-- The characters that delimit properties are replaced last. -/
theorem property_eq_replaceAll (text : String) :
    (property text).toList =
      replaceAll [','] "%2C".toList (replaceAll [':'] "%3A".toList (message text).toList) := by
  simp only [property, message, String.toList_ofList]
  rw [replaceAll_singleton, replaceAll_singleton, List.flatMap_assoc, List.flatMap_assoc]
  congr 1
  funext c
  unfold escapedInProperty
  split
  · rfl
  · rfl
  · next hcolon hcomma =>
      unfold escapedInMessage
      split
      · rfl
      · rfl
      · rfl
      · simp [if_neg hcolon, if_neg hcomma]

/-! ## Delimiters -/

/-- The characters that end a property or a line. -/
def delimiters : List Char :=
  [':', ',', '\n']

/-- What is written in a message is a character of the text or part of an escape. -/
theorem mem_escapedInMessage {c d : Char} (h : d ∈ escapedInMessage c) :
    (d = c ∧ d ≠ '\n') ∨ d ∈ "%025AD".toList := by
  unfold escapedInMessage at h
  split at h
  · exact .inr ((by decide : "%25".toList ⊆ "%025AD".toList) h)
  · exact .inr ((by decide : "%0D".toList ⊆ "%025AD".toList) h)
  · exact .inr ((by decide : "%0A".toList ⊆ "%025AD".toList) h)
  · next hfeed =>
      obtain rfl := List.mem_singleton.mp h
      exact .inl ⟨rfl, hfeed⟩

theorem mem_escapedInProperty {c d : Char} (h : d ∈ escapedInProperty c) :
    (d = c ∧ d ∉ delimiters) ∨ d ∈ "%0235ACD".toList := by
  unfold escapedInProperty at h
  split at h
  · exact .inr ((by decide : "%3A".toList ⊆ "%0235ACD".toList) h)
  · exact .inr ((by decide : "%2C".toList ⊆ "%0235ACD".toList) h)
  · next hcolon hcomma =>
      rcases mem_escapedInMessage h with ⟨rfl, hfeed⟩ | hescape
      · have hother : d ≠ ':' ∧ d ≠ ',' ∧ d ≠ '\n' := ⟨hcolon, hcomma, hfeed⟩
        exact .inl ⟨rfl, by simpa [delimiters] using hother⟩
      · exact .inr ((by decide : "%025AD".toList ⊆ "%0235ACD".toList) hescape)

theorem lineFeed_notMem_message (text : String) : '\n' ∉ (message text).toList := by
  simp only [message, String.toList_ofList, List.mem_flatMap, not_exists, not_and]
  intro c _ h
  rcases mem_escapedInMessage h with ⟨-, hfeed⟩ | hescape
  · exact hfeed rfl
  · exact absurd hescape (by decide)

/-- No text ends the property that it stands in. -/
theorem delimiter_notMem_property (text : String) :
    ∀ d ∈ delimiters, d ∉ (property text).toList := by
  intro d hd
  simp only [property, String.toList_ofList, List.mem_flatMap, not_exists, not_and]
  intro c _ h
  rcases mem_escapedInProperty h with ⟨-, hother⟩ | hescape
  · exact hother hd
  · have hdisjoint : ∀ d ∈ delimiters, d ∉ "%0235ACD".toList := by simp [delimiters]
    exact hdisjoint d hd hescape

theorem toList_number (n : Nat) : (toString n).toList = Nat.toDigits 10 n :=
  Nat.toList_repr

theorem notMem_number {d : Char} (h : d.isDigit = false) (n : Nat) : d ∉ (toString n).toList := by
  intro hmem
  rw [toList_number] at hmem
  rw [isDigit_of_mem_toDigits hmem] at h
  cases h

theorem number?_toString (n : Nat) : number? (toString n) = some n := by
  have hdigits : (Nat.toDigits 10 n).all Char.isDigit = true :=
    List.all_eq_true.mpr fun _ => isDigit_of_mem_toDigits
  simp [number?, hdigits]

theorem ofFinding_eq (finding : Finding) :
    Reading.ofFinding finding =
      { level := level finding.severity, file := finding.file, line := finding.line
        title := title finding, message := finding.message } := by
  rw [Reading.ofFinding]
  cases finding.severity <;> rfl

theorem notMem_level {d : Char} (h : d ∈ [' ', '\n']) (severity : Severity) :
    d ∉ (level severity).toList := by
  rcases List.mem_pair.mp h with rfl | rfl <;> cases severity <;> decide

/-! ## One annotation -/

/-- The annotation of a finding without the line feed that ends it. -/
def command (finding : Finding) : String :=
  "::" ++ level finding.severity ++ " file=" ++ property finding.file ++
    ",line=" ++ toString finding.line ++ ",title=" ++ property (title finding) ++
    "::" ++ message finding.message

/-- A property as it is written. -/
def writtenProperty (name value : String) : List Char :=
  name.toList ++ '=' :: value.toList

def writtenProperties (finding : Finding) : List (List Char) :=
  [writtenProperty "file" (property finding.file),
   writtenProperty "line" (toString finding.line),
   writtenProperty "title" (property (title finding))]

theorem command_eq (finding : Finding) :
    (command finding).toList =
      "::".toList ++ ((level finding.severity).toList ++ ([' '] ++
        (joinAt ',' (writtenProperties finding) ++ ("::".toList ++
          (message finding.message).toList)))) := by
  simp [command, writtenProperties, writtenProperty, joinAt]

theorem delimiter_notMem_writtenProperty {name value : String}
    (hname : ∀ d ∈ delimiters, d ∉ name.toList) (hvalue : ∀ d ∈ delimiters, d ∉ value.toList) :
    ∀ d ∈ delimiters, d ∉ writtenProperty name value := by
  intro d hd
  have hequals : ∀ d ∈ delimiters, d ≠ '=' := by simp [delimiters]
  simp [writtenProperty, hname d hd, hvalue d hd, hequals d hd]

theorem delimiter_notMem_number (n : Nat) : ∀ d ∈ delimiters, d ∉ (toString n).toList := by
  intro d hd
  have hdigit : ∀ d ∈ delimiters, d.isDigit = false := by simp [delimiters]
  exact notMem_number (hdigit d hd) n

theorem delimiter_notMem_writtenProperties (finding : Finding) :
    ∀ part ∈ writtenProperties finding, ∀ d ∈ delimiters, d ∉ part := by
  have hfile := delimiter_notMem_property finding.file
  have hline := delimiter_notMem_number finding.line
  have htitle := delimiter_notMem_property (title finding)
  rw [writtenProperties, List.forall_mem_cons, List.forall_mem_cons, List.forall_mem_singleton]
  exact ⟨delimiter_notMem_writtenProperty (by simp [delimiters]) hfile,
    delimiter_notMem_writtenProperty (by simp [delimiters]) hline,
    delimiter_notMem_writtenProperty (by simp [delimiters]) htitle⟩

theorem property?_written (name : String) (h : '=' ∉ name.toList) {value text : String}
    (hvalue : unescaped value.toList = text.toList) :
    property? (writtenProperty name value) = some (name, text) := by
  have hbreak : breakAt? ['='] (writtenProperty name value) = some (name.toList, value.toList) :=
    breakAt?_append h [] value.toList
  rw [property?, hbreak, Option.map_some, hvalue, String.ofList_toList, String.ofList_toList]

theorem mapM_property?_written (finding : Finding) :
    (writtenProperties finding).mapM property? =
      some [("file", finding.file), ("line", toString finding.line), ("title", title finding)] := by
  have hnumber : '%' ∉ (toString finding.line).toList := notMem_number (by decide) _
  have hfile := property?_written "file" (by decide) (unescaped_property finding.file)
  have hline := property?_written "line" (by decide) (unescaped_of_notMem hnumber)
  have htitle := property?_written "title" (by decide) (unescaped_property (title finding))
  rw [writtenProperties, List.mapM_cons, List.mapM_cons, List.mapM_cons, hfile, hline, htitle]
  rfl

/-- **The annotation of a finding is read as the finding**, whatever texts it holds. -/
theorem read?_command (finding : Finding) :
    read? (command finding).toList = some (.ofFinding finding) := by
  let listed := joinAt ',' (writtenProperties finding)
  let text := (message finding.message).toList
  have hdelimited := delimiter_notMem_writtenProperties finding
  have hcolon : ':' ∉ listed := notMem_joinAt (by decide) fun part hpart =>
    hdelimited part hpart ':' (by decide)
  have hstart : breakAt? "::".toList (command finding).toList =
      some ([], (level finding.severity).toList ++ ([' '] ++
        (listed ++ ("::".toList ++ text)))) := by
    rw [command_eq]
    exact breakAt?_append List.not_mem_nil [':'] _
  have hlevel : breakAt? [' '] ((level finding.severity).toList ++ ([' '] ++
        (listed ++ ("::".toList ++ text)))) =
      some ((level finding.severity).toList, listed ++ ("::".toList ++ text)) :=
    breakAt?_append (notMem_level (by decide) _) [] _
  have hlisted : breakAt? "::".toList (listed ++ ("::".toList ++ text)) = some (listed, text) :=
    breakAt?_append hcolon [':'] text
  have hparts : cutAt ',' listed = writtenProperties finding :=
    cutAt_joinAt ',' (by simp [writtenProperties]) fun part hpart =>
      hdelimited part hpart ',' (by decide)
  let values := [("file", finding.file), ("line", toString finding.line), ("title", title finding)]
  have hvalues : (writtenProperties finding).mapM property? = some values :=
    mapM_property?_written finding
  have hfile : values.lookup "file" = some finding.file := rfl
  have hline : values.lookup "line" = some (toString finding.line) := rfl
  have htitle : values.lookup "title" = some (title finding) := rfl
  have hnumber := number?_toString finding.line
  have hread : unescaped text = finding.message.toList := unescaped_message finding.message
  simp only [read?, hstart, hlevel, hlisted, hparts, hvalues, hfile, hline, hnumber, htitle, hread,
    ofFinding_eq, String.ofList_toList, Option.bind_eq_bind, Option.bind_some]
  rfl

theorem lineFeed_notMem_command (finding : Finding) : '\n' ∉ (command finding).toList := by
  have hlisted : '\n' ∉ joinAt ',' (writtenProperties finding) :=
    notMem_joinAt (by decide) fun part hpart =>
      delimiter_notMem_writtenProperties finding part hpart '\n' (by decide)
  have hlevel := notMem_level (d := '\n') (by decide) finding.severity
  rw [command_eq]
  simp [hlevel, hlisted, lineFeed_notMem_message]

/-! ## The report -/

/-- The lines on all findings, after the empty line that follows the annotations. -/
def summaryLines (findings : List Finding) : List String :=
  let summary := Summary.ofFindings findings
  ["📊 Analysis Summary:",
   "- Total issues: " ++ toString summary.total,
   "- Errors: " ++ toString (summary.severityCount "error"),
   "- Warnings: " ++ toString (summary.severityCount "warning"),
   "- Info: " ++ toString (summary.severityCount "info")]

theorem summary_eq (findings : List Finding) :
    summary findings = endedLines ("" :: summaryLines findings) := by
  have htotal : "\n📊 Analysis Summary:\n- Total issues: " =
      "" ++ "\n" ++ ("📊 Analysis Summary:" ++ "\n" ++ "- Total issues: ") := by decide
  have herrors : "\n- Errors: " = "\n" ++ "- Errors: " := by decide
  have hwarnings : "\n- Warnings: " = "\n" ++ "- Warnings: " := by decide
  have hinfo : "\n- Info: " = "\n" ++ "- Info: " := by decide
  have hnil : endedLines [] = "" := rfl
  unfold summary summaryLines
  simp only [htotal, herrors, hwarnings, hinfo, hnil, endedLines_cons, Severity.token,
    String.append_assoc, String.append_empty]

end Annotation

theorem annotationReport_eq {findings : List Finding} (h : findings ≠ []) :
    annotationReport findings =
      endedLines (findings.map Annotation.command ++ "" :: Annotation.summaryLines findings) := by
  have hlines : findings.map Annotation.line =
      (findings.map Annotation.command).map (· ++ "\n") := by
    rw [List.map_map]
    rfl
  rw [annotationReport, if_neg (by simpa using h), endedLines_append, hlines,
    ← Annotation.summary_eq]
  rfl

theorem Annotation.lineFeed_notMem_summaryLines (findings : List Finding) :
    ∀ line ∈ summaryLines findings, '\n' ∉ line.toList := by
  have hnumber (n : Nat) : '\n' ∉ (toString n).toList := notMem_number (by decide) n
  simp only [summaryLines, List.forall_mem_cons, String.toList_append, List.mem_append, not_or]
  refine ⟨by decide, ⟨by decide, hnumber _⟩, ⟨by decide, hnumber _⟩, ⟨by decide, hnumber _⟩,
    ⟨by decide, hnumber _⟩, by simp⟩

theorem Annotation.marks_not_prefix_summaryLines (findings : List Finding) :
    ∀ line ∈ summaryLines findings, ¬ "::".toList <+: line.toList := by
  simp [summaryLines, List.cons_prefix_cons]

open Annotation (Reading command summaryLines)

/-- **Annotations are read back, and nothing else is one.** The report on findings has, line by
line, an annotation for each finding, which is read as the finding, an empty line and five lines on
all findings, which do not start like annotations. Each line is ended, and that is all. -/
theorem annotationReport_readBack {findings : List Finding} (h : findings ≠ []) :
    ∃ annotations : List Line,
      linesOf (annotationReport findings) =
        annotations ++ [] :: (summaryLines findings).map String.toList ++ [[]] ∧
      annotations.length = findings.length ∧
      annotations.map Annotation.read? =
        findings.map (fun finding => some (Reading.ofFinding finding)) ∧
      (summaryLines findings).length = 5 ∧
      ∀ line ∈ Annotation.summaryLines findings, ¬ "::".toList <+: line.toList := by
  refine ⟨findings.map fun finding => (command finding).toList, ?_, ?_, ?_, rfl,
    Annotation.marks_not_prefix_summaryLines findings⟩
  · have hcommands : ∀ line ∈ findings.map Annotation.command, '\n' ∉ line.toList :=
      List.forall_mem_map.mpr fun finding _ => Annotation.lineFeed_notMem_command finding
    have hsummary : ∀ line ∈ "" :: Annotation.summaryLines findings, '\n' ∉ line.toList :=
      List.forall_mem_cons.mpr ⟨by decide, Annotation.lineFeed_notMem_summaryLines findings⟩
    have hfree := List.forall_mem_append.mpr ⟨hcommands, hsummary⟩
    rw [annotationReport_eq h, linesOf_endedLines hfree]
    simp
  · rw [List.length_map]
  · rw [List.map_map]
    exact List.map_congr_left fun finding _ => Annotation.read?_command finding

/-- A finding whose texts hold delimiters, line breaks, escapes and annotations. -/
def hostileFinding : Finding where
  ruleId := "S,001"
  ruleName := "a::b\r\n::error file=x,line=1,title=t::m"
  severity := .info
  category := .security
  message := "50%25\r\n::error file=y::%0A, :"
  file := "a,b:c%3A=\n::notice d.gd"
  line := 12
  column := none
  snippet := none

/-- The report on two such findings has nine lines, and two of them are annotations. -/
theorem annotationReport_readBack_hostile :
    [hostileFinding, hostileFinding] ≠ [] ∧
      (linesOf (annotationReport [hostileFinding, hostileFinding])).length = 9 ∧
      ((linesOf (annotationReport [hostileFinding, hostileFinding])).take 2).map
          Annotation.read? =
        List.replicate 2 (some
          { level := "notice", file := "a,b:c%3A=\n::notice d.gd", line := 12
            title := "[S,001] a::b\r\n::error file=x,line=1,title=t::m"
            message := "50%25\r\n::error file=y::%0A, :" }) := by
  have hne : [hostileFinding, hostileFinding] ≠ [] := List.cons_ne_nil _ _
  obtain ⟨annotations, hlines, hlength, hread, hsummary, -⟩ := annotationReport_readBack hne
  refine ⟨hne, ?_, ?_⟩
  · rw [hlines]
    simp [hlength, hsummary]
  · have htake : (annotations ++ [] ::
        (summaryLines [hostileFinding, hostileFinding]).map String.toList ++
          [[]]).take 2 = annotations := by
      rw [List.append_assoc]
      exact List.take_left' hlength
    rw [hlines, htake, hread]
    rfl

end ScriptLint
