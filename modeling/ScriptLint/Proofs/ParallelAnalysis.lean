import Mathlib.Algebra.GroupWithZero.Nat
import Mathlib.Logic.Function.Iterate
import ScriptLint.Command.Check

/-!
# Parallel analysis

The files below a directory are checked by several workers at once. A worker takes a file that
waits, checks it, and then calls back; the outcome has its place in the order of the files, whoever
makes it and whenever. Steps of different workers interleave in any way.

The law is that the outcomes that are there and those still to come are always the same, and that
the callback has been called once for each file that is done. So a run can only end with the report
that checking the files one after the other gives, and with one call for each file. Every run ends,
after two steps for each file.
-/

namespace ScriptLint

/-! ## Taking outcomes together -/

namespace Analysis

/-- The findings in the files that can be read, the faults of the others, and how many files can be
read. -/
def ofReads (settings : Settings) (reads : List FileRead) : Analysis where
  findings := reads.flatMap fun file =>
    match file.text with
    | .ok text => settings.checkText file.path text
    | .error _ => []
  skipped := reads.filterMap fun file =>
    match file.text with
    | .ok _ => none
    | .error error => some (.unreadable file.path error)
  filesAnalyzed := reads.countP fun file => file.text.isOk

variable (settings : Settings)

theorem ofReads_cons_ok {file : FileRead} {text : String} (h : file.text = .ok text)
    (rest : List FileRead) :
    ofReads settings (file :: rest) =
      { findings := settings.checkText file.path text ++ (ofReads settings rest).findings
        skipped := (ofReads settings rest).skipped
        filesAnalyzed := (ofReads settings rest).filesAnalyzed + 1 } := by
  simp [ofReads, h, Except.isOk, Except.toBool]

theorem ofReads_cons_error {file : FileRead} {error : FileError} (h : file.text = .error error)
    (rest : List FileRead) :
    ofReads settings (file :: rest) =
      { findings := (ofReads settings rest).findings
        skipped := .unreadable file.path error :: (ofReads settings rest).skipped
        filesAnalyzed := (ofReads settings rest).filesAnalyzed } := by
  simp [ofReads, h, Except.isOk, Except.toBool]

/-- A file is checked or skipped. -/
theorem filesAnalyzed_add_skipped (reads : List FileRead) :
    (ofReads settings reads).filesAnalyzed + (ofReads settings reads).skipped.length =
      reads.length := by
  induction reads with
  | nil => rfl
  | cons file rest ih =>
      cases h : file.text with
      | ok text =>
          rw [ofReads_cons_ok settings h, List.length_cons]
          dsimp only
          omega
      | error error =>
          rw [ofReads_cons_error settings h, List.length_cons, List.length_cons]
          dsimp only
          omega

/-- Outcomes that are added one by one: the count goes down once for each file that is skipped. -/
theorem foldl_add_checkRead (reads : List FileRead) (analysis : Analysis) :
    (reads.map settings.checkRead).foldl add analysis =
      { findings := analysis.findings ++ (ofReads settings reads).findings
        skipped := analysis.skipped ++ (ofReads settings reads).skipped
        filesAnalyzed := analysis.filesAnalyzed - (ofReads settings reads).skipped.length } := by
  induction reads generalizing analysis with
  | nil => simp [ofReads]
  | cons file rest ih =>
      rw [List.map_cons, List.foldl_cons, ih]
      cases h : file.text with
      | ok text =>
          rw [ofReads_cons_ok settings h]
          simp [Settings.checkRead, h, add]
      | error error =>
          rw [ofReads_cons_error settings h]
          simp [Settings.checkRead, h, add]
          omega

theorem ofOutcomes_checkRead (reads : List FileRead) :
    ofOutcomes (reads.map settings.checkRead) = ofReads settings reads := by
  have hcount := filesAnalyzed_add_skipped settings reads
  rw [ofOutcomes, foldl_add_checkRead, List.length_map]
  have hfiles : reads.length - (ofReads settings reads).skipped.length =
      (ofReads settings reads).filesAnalyzed := by omega
  dsimp only
  rw [hfiles, List.nil_append, List.nil_append]

/-- As long as a file is left, the count is positive, so it can go down if the file is skipped. -/
theorem filesAnalyzed_pos {reads before after : List FileRead} {file : FileRead}
    (hreads : reads = before ++ file :: after) :
    0 < ((before.map settings.checkRead).foldl add
      { filesAnalyzed := reads.length }).filesAnalyzed := by
  have hcount := filesAnalyzed_add_skipped settings before
  rw [foldl_add_checkRead, hreads, List.length_append, List.length_cons]
  dsimp only
  omega

end Analysis

/-! ## Workers -/

/-- Where the check of a file stands. -/
inductive Task where
  | waiting (file : FileRead)
  /-- The outcome is there, but the callback has not been called. -/
  | checked (outcome : Except Fault (List Finding))
  | done (outcome : Except Fault (List Finding))

namespace Task

/-- The outcome that is there or will be. -/
def outcome (settings : Settings) : Task → Except Fault (List Finding)
  | waiting file => settings.checkRead file
  | checked outcome => outcome
  | done outcome => outcome

/-- The outcome of a task that is done. -/
def finished? : Task → Option (Except Fault (List Finding))
  | done outcome => some outcome
  | _ => none

def isDone : Task → Bool
  | done _ => true
  | _ => false

/-- How many steps it takes until the task is done. -/
def remaining : Task → Nat
  | waiting _ => 2
  | checked _ => 1
  | done _ => 0

theorem remaining_eq_zero_iff (task : Task) : task.remaining = 0 ↔ task.isDone = true := by
  cases task <;> simp [remaining, isDone]

theorem sum_remaining_eq_zero_iff (tasks : List Task) :
    (tasks.map remaining).sum = 0 ↔ ∀ task ∈ tasks, task.isDone = true := by
  induction tasks with
  | nil => simp
  | cons task rest ih =>
      rw [List.map_cons, List.sum_cons, Nat.add_eq_zero_iff, ih, remaining_eq_zero_iff,
        List.forall_mem_cons]

theorem finished?_of_isDone (settings : Settings) {task : Task} (h : task.isDone = true) :
    task.finished? = some (task.outcome settings) := by
  cases task with
  | waiting file => cases h
  | checked outcome => cases h
  | done outcome => rfl

end Task

/-- The tasks in the order of their files, and what the callback works on. -/
structure Pool (σ : Type) where
  tasks : List Task
  shared : σ

namespace Pool

variable {σ : Type} (settings : Settings) (onFile : σ → σ)

/-- All files wait. -/
def start (reads : List FileRead) (shared : σ) : Pool σ where
  tasks := reads.map Task.waiting
  shared := shared

/-- One step of one worker on one task, whatever the other tasks are at. -/
inductive Step : Pool σ → Pool σ → Prop where
  | check (before after : List Task) (file : FileRead) (shared : σ) :
      Step ⟨before ++ .waiting file :: after, shared⟩
        ⟨before ++ .checked (settings.checkRead file) :: after, shared⟩
  | call (before after : List Task) (outcome : Except Fault (List Finding)) (shared : σ) :
      Step ⟨before ++ .checked outcome :: after, shared⟩
        ⟨before ++ .done outcome :: after, onFile shared⟩

/-- A number of steps, of whichever workers. -/
inductive Run (first : Pool σ) : Nat → Pool σ → Prop where
  | nil : Run first 0 first
  | step {n : Nat} {pool next : Pool σ} (before : Run first n pool)
      (last : Step settings onFile pool next) : Run first (n + 1) next

/-- The outcomes of the tasks that are done, in the order of the files. -/
def outcomes (pool : Pool σ) : List (Except Fault (List Finding)) :=
  pool.tasks.filterMap Task.finished?

/-- No worker can do anything. -/
def IsOver (pool : Pool σ) : Prop :=
  ∀ next, ¬ Step settings onFile pool next

/-- What every run keeps: the outcomes, and one call for each task that is done. The steps that were
made and those that remain are two for each file. -/
structure Invariant (reads : List FileRead) (shared : σ) (n : Nat) (pool : Pool σ) : Prop where
  outcomes : pool.tasks.map (Task.outcome settings) = reads.map settings.checkRead
  calls : pool.shared = onFile^[pool.tasks.countP Task.isDone] shared
  steps : n + (pool.tasks.map Task.remaining).sum = 2 * reads.length

variable {settings onFile} {reads : List FileRead} {shared : σ} {n : Nat} {pool next : Pool σ}

theorem invariant_start (reads : List FileRead) (shared : σ) :
    Invariant settings onFile reads shared 0 (start reads shared) where
  outcomes := by
    rw [start, List.map_map]
    rfl
  calls := by
    have hnone : (reads.map Task.waiting).countP Task.isDone = 0 := by
      simp [List.countP_eq_zero, Task.isDone]
    rw [start, hnone]
    rfl
  steps := by
    induction reads with
    | nil => rfl
    | cons file rest ih =>
        simp only [start, List.map_cons, List.sum_cons, List.length_cons, Task.remaining] at ih ⊢
        omega

theorem Step.invariant (hstep : Step settings onFile pool next)
    (h : Invariant settings onFile reads shared n pool) :
    Invariant settings onFile reads shared (n + 1) next := by
  obtain ⟨houtcomes, hcalls, hsteps⟩ := h
  cases hstep with
  | check before after file shared =>
      refine ⟨?_, ?_, ?_⟩
      · simpa [Task.outcome] using houtcomes
      · simpa [Task.isDone] using hcalls
      · simp only [List.map_append, List.map_cons, List.sum_append, List.sum_cons,
          Task.remaining] at hsteps ⊢
        omega
  | call before after outcome shared' =>
      refine ⟨?_, ?_, ?_⟩
      · simpa [Task.outcome] using houtcomes
      · -- one more task is done, and the callback has been called once more
        have hcount : (before ++ Task.done outcome :: after).countP Task.isDone =
            (before ++ Task.checked outcome :: after).countP Task.isDone + 1 := by
          rw [List.countP_append, List.countP_append, List.countP_cons_of_pos rfl,
            List.countP_cons_of_neg (by simp [Task.isDone]), Nat.add_assoc]
        dsimp only at hcalls ⊢
        rw [hcount, Function.iterate_succ_apply', ← hcalls]
      · simp only [List.map_append, List.map_cons, List.sum_append, List.sum_cons,
          Task.remaining] at hsteps ⊢
        omega

theorem Run.invariant (hrun : Run settings onFile (start reads shared) n pool) :
    Invariant settings onFile reads shared n pool := by
  induction hrun with
  | nil => exact invariant_start reads shared
  | step _ last ih => exact last.invariant ih

theorem isOver_of_isDone (h : ∀ task ∈ pool.tasks, task.isDone = true) :
    pool.IsOver settings onFile := by
  intro next hstep
  cases hstep with
  | check before after file shared =>
      exact absurd (h (.waiting file) (by simp)) (by simp [Task.isDone])
  | call before after outcome shared =>
      exact absurd (h (.checked outcome) (by simp)) (by simp [Task.isDone])

/-- A task that is not done can always be taken up. -/
theorem isDone_of_isOver (h : pool.IsOver settings onFile) :
    ∀ task ∈ pool.tasks, task.isDone = true := by
  intro task htask
  obtain ⟨before, after, htasks⟩ := List.append_of_mem htask
  obtain ⟨tasks, shared⟩ := pool
  dsimp only at htasks
  subst htasks
  cases task with
  | waiting file => exact absurd (Step.check before after file shared) (h _)
  | checked outcome => exact absurd (Step.call before after outcome shared) (h _)
  | done outcome => rfl

/-- A run is over when no steps remain. -/
theorem isOver_iff :
    pool.IsOver settings onFile ↔ (pool.tasks.map Task.remaining).sum = 0 := by
  rw [Task.sum_remaining_eq_zero_iff]
  exact ⟨isDone_of_isOver, isOver_of_isDone⟩

theorem outcomes_of_isDone (settings : Settings) {tasks : List Task}
    (h : ∀ task ∈ tasks, task.isDone = true) :
    tasks.filterMap Task.finished? = tasks.map (Task.outcome settings) := by
  induction tasks with
  | nil => rfl
  | cons task rest ih =>
      have htask := Task.finished?_of_isDone settings (h task List.mem_cons_self)
      have hrest := ih fun other hother => h other (List.mem_cons_of_mem _ hother)
      rw [List.filterMap_cons_some htask, List.map_cons, hrest]

/-- What there is when a run is over. -/
theorem Run.report (hrun : Run settings onFile (start reads shared) n pool)
    (hover : pool.IsOver settings onFile) :
    Analysis.ofOutcomes pool.outcomes = Analysis.ofReads settings reads ∧
      pool.shared = onFile^[reads.length] shared := by
  have hinvariant := hrun.invariant
  have hdone := isDone_of_isOver hover
  constructor
  · rw [outcomes, outcomes_of_isDone settings hdone, hinvariant.outcomes,
      Analysis.ofOutcomes_checkRead]
  · have hcount : pool.tasks.countP Task.isDone = reads.length := by
      have hlength := congrArg List.length hinvariant.outcomes
      rw [List.length_map, List.length_map] at hlength
      rw [List.countP_eq_length.mpr hdone, hlength]
    rw [hinvariant.calls, hcount]

end Pool

/-! ## One file after the other -/

theorem Progress.iterate_advance (n : Nat) (progress : Progress) :
    advance^[n] progress = { progress with completed := progress.completed + n } := by
  induction n with
  | zero => rfl
  | succ n ih =>
      rw [Function.iterate_succ_apply', ih]
      rfl

theorem Progress.foldl_advance {α : Type} (items : List α) (progress : Progress) :
    items.foldl (fun progress _ => progress.advance) progress = advance^[items.length] progress := by
  induction items generalizing progress with
  | nil => rfl
  | cons item rest ih =>
      rw [List.foldl_cons, ih, List.length_cons, Function.iterate_succ_apply]

theorem FileSystem.isFile_of_readText {files : FileSystem} {path text : String}
    (h : files.readText path = .ok text) : files.isFile path = true := by
  unfold readText readBytes at h
  unfold isFile
  split at h
  · cases h
  · rename_i bytes hbytes
    split at hbytes
    · rename_i entry
      rw [entry]
    · cases hbytes
    · cases hbytes

namespace Settings

theorem checkFiles_eq (settings : Settings) (files : FileSystem) (paths : List String)
    (progress : Progress) :
    settings.checkFiles files paths progress =
      (Analysis.ofReads settings (paths.map files.read),
        { progress with completed := progress.completed + paths.length }) := by
  have houtcomes : paths.map (settings.checkFile files) =
      (paths.map files.read).map settings.checkRead := by
    rw [List.map_map]
    rfl
  rw [checkFiles, houtcomes, Analysis.ofOutcomes_checkRead, Progress.foldl_advance,
    Progress.iterate_advance]

/-- Workers that advance the progress end with what checking one file after the other gives. -/
theorem checkFiles_eq_of_run {settings : Settings} {files : FileSystem} {paths : List String}
    {progress : Progress} {n : Nat} {pool : Pool Progress}
    (hrun : Pool.Run settings Progress.advance (.start (paths.map files.read) progress) n pool)
    (hover : pool.IsOver settings Progress.advance) :
    settings.checkFiles files paths progress =
      (Analysis.ofOutcomes pool.outcomes, pool.shared) := by
  obtain ⟨hanalysis, hshared⟩ := hrun.report hover
  rw [checkFiles_eq, hanalysis, hshared, Progress.iterate_advance, List.length_map]

/-- Counting files does not change what comes of them. -/
theorem analyzeCounting_fst (settings : Settings) (files : FileSystem) (path : String) :
    (settings.analyzeCounting files path).map Prod.fst = settings.analyze files path := by
  unfold analyzeCounting
  split
  · cases settings.analyze files path <;> rfl
  · rename_i hfile
    rw [analyze, if_neg hfile]
    cases settings.collectFiles files path <;> rfl

/-- The count ends at the number of files. -/
theorem analyzeCounting_completed {settings : Settings} {files : FileSystem} {path : String}
    {analysis : Analysis} {progress : Progress}
    (h : settings.analyzeCounting files path = .ok (analysis, some progress)) :
    progress.completed = progress.total := by
  unfold analyzeCounting at h
  split at h
  · cases hanalyze : settings.analyze files path with
    | error fault =>
        rw [hanalyze] at h
        cases h
    | ok analysis' =>
        rw [hanalyze] at h
        cases h
  · cases hpaths : settings.collectFiles files path with
    | error fault =>
        rw [hpaths] at h
        cases h
    | ok paths =>
        rw [hpaths] at h
        simp only [Except.map, checkFiles_eq] at h
        cases h
        simp [Progress.finish]

/-- A readable file is checked alone as it is in a list by itself. -/
theorem analyze_of_readText (settings : Settings) {files : FileSystem} {path text : String}
    (h : files.readText path = .ok text) (progress : Progress) :
    settings.analyze files path = .ok (settings.checkFiles files [path] progress).1 := by
  rw [analyze, if_pos (FileSystem.isFile_of_readText h), checkFiles_eq]
  simp [checkFile, checkRead, FileSystem.read, h, Analysis.ofReads, Except.map, Except.isOk,
    Except.toBool]

end Settings

/-- **Parallel analysis is sequential analysis.** Workers that check files in any order end, after
two steps for each file, with the findings of the readable files in the order of the files, the
faults of the others and one call of the callback for each file; the count of checked files is
positive whenever it goes down. Checking one file after the other gives the same, and so do the
analyses with and without a count, which for a readable file are the analysis of a list of one. -/
theorem checkFiles_anyOrder (settings : Settings) :
    (∀ (reads : List FileRead) (σ : Type) (onFile : σ → σ) (shared : σ) (n : Nat) (pool : Pool σ),
      Pool.Run settings onFile (.start reads shared) n pool →
        n ≤ 2 * reads.length ∧
        (pool.IsOver settings onFile ↔ n = 2 * reads.length) ∧
        (pool.IsOver settings onFile →
          Analysis.ofOutcomes pool.outcomes = Analysis.ofReads settings reads ∧
          pool.shared = onFile^[reads.length] shared)) ∧
    (∀ reads : List FileRead,
      (Analysis.ofReads settings reads).filesAnalyzed +
          (Analysis.ofReads settings reads).skipped.length = reads.length ∧
        ∀ before file after, reads = before ++ file :: after →
          0 < ((before.map settings.checkRead).foldl Analysis.add
            { filesAnalyzed := (reads.map settings.checkRead).length }).filesAnalyzed) ∧
    (∀ files paths progress,
      settings.checkFiles files paths progress =
          (Analysis.ofReads settings (paths.map files.read),
            { progress with completed := progress.completed + paths.length }) ∧
        ∀ n pool,
          Pool.Run settings Progress.advance (.start (paths.map files.read) progress) n pool →
          pool.IsOver settings Progress.advance →
            settings.checkFiles files paths progress =
              (Analysis.ofOutcomes pool.outcomes, pool.shared)) ∧
    ∀ files path,
      (settings.analyzeCounting files path).map Prod.fst = settings.analyze files path ∧
      (∀ analysis progress, settings.analyzeCounting files path = .ok (analysis, some progress) →
        progress.completed = progress.total) ∧
      ∀ text progress, files.readText path = .ok text →
        settings.analyze files path = .ok (settings.checkFiles files [path] progress).1 := by
  refine ⟨?_, ?_, ?_, ?_⟩
  · intro reads σ onFile shared n pool hrun
    have hsteps := hrun.invariant.steps
    refine ⟨by omega, ?_, hrun.report⟩
    rw [Pool.isOver_iff]
    omega
  · intro reads
    refine ⟨Analysis.filesAnalyzed_add_skipped settings reads, ?_⟩
    intro before file after hreads
    rw [List.length_map]
    exact Analysis.filesAnalyzed_pos settings hreads
  · intro files paths progress
    exact ⟨settings.checkFiles_eq files paths progress,
      fun _ _ hrun hover => Settings.checkFiles_eq_of_run hrun hover⟩
  · intro files path
    exact ⟨settings.analyzeCounting_fst files path,
      fun _ _ => Settings.analyzeCounting_completed,
      fun _ progress h => settings.analyze_of_readText h progress⟩

/-- The first of two files cannot be read, and the second is done before it. -/
theorem checkFiles_anyOrder_secondFirst :
    ∃ pool : Pool Nat,
      Pool.Run {} (· + 1) (.start [⟨"a.gd", .error .notFound⟩, ⟨"b.gd", .ok "func f():"⟩] 0) 4
          pool ∧
        pool.IsOver {} (· + 1) ∧
        (Analysis.ofOutcomes pool.outcomes).skipped = [.unreadable "a.gd" .notFound] ∧
        (Analysis.ofOutcomes pool.outcomes).findings.map Finding.file = ["b.gd"] ∧
        (Analysis.ofOutcomes pool.outcomes).filesAnalyzed = 1 ∧ pool.shared = 2 := by
  let a : FileRead := ⟨"a.gd", .error .notFound⟩
  let b : FileRead := ⟨"b.gd", .ok "func f():"⟩
  let checkB := Settings.checkRead {} b
  have hrun : Pool.Run {} (· + 1) (.start [a, b] 0) 4
      ⟨[.done (Settings.checkRead {} a), .done checkB], 2⟩ :=
    .step (.step (.step (.step .nil (.check [.waiting a] [] b 0))
      (.call [.waiting a] [] checkB 0)) (.check [] [.done checkB] a 1))
      (.call [] [.done checkB] (Settings.checkRead {} a) 1)
  obtain ⟨-, hover, hreport⟩ := (checkFiles_anyOrder {}).1 [a, b] Nat (· + 1) 0 4 _ hrun
  obtain ⟨hanalysis, hcalls⟩ := hreport (hover.mpr rfl)
  refine ⟨_, hrun, hover.mpr rfl, ?_, ?_, ?_, hcalls⟩
  · rw [hanalysis]
    rfl
  · rw [hanalysis]
    decide +kernel
  · rw [hanalysis]
    rfl

end ScriptLint
