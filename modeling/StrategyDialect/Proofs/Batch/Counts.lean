import StrategyDialect.Proofs.Batch.Schedule

/-!
# The counts of a batch

A report counts the files that were converted, those that are invalid, and those that
something failed for.  The three are counted by different fields of an entry, which a
task fills in step by step.  They account for every file (`BatchReport.AddsUp`) because
a task ends in one of four ways only (`BatchEntry.AccountsFor`): the file could not be
examined, its strategy is refused, its output could not be written, or it was written.

Which of the four it is depends on what a task finds when it reads and when it writes,
but that it is one of them does not.  So nothing is assumed of the files here: they may
be changed by others between any two steps (`Batch.State.OpenRuns`), and inputs,
directories or outputs may be missing.

## Main definitions

* `BatchEntry.AccountsFor`: the ways in which a task ends
* `Batch.State.OpenStep`, `Batch.State.OpenRuns`: steps of a batch among files that
  change
* `BatchReport.AddsUp`: counts that account for every entry

## Main statements

* `FileTask.accountsFor_read`, `FileTask.Progress.AccountsFor.finish`: what the two
  steps of a task lead to
* `Batch.State.AccountsFor.step`, `Batch.State.AccountsFor.run`: what a step and a run
  preserve
* `Batch.counts_add_up`: the counts of every batch add up
-/

namespace StrategyDialect

variable {engine : Engine} {policy : ConvertPolicy} {file : Path} {e : BatchEntry}

/-! ## Entries -/

/-- Whether a policy converts a strategy with this verdict. -/
def ConvertPolicy.Admits (policy : ConvertPolicy) (v : Validation) : Prop :=
  v.isValid = true ∨ policy = .always

/-- The entries that a task for a file can end in. -/
inductive BatchEntry.AccountsFor (policy : ConvertPolicy) (file : Path) :
    BatchEntry → Prop
  /-- The file could not be read, or is no text. -/
  | unexamined (error : Text) : AccountsFor policy file ⟨file, none, [], none, some error⟩
  /-- The strategy is not to be converted. -/
  | refused (v : Validation) (parameters : List Parameter) (h : ¬policy.Admits v) :
      AccountsFor policy file ⟨file, some v, parameters, none, none⟩
  /-- The completed strategy has nowhere to go. -/
  | failed (v : Validation) (parameters : List Parameter) (error : Text)
      (h : policy.Admits v) :
      AccountsFor policy file ⟨file, some v, parameters, none, some error⟩
  /-- The completed strategy was written. -/
  | converted (v : Validation) (parameters : List Parameter) (output : Path)
      (h : policy.Admits v) :
      AccountsFor policy file ⟨file, some v, parameters, some output, none⟩

namespace BatchEntry

/-- An entry that accounts for a file names this file. -/
theorem AccountsFor.file_eq (h : e.AccountsFor policy file) : e.file = file := by
  cases h <;> rfl

/-- An entry never has both an output and an error, since an output is recorded only
when everything before it and the writing itself went well. -/
theorem AccountsFor.output_or_error (h : e.AccountsFor policy file) :
    e.output = none ∨ e.error = none := by
  cases h with
  | unexamined error => exact .inl rfl
  | refused v parameters hv => exact .inl rfl
  | failed v parameters error hv => exact .inl rfl
  | converted v parameters output hv => exact .inr rfl

/-- An entry without a verdict has an error instead, and no parameters: the text was not
there to be looked at. -/
theorem AccountsFor.of_validation_eq_none (h : e.AccountsFor policy file)
    (hnone : e.validation = none) : e.error.isSome = true ∧ e.parameters = [] := by
  cases h with
  | unexamined error => exact ⟨rfl, rfl⟩
  | refused v parameters hv => cases hnone
  | failed v parameters error hv => cases hnone
  | converted v parameters output hv => cases hnone

/-- **An entry is counted once** if only valid strategies are converted. -/
theorem AccountsFor.count_eq_one (h : e.AccountsFor .requireValid file) :
    e.isConverted.toNat + (e.validation.isSome && !e.isValid).toNat
      + e.error.isSome.toNat = 1 := by
  have hadmits : ∀ {v : Validation}, ConvertPolicy.requireValid.Admits v ↔
      v.isValid = true := by
    simp [ConvertPolicy.Admits]
  cases h with
  | unexamined error => rfl
  | refused v parameters hv => simp [isConverted, isValid, mt hadmits.mpr hv]
  | failed v parameters error hv => simp [isConverted, isValid, hadmits.mp hv]
  | converted v parameters output hv => simp [isConverted, isValid, hadmits.mp hv]

/-- **An entry is counted once**, valid or not, if all strategies are converted. -/
theorem AccountsFor.count_eq_one_of_always (h : e.AccountsFor .always file) :
    e.isConverted.toNat + e.error.isSome.toNat = 1 := by
  cases h with
  | unexamined error => rfl
  | refused v parameters hv => exact absurd (.inr rfl) hv
  | failed v parameters error hv => rfl
  | converted v parameters output hv => rfl

end BatchEntry

/-! ## Reports -/

/-- Counts that account for every entry. -/
structure BatchReport.AddsUp (policy : ConvertPolicy) (r : BatchReport) : Prop where
  output_or_error : ∀ e ∈ r.entries, e.output = none ∨ e.error = none
  of_validation_eq_none : ∀ e ∈ r.entries, e.validation = none →
      e.error.isSome = true ∧ e.parameters = []
  of_requireValid : policy = .requireValid →
    r.convertedCount + r.invalidCount + r.failedCount = r.entries.length
  of_always : policy = .always → r.convertedCount + r.failedCount = r.entries.length

/-- Counts of items that are each counted once add up to the number of items. -/
private theorem countP_add_countP_add_countP {α : Type} {p q r : α → Bool} {l : List α}
    (h : ∀ a ∈ l, (p a).toNat + (q a).toNat + (r a).toNat = 1) :
    l.countP p + l.countP q + l.countP r = l.length := by
  have hcount : ∀ (p : α → Bool) (a : α) (l : List α),
      (a :: l).countP p = (p a).toNat + l.countP p := by
    intro p a l
    rw [List.countP_cons, Nat.add_comm]
    cases p a <;> rfl
  induction l with
  | nil => rfl
  | cons a l ih =>
    have hlater := ih fun b hb => h b (List.mem_cons_of_mem a hb)
    have hfirst := h a List.mem_cons_self
    rw [hcount, hcount, hcount, List.length_cons]
    omega

/-- **Counts add up** over entries that account for files. -/
theorem BatchReport.addsUp {r : BatchReport}
    (h : ∀ e ∈ r.entries, ∃ file, e.AccountsFor policy file) : r.AddsUp policy where
  output_or_error e he := by
    obtain ⟨file, hfile⟩ := h e he
    exact hfile.output_or_error
  of_validation_eq_none e he := by
    obtain ⟨file, hfile⟩ := h e he
    exact hfile.of_validation_eq_none
  of_requireValid := by
    rintro rfl
    refine countP_add_countP_add_countP fun e he => ?_
    obtain ⟨file, hfile⟩ := h e he
    exact hfile.count_eq_one
  of_always := by
    rintro rfl
    -- Nothing is skipped under this policy, so the sum has two parts.
    have hcount :=
      countP_add_countP_add_countP (p := (·.isConverted)) (q := fun _ => false)
        (r := fun e : BatchEntry => e.error.isSome) (l := r.entries) fun e he => by
        obtain ⟨file, hfile⟩ := h e he
        exact hfile.count_eq_one_of_always
    rwa [List.countP_false] at hcount

/-! ## Tasks -/

namespace FileTask

variable {task : FileTask} {tree : FileTree} {progress : Progress}

/-- What remains of a task for a file once the file has been read. -/
inductive Progress.AccountsFor (policy : ConvertPolicy) (file : Path) : Progress → Prop
  /-- The entry is there. -/
  | settled {entry : BatchEntry} (h : entry.AccountsFor policy file) :
      AccountsFor policy file (.settled entry)
  /-- The completed strategy is to be written. -/
  | writing (v : Validation) (parameters : List Parameter) (output : Path)
      (contents : Bytes) (h : policy.Admits v) :
      AccountsFor policy file
      (.writing ⟨file, some v, parameters, none, none⟩ output contents)

/-- A run converts the strategies that the policy admits. -/
private theorem conversion_isSome_iff (engine : Engine) (policy : ConvertPolicy)
    (source : Text) (requested : Option Text) :
    (engine.run source policy requested).conversion.isSome = true ↔
      policy.Admits (engine.run source policy requested).validation := by
  rw [Engine.conversion_run, Option.isSome_ite]
  rfl

/-- **The first step**, whatever is read.  The file may be missing or may not be text,
and each of these settles its entry at once. -/
theorem accountsFor_read (task : FileTask) (engine : Engine) (policy : ConvertPolicy)
    (tree : FileTree) : (task.read engine policy tree).AccountsFor policy task.input := by
  rw [read]
  split
  next e hread => exact .settled (.unexamined _)
  next bytes hread =>
    split
    next offset hdecode => exact .settled (.unexamined _)
    next source hdecode =>
      have hadmits := conversion_isSome_iff engine policy source
        (ClassName.ofText? (OutputPlan.stem task.input))
      rw [examine]
      dsimp only
      split
      next output hnone =>
        exact .settled (.refused _ _ (mt hadmits.mpr (by simp [hnone])))
      next conversion c hsome houtput =>
        exact .settled (.failed _ _ _ (hadmits.mp (by simp [hsome])))
      next conversion output hsome houtput =>
        exact .writing _ _ _ _ (hadmits.mp (by simp [hsome]))

/-- **The second step**, whether or not the output can be written. -/
theorem Progress.AccountsFor.finish (h : progress.AccountsFor policy file)
    (tree : FileTree) : (FileTask.finish progress tree).1.AccountsFor policy file := by
  cases h with
  | settled h => exact h
  | writing v parameters output contents hv =>
    rw [FileTask.finish]
    split
    next made hwrite => exact .converted v parameters output hv
    next e hwrite => exact .failed v parameters _ hv

end FileTask

namespace Batch

variable {tasks : List FileTask} {tree tree' : FileTree}

/-! ## Batches -/

/-- A job that has got as far as it can with an entry that accounts for its file. -/
def Job.AccountsFor (policy : ConvertPolicy) : Job → Prop
  | waiting _ => True
  | started task progress => progress.AccountsFor policy task.input
  | done task entry => entry.AccountsFor policy task.input

/-- The next step of a job leads to its own entry. -/
theorem Job.AccountsFor.next {job job' : Job} (h : job.AccountsFor policy)
    (hnext : job.next? engine policy tree = some (job', tree')) :
    job'.AccountsFor policy ∧ job'.task = job.task := by
  cases job with
  | waiting task =>
    obtain ⟨rfl, rfl⟩ := Prod.mk.inj (Option.some.inj hnext)
    exact ⟨task.accountsFor_read engine policy tree, rfl⟩
  | started task progress =>
    obtain ⟨rfl, rfl⟩ := Prod.mk.inj (Option.some.inj hnext)
    exact ⟨FileTask.Progress.AccountsFor.finish h tree, rfl⟩
  | done task entry => cases hnext

namespace State

variable {s s' : State}

/-- A step of one of the tasks, or a change of the files by somebody else. -/
inductive OpenStep (engine : Engine) (policy : ConvertPolicy) : State → State → Prop
  | own {s s' : State} (h : Step engine policy s s') : OpenStep engine policy s s'
  | foreign (jobs : List Job) (tree tree' : FileTree) :
      OpenStep engine policy ⟨jobs, tree⟩ ⟨jobs, tree'⟩

/-- Any number of steps, among files that change. -/
def OpenRuns (engine : Engine) (policy : ConvertPolicy) : State → State → Prop :=
  Relation.ReflTransGen (OpenStep engine policy)

/-- A run of the batch alone is one among changing files in which nobody changes
them. -/
theorem Runs.openRuns (h : Runs engine policy s s') : OpenRuns engine policy s s' :=
  Relation.ReflTransGen.mono (fun _ _ hstep => OpenStep.own hstep) _ _ h

/-- A batch whose entries account for the files of some tasks. -/
structure AccountsFor (policy : ConvertPolicy) (tasks : List FileTask) (s : State) :
    Prop where
  map_task : s.jobs.map Job.task = tasks
  jobs : ∀ job ∈ s.jobs, job.AccountsFor policy

/-- At the start no entry has been made, so there is nothing to account for. -/
theorem accountsFor_start (policy : ConvertPolicy) (tasks : List FileTask)
    (tree : FileTree) : (start tasks tree).AccountsFor policy tasks where
  map_task := by
    rw [start, List.map_map]
    exact List.map_id tasks
  jobs := by
    intro job hjob
    obtain ⟨task, -, rfl⟩ := List.mem_map.mp hjob
    trivial

/-- **One step preserves** that the entries account for the files. -/
theorem AccountsFor.step (h : s.AccountsFor policy tasks)
    (hstep : OpenStep engine policy s s') : s'.AccountsFor policy tasks := by
  cases hstep with
  | foreign jobs tree tree' => exact ⟨h.map_task, h.jobs⟩
  | own hown =>
    cases hown with
    | @next before after job job' tree tree' hnext =>
      obtain ⟨hjob, htask⟩ := (h.jobs job (mem_replace.mpr (.inl rfl))).next hnext
      exact ⟨by simpa [htask] using h.map_task, forall_replace h.jobs hjob⟩

/-- **A run preserves** that the entries account for the files. -/
theorem AccountsFor.run (h : s.AccountsFor policy tasks)
    (hruns : OpenRuns engine policy s s') : s'.AccountsFor policy tasks := by
  induction hruns with
  | refl => exact h
  | tail _ hstep ih => exact ih.step hstep

/-- **Once a batch is done**, there is one entry for each file, in order. -/
theorem AccountsFor.map_file (h : s.AccountsFor policy tasks) (hcomplete : s.IsComplete) :
    s.entries.map (·.file) = tasks.map (·.input) := by
  have hfile : ∀ job ∈ s.jobs, job.entry?.map (·.file) = some job.task.input := by
    intro job hjob
    obtain ⟨task, entry, rfl⟩ := hcomplete job hjob
    have haccounts : entry.AccountsFor policy task.input := h.jobs _ hjob
    exact congrArg some haccounts.file_eq
  rw [entries, ← h.map_task, List.map_map, List.map_filterMap, ← List.filterMap_eq_map]
  exact List.filterMap_congr hfile

/-- Each entry of a state accounts for the file of some task. -/
theorem AccountsFor.of_mem_entries (h : s.AccountsFor policy tasks) (he : e ∈ s.entries) :
    ∃ file, e.AccountsFor policy file := by
  obtain ⟨job, hjob, hentry⟩ := List.mem_filterMap.mp he
  have haccounts := h.jobs job hjob
  cases job with
  | waiting task => cases hentry
  | started task progress => cases hentry
  | done task entry =>
    obtain rfl := Option.some.inj hentry
    exact ⟨task.input, haccounts⟩

/-- **From the entries to the counts**: where every entry accounts for its file, the
counts of the report add up, whatever the report says about time and dialect. -/
theorem AccountsFor.addsUp (h : s.AccountsFor policy tasks) (now : Timestamp)
    (d : Dialect) : BatchReport.AddsUp policy ⟨now, d, s.entries⟩ :=
  BatchReport.addsUp fun _ he => h.of_mem_entries he

end State

/-- The report of a batch that has passed its checks. -/
theorem convertDirectory_of_prepare {input out : Path} {made : FileTree}
    (h : prepare tree input out = (.ok tasks, made)) (engine : Engine)
    (policy : ConvertPolicy) (now : Timestamp) :
    convertDirectory engine input out policy now tree =
      (.ok ⟨now, engine.dialect, (runTasks engine policy tasks made).1⟩,
        (runTasks engine policy tasks made).2) := by
  rw [convertDirectory, h]

/-- **The counts of every batch add up.**  Whatever fails, there is one entry for each
file; no entry has both an output and an error, and one without a verdict has an error
and no parameters; and the files that were converted, that are invalid and that
something failed for are all files, each counted once.  If invalid strategies are
converted as well, those that were converted and those that something failed for are
already all files. -/
theorem counts_add_up (engine : Engine) (policy : ConvertPolicy) :
    (∀ tasks tree s, State.OpenRuns engine policy (.start tasks tree) s →
      s.IsComplete → ∀ now,
        s.entries.map (·.file) = tasks.map (·.input) ∧
          BatchReport.AddsUp policy ⟨now, engine.dialect, s.entries⟩) ∧
      ∀ input out now tree report final,
        convertDirectory engine input out policy now tree = (.ok report, final) →
        report.AddsUp policy := by
  refine ⟨fun tasks tree s hruns hcomplete now => ?_,
    fun input out now tree report final hconvert => ?_⟩
  · have haccounts := (State.accountsFor_start policy tasks tree).run hruns
    exact ⟨haccounts.map_file hcomplete, haccounts.addsUp now engine.dialect⟩
  · rw [convertDirectory] at hconvert
    split at hconvert
    · cases (Prod.mk.inj hconvert).1
    next tasks made hprepare =>
      -- One task after the other is a run, and complete.
      obtain ⟨hreport, -⟩ := Prod.mk.inj hconvert
      obtain ⟨jobs, hruns, -, hentries⟩ := exists_runs_runTasks engine policy tasks made
      rw [← Except.ok.inj hreport, ← hentries]
      exact ((State.accountsFor_start policy tasks made).run hruns.openRuns).addsUp now
        engine.dialect

/-- A strategy, bytes that are no text, a blank file, and a strategy whose name is
taken. -/
def fourFiles : FileTree :=
  ⟨[(["in".toList], .directory),
    (["in".toList, "a.cs".toList], .file (Text.toUtf8 "int x;".toList)),
    (["in".toList, "b.cs".toList], .file [255]), (["in".toList, "c.cs".toList], .file []),
    (["in".toList, "d.cs".toList], .file (Text.toUtf8 "int y;".toList)),
    (["out".toList], .directory)], []⟩

/-- The tasks for the four. -/
def fourTasks : List FileTask :=
  [⟨⟨"in/a.cs".toList⟩, .ok ⟨"out/a.cs".toList⟩⟩,
    ⟨⟨"in/b.cs".toList⟩, .ok ⟨"out/b.cs".toList⟩⟩,
    ⟨⟨"in/c.cs".toList⟩, .ok ⟨"out/c.cs".toList⟩⟩,
    ⟨⟨"in/d.cs".toList⟩, .error ⟨"d.cs".toList⟩⟩]

/-- A batch in which one file is converted, one is invalid and two fail, and one that
comes from a directory. -/
theorem counts_add_up_fourFiles :
    (∃ s, State.OpenRuns (Engine.powerLanguage.withRules []) .requireValid
      (.start fourTasks fourFiles) s ∧
        s.IsComplete ∧ s.entries.map (·.isConverted) = [true, false, false, false] ∧
        s.entries.map (·.error.isSome) = [false, true, false, true] ∧
        BatchReport.AddsUp .requireValid ⟨⟨0, 0⟩, Dialect.powerLanguage, s.entries⟩) ∧
      ∃ report final, convertDirectory .powerLanguage ⟨"in".toList⟩ ⟨"out".toList⟩ .always
        ⟨0, 0⟩ twoStrategies =
        (.ok report, final) ∧ report.entries.length = 2 ∧
        report.convertedCount + report.failedCount = 2 := by
  constructor
  · obtain ⟨jobs, hruns, hcomplete, hentries⟩ :=
      exists_runs_runTasks (Engine.powerLanguage.withRules []) .requireValid
        fourTasks fourFiles
    have hcounts := (counts_add_up (Engine.powerLanguage.withRules []) .requireValid).1
      fourTasks fourFiles _ hruns.openRuns hcomplete ⟨0, 0⟩
    refine ⟨_, hruns.openRuns, hcomplete, ?_, ?_, hcounts.2⟩
    · rw [hentries]
      decide +kernel
    · rw [hentries]
      decide +kernel
  · have hconvert :=
      convertDirectory_of_prepare prepare_twoStrategies .powerLanguage .always ⟨0, 0⟩
    refine ⟨_, _, hconvert, rfl, ?_⟩
    exact ((counts_add_up .powerLanguage .always).2 _ _ _ _ _ _ hconvert).of_always rfl

end Batch

end StrategyDialect
