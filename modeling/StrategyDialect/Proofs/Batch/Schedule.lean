import Mathlib.Logic.Relation
import StrategyDialect.Proofs.Batch.Plan
import StrategyDialect.Proofs.Engine

/-!
# Batches on several workers

The tasks of a batch may be worked on at the same time.  A task reads its file in one
step and writes its output in another, and between the two any steps of other tasks may
come.  A run of a batch is any sequence of such steps; nothing is assumed of the order.

All runs come to the same end, because no task is in the way of another (`Batch.Apart`):
the inputs lie in one directory and the outputs in a different one, and no two outputs
are planned at the same place.  So every task reads and writes as if it were alone with
the files that were there at the start, and what a run has done so far is known from the
tasks that are done (`Batch.State.Follows`).  This is what one step preserves
(`Batch.State.Follows.step`); everything else is read off.

## Main definitions

* `Batch.Job`, `Batch.State`: a task on its way, and a batch on its way
* `Batch.State.Step`, `Batch.State.Runs`: one step of one task, and any number of steps
* `Batch.Apart`: tasks that are not in the way of each other

## Main statements

* `Batch.State.Follows.step`, `Batch.State.Follows.run`: what a step and a run preserve
* `Batch.exists_runs_runTasks`: working on one task after the other is a run
* `Batch.runs_agree`: all runs of a batch come to the same end
-/

namespace StrategyDialect

namespace FileTask

variable {engine : Engine} {policy : ConvertPolicy} {t s : FileTree} {task : FileTask}
  {loc : Location} {contents : Bytes}

/-! ## A task on its own -/

/-- Where the output of a task goes, if the path of the output names a file. -/
def place? (t : FileTree) (task : FileTask) : Option Location :=
  match task.output with
  | .error _ => none
  | .ok output =>
    match t.target output with
    | .ok (.child parent name false) => some (parent ++ [name])
    | _ => none

/-- The place of a task is where its output would be put, if it has an output and the
path leads to a directory. -/
theorem place?_eq_some_iff :
    task.place? t = some loc ↔ ∃ output parent name, task.output = .ok output ∧
      t.target output = .ok (.child parent name false) ∧ loc = parent ++ [name] := by
  rw [place?]
  split
  next c houtput => simp [houtput]
  next output houtput =>
    split
    next parent name htarget => simp [houtput, htarget, eq_comm]
    next hnone =>
      simp only [reduceCtorEq, houtput, Except.ok.injEq, false_iff, not_exists, not_and]
      rintro _ parent name rfl htarget
      exact absurd htarget (hnone parent name)

/-- What a task writes that finds the tree `t`, and where. -/
def written? (engine : Engine) (policy : ConvertPolicy) (t : FileTree) (task : FileTask) :
    Option (Location × Bytes) :=
  match task.read engine policy t, task.place? t with
  | .writing _ _ contents, some loc =>
    if t.node? loc = some .directory then none else some (loc, contents)
  | _, _ => none

/-- What a task writes, it writes to its place, and there is no directory in the way. -/
theorem place?_of_written? (h : task.written? engine policy t = some (loc, contents)) :
    task.place? t = some loc ∧ t.node? loc ≠ some .directory := by
  rw [written?] at h
  split at h
  next hplace =>
    split at h
    · cases h
    next hnode =>
      obtain ⟨rfl, rfl⟩ := Prod.mk.inj (Option.some.inj h)
      exact ⟨hplace, hnode⟩
  next => cases h

/-- A task writes to the output that was planned for it. -/
theorem output_of_read {entry : BatchEntry} {output : Path}
    (h : task.read engine policy t = .writing entry output contents) :
    task.output = .ok output := by
  rw [read] at h
  split at h
  · cases h
  · split at h
    · cases h
    · rw [examine] at h
      dsimp only at h
      split at h
      · cases h
      · cases h
      next houtput =>
        cases h
        exact houtput

/-- After reading, no entry names an output yet. -/
def Progress.entry : Progress → BatchEntry
  | settled entry => entry
  | writing entry _ _ => entry

/-- After the first step no output is recorded yet.  It is recorded by the second one,
when it has been written. -/
theorem output_entry_read (engine : Engine) (policy : ConvertPolicy) (t : FileTree)
    (task : FileTask) : (task.read engine policy t).entry.output = none := by
  rw [read]
  split
  · rfl
  · split
    · rfl
    · rw [examine]
      dsimp only
      split <;> rfl

/-- An entry names an output if a file could be written. -/
theorem exists_of_output_run {output : Path}
    (h : (task.run engine policy t).1.output = some output) :
    ∃ entry contents parent name,
      task.read engine policy t = .writing entry output contents ∧
      t.target output = .ok (.child parent name false) ∧
      task.written? engine policy t = some (parent ++ [name], contents) := by
  have hnone := output_entry_read engine policy t task
  rw [run] at h
  cases hread : task.read engine policy t with
  | settled entry =>
    rw [hread] at h hnone
    exact absurd (hnone.symm.trans h) (by simp)
  | writing entry planned contents =>
    rw [hread] at h hnone
    rw [finish] at h
    split at h
    next made hwrite =>
      obtain ⟨parent, name, htarget, hnode, -⟩ := FileTree.writeFile_eq_ok_iff.mp hwrite
      obtain rfl : planned = output := Option.some.inj h
      have hplace :=
        place?_eq_some_iff.mpr ⟨planned, parent, name, output_of_read hread, htarget, rfl⟩
      refine ⟨entry, contents, parent, name, rfl, htarget, ?_⟩
      rw [written?, hread, hplace]
      exact if_neg hnode
    next => exact absurd (hnone.symm.trans h) (by simp)

/-- The tree with what a task writes. -/
def store (s : FileTree) : Option (Location × Bytes) → FileTree
  | none => s
  | some (loc, contents) => s.put loc (.file contents)

/-- A task reads the same wherever its input is the same. -/
theorem read_eq (hkeeps : t.Keeps s) (hinput : t.resolve task.input = .ok loc)
    (hnode : s.node? loc = t.node? loc) :
    task.read engine policy s = task.read engine policy t := by
  rw [read, read, hkeeps.readFile hinput hnode]

/-- A task ends the same way wherever the same is at the place of its output. -/
theorem finish_eq (hkeeps : t.Keeps s)
    (hplace : ∀ output, task.output = .ok output →
      ∃ loc, task.place? t = some loc ∧ s.node? loc = t.node? loc) :
    finish (task.read engine policy t) s =
      ((task.run engine policy t).1, store s (task.written? engine policy t)) := by
  rw [run, written?]
  cases hread : task.read engine policy t with
  | settled entry => rfl
  | writing entry output contents =>
    obtain ⟨loc, hloc, hnode⟩ := hplace output (output_of_read hread)
    obtain ⟨output', parent, name, houtput, htarget, rfl⟩ := place?_eq_some_iff.mp hloc
    obtain rfl : output' = output :=
      Except.ok.inj (houtput.symm.trans (output_of_read hread))
    rw [finish, finish, FileTree.writeFile_of_target htarget,
      FileTree.writeFile_of_target (hkeeps.target htarget), hnode, hloc]
    -- Writing fails just if there is a directory, which is the same in both trees.
    by_cases hdirectory : t.node? (parent ++ [name]) = some .directory
    · simp only [if_pos hdirectory]
      rfl
    · simp only [if_neg hdirectory]
      rfl

end FileTask

namespace Batch

variable {engine : Engine} {policy : ConvertPolicy} {tasks : List FileTask}
  {t tree made : FileTree} {loc : Location} {contents : Bytes} {input out : Path}

/-- Tasks that are not in the way of each other: every task has a file to read and a
place to write to, no output goes where an input is, and no two outputs go to the same
place. -/
structure Apart (tasks : List FileTask) (t : FileTree) : Prop where
  input : ∀ task ∈ tasks, ∃ loc, t.resolve task.input = .ok loc ∧ ∀ other ∈ tasks,
      other.place? t ≠ some loc
  output : ∀ task ∈ tasks, ∀ output, task.output = .ok output →
      ∃ loc, task.place? t = some loc
  places : tasks.Pairwise fun a b => ∀ loc, a.place? t = some loc → b.place? t ≠ some loc

/-! ## Steps -/

/-- A task on its way. -/
inductive Job where
  /-- Nothing has been done. -/
  | waiting (task : FileTask)
  /-- The file has been read. -/
  | started (task : FileTask) (progress : FileTask.Progress)
  /-- The task has led to an entry. -/
  | done (task : FileTask) (entry : BatchEntry)

namespace Job

/-- The task. -/
def task : Job → FileTask
  | waiting task => task
  | started task _ => task
  | done task _ => task

/-- The entry, when there is one. -/
def entry? : Job → Option BatchEntry
  | waiting _ => none
  | started _ _ => none
  | done _ entry => some entry

/-- The next step of a task, with the files after it. -/
def next? (engine : Engine) (policy : ConvertPolicy) (tree : FileTree) :
    Job → Option (Job × FileTree)
  | waiting task => some (.started task (task.read engine policy tree), tree)
  | started task progress =>
    some (.done task (FileTask.finish progress tree).1, (FileTask.finish progress tree).2)
  | done _ _ => none

/-- A job that has gone as if its task were alone with the files of `t`. -/
def IsFaithful (engine : Engine) (policy : ConvertPolicy) (t : FileTree) : Job → Prop
  | waiting _ => True
  | started task progress => progress = task.read engine policy t
  | done task entry => entry = (task.run engine policy t).1

/-- What a job has written so far, and where. -/
def written? (engine : Engine) (policy : ConvertPolicy) (t : FileTree) :
    Job → Option (Location × Bytes)
  | waiting _ => none
  | started _ _ => none
  | done task _ => task.written? engine policy t

/-- What a job has written stands at the place of its task. -/
theorem place?_of_written? {job : Job}
    (h : job.written? engine policy t = some (loc, contents)) :
    job.task.place? t = some loc := by
  cases job with
  | waiting task => cases h
  | started task progress => cases h
  | done task entry => exact (FileTask.place?_of_written? h).1

end Job

/-- It stands where there was no directory when the batch began, so no directory has
been lost. -/
theorem Job.node?_of_written? {job : Job}
    (h : job.written? engine policy t = some (loc, contents)) :
    t.node? loc ≠ some .directory := by
  cases job with
  | waiting task => cases h
  | started task progress => cases h
  | done task entry => exact (FileTask.place?_of_written? h).2

/-- A batch on its way. -/
structure State where
  jobs : List Job
  tree : FileTree

namespace State

/-- A batch that nothing has been done for. -/
def start (tasks : List FileTask) (tree : FileTree) : State :=
  ⟨tasks.map .waiting, tree⟩

/-- One step of one of the tasks. -/
inductive Step (engine : Engine) (policy : ConvertPolicy) : State → State → Prop
  | next (before after : List Job) {job job' : Job} {tree tree' : FileTree}
      (h : job.next? engine policy tree = some (job', tree')) :
      Step engine policy ⟨before ++ job :: after, tree⟩ ⟨before ++ job' :: after, tree'⟩

/-- Any number of steps, in any order. -/
def Runs (engine : Engine) (policy : ConvertPolicy) : State → State → Prop :=
  Relation.ReflTransGen (Step engine policy)

/-- A batch with all its tasks done. -/
def IsComplete (s : State) : Prop :=
  ∀ job ∈ s.jobs, ∃ task entry, job = .done task entry

/-- The entries so far, in the order of the tasks. -/
def entries (s : State) : List BatchEntry :=
  s.jobs.filterMap Job.entry?

/-! ## What a run preserves -/

/-- A batch in which every task has gone as if it were alone with the files of `t`, and
the files are those of `t`, except where a task has written. -/
structure Follows (engine : Engine) (policy : ConvertPolicy) (tasks : List FileTask)
    (t : FileTree) (s : State) : Prop where
  map_task : s.jobs.map Job.task = tasks
  isFaithful : ∀ job ∈ s.jobs, job.IsFaithful engine policy t
  keeps : t.Keeps s.tree
  wellFormed : t.WellFormed → s.tree.WellFormed
  written : ∀ job ∈ s.jobs, ∀ loc contents,
    job.written? engine policy t = some (loc, contents) →
    s.tree.node? loc = some (.file contents)
  untouched : ∀ loc,
    (∀ job ∈ s.jobs, ∀ contents, job.written? engine policy t ≠ some (loc, contents)) →
    s.tree.node? loc = t.node? loc

/-- At the start every job has yet to begin, and the tree is as it was. -/
theorem follows_start (tasks : List FileTask) (t : FileTree) :
    (start tasks t).Follows engine policy tasks t where
  map_task := by
    rw [start, List.map_map]
    exact List.map_id tasks
  isFaithful := by
    intro job hjob
    obtain ⟨task, -, rfl⟩ := List.mem_map.mp hjob
    trivial
  keeps := .refl t
  wellFormed := id
  written := by
    intro job hjob loc contents h
    obtain ⟨task, -, rfl⟩ := List.mem_map.mp hjob
    cases h
  untouched _ _ := rfl

variable {s s' : State} {before after : List Job} {job job' : Job}

/-- The jobs of a state are jobs of the tasks that it was started with. -/
theorem Follows.mem_tasks (h : s.Follows engine policy tasks t) (hjob : job ∈ s.jobs) :
    job.task ∈ tasks := by
  rw [← h.map_task]
  exact List.mem_map_of_mem hjob

/-- The place of one task is not that of another. -/
private theorem place?_ne (h : Follows engine policy tasks t
    ⟨before ++ job :: after, tree⟩) (hapart : Apart tasks t) {other : Job} (hother :
    other ∈ before ++ after) (hplace : job.task.place? t = some loc) :
    other.task.place? t ≠ some loc := by
  have hpairwise := hapart.places
  rw [← h.map_task, List.pairwise_map] at hpairwise
  have hsymm : ∀ {a b : Job},
      (∀ loc, a.task.place? t = some loc → b.task.place? t ≠ some loc) →
      ∀ loc, b.task.place? t = some loc → a.task.place? t ≠ some loc :=
    fun hab loc hb ha => hab loc ha hb
  rw [List.pairwise_middle hsymm, List.pairwise_cons] at hpairwise
  exact hpairwise.1 other hother loc hplace

/-- While a task has written nothing, the place of its output is as it was. -/
private theorem node?_place
    (h : Follows engine policy tasks t ⟨before ++ job :: after, tree⟩)
    (hapart : Apart tasks t) (hnone : job.written? engine policy t = none)
    (hplace : job.task.place? t = some loc) : tree.node? loc = t.node? loc := by
  refine h.untouched loc fun other hother contents hwritten => ?_
  rcases List.mem_append.mp hother with hmem | hmem
  · exact place?_ne h hapart (List.mem_append_left _ hmem) hplace
      (Job.place?_of_written? hwritten)
  · rcases List.mem_cons.mp hmem with rfl | hmem
    · rw [hnone] at hwritten
      cases hwritten
    · exact place?_ne h hapart (List.mem_append_right _ hmem) hplace
        (Job.place?_of_written? hwritten)

/-- The place of an input is as it was. -/
private theorem node?_input (h : s.Follows engine policy tasks t)
    (hfree : ∀ other ∈ tasks, other.place? t ≠ some loc) :
    s.tree.node? loc = t.node? loc :=
  h.untouched loc fun _ hjob _ hwritten =>
    hfree _ (h.mem_tasks hjob) (Job.place?_of_written? hwritten)

/-- The jobs that are left as they are when one of them goes on. -/
theorem mem_replace {other : Job} :
    other ∈ before ++ job :: after ↔ other = job ∨ other ∈ before ++ after := by
  simp only [List.mem_append, List.mem_cons]
  tauto

/-- What holds of all jobs is kept if it holds of the new one. -/
theorem forall_replace {q : Job → Prop} (h : ∀ other ∈ before ++ job :: after, q other)
    (hjob : q job') : ∀ other ∈ before ++ job' :: after, q other := by
  intro other hother
  rcases mem_replace.mp hother with rfl | hmem
  · exact hjob
  · exact h other (mem_replace.mpr (.inr hmem))

/-- A job may go on without writing anything, and then the tree stays as it is.  This
covers the first step of every job, and the second one where there is nothing to
write. -/
private theorem Follows.replace_of_none
    (h : Follows engine policy tasks t ⟨before ++ job :: after, tree⟩)
    (hnone : job.written? engine policy t = none) (htask : job'.task = job.task)
    (hfaithful : job'.IsFaithful engine policy t)
    (hnone' : job'.written? engine policy t = none) :
    Follows engine policy tasks t ⟨before ++ job' :: after, tree⟩ where
  map_task := by simpa [htask] using h.map_task
  isFaithful := forall_replace h.isFaithful hfaithful
  keeps := h.keeps
  wellFormed := h.wellFormed
  written := forall_replace h.written fun loc contents hwritten => by
    rw [hnone'] at hwritten
    cases hwritten
  untouched loc hfree := by
    refine h.untouched loc (forall_replace hfree fun contents => ?_)
    simp [hnone]

/-- A job may write what its task would write alone. -/
private theorem Follows.replace_of_some
    (h : Follows engine policy tasks t ⟨before ++ job :: after, tree⟩)
    (hapart : Apart tasks t) (hnone : job.written? engine policy t = none)
    (htask : job'.task = job.task) (hfaithful : job'.IsFaithful engine policy t)
    (hwritten : job'.written? engine policy t = some (loc, contents)) :
    Follows engine policy tasks t
      ⟨before ++ job' :: after, tree.put loc (.file contents)⟩ := by
  -- The task writes where nobody else has written: there it finds what was there at the
  -- start.
  have hplace : job.task.place? t = some loc := htask ▸ Job.place?_of_written? hwritten
  have hsame : tree.node? loc = t.node? loc := node?_place h hapart hnone hplace
  obtain ⟨output, parent, name, -, htarget, hloc⟩ := FileTask.place?_eq_some_iff.mp hplace
  have hne : loc ≠ [] := by simp [hloc]
  refine ⟨by simpa [htask] using h.map_task, forall_replace h.isFaithful hfaithful,
    ?_, fun hw => ?_,
    fun other hother l c hc => ?_, fun l hfree => ?_⟩
  · refine h.keeps.trans (FileTree.keeps_put hne (.inl ?_))
    rw [hsame]
    exact Job.node?_of_written? hwritten
  · refine (h.wellFormed hw).put hne ?_
    rw [hloc]
    exact hw.isFileName_of_target htarget
  · rw [FileTree.node?_put hne]
    rcases mem_replace.mp hother with rfl | hmem
    · obtain ⟨rfl, rfl⟩ := Prod.mk.inj (Option.some.inj (hwritten.symm.trans hc))
      rw [if_pos rfl]
    · have hl : l ≠ loc := by
        rintro rfl
        exact place?_ne h hapart hmem hplace (Job.place?_of_written? hc)
      rw [if_neg hl]
      exact h.written other (mem_replace.mpr (.inr hmem)) l c hc
  · have hl : l ≠ loc := by
      rintro rfl
      exact hfree job' (mem_replace.mpr (.inl rfl)) contents hwritten
    rw [FileTree.node?_put hne, if_neg hl]
    refine h.untouched l (forall_replace hfree fun contents => ?_)
    simp [hnone]

/-- A job may go on as its task would do alone. -/
private theorem Follows.replace
    (h : Follows engine policy tasks t ⟨before ++ job :: after, tree⟩)
    (hapart : Apart tasks t) (hnone : job.written? engine policy t = none)
    (htask : job'.task = job.task) (hfaithful : job'.IsFaithful engine policy t) :
    Follows engine policy tasks t
      ⟨before ++ job' :: after, FileTask.store tree (job'.written? engine policy t)⟩ := by
  cases hwritten : job'.written? engine policy t with
  | none => exact h.replace_of_none hnone htask hfaithful hwritten
  | some write => exact h.replace_of_some hapart hnone htask hfaithful hwritten

/-- **One step preserves** that every task goes as if it were alone. -/
theorem Follows.step (h : s.Follows engine policy tasks t) (hapart : Apart tasks t)
    (hstep : Step engine policy s s') : s'.Follows engine policy tasks t := by
  cases hstep with
  | @next before after job job' tree tree' hnext =>
    have hjob : job ∈ before ++ job :: after := mem_replace.mpr (.inl rfl)
    cases job with
    | waiting task =>
      obtain ⟨rfl, rfl⟩ := Prod.mk.inj (Option.some.inj hnext)
      -- No task writes to an input, so what is read now is what was there at the start.
      obtain ⟨loc, hinput, hfree⟩ := hapart.input task (h.mem_tasks hjob)
      exact h.replace hapart rfl rfl
        (FileTask.read_eq h.keeps hinput (node?_input h hfree))
    | started task progress =>
      obtain rfl : progress = task.read engine policy t := h.isFaithful _ hjob
      -- No other task writes to the place of the output, so writing ends as if alone.
      have hfinish : FileTask.finish (task.read engine policy t) tree =
          ((task.run engine policy t).1,
            FileTask.store tree (task.written? engine policy t)) := by
        refine FileTask.finish_eq h.keeps fun output houtput => ?_
        obtain ⟨loc, hplace⟩ := hapart.output task (h.mem_tasks hjob) output houtput
        exact ⟨loc, hplace, node?_place h hapart rfl hplace⟩
      rw [Job.next?, hfinish] at hnext
      obtain ⟨rfl, rfl⟩ := Prod.mk.inj (Option.some.inj hnext)
      exact h.replace hapart rfl rfl rfl
    | done task entry => cases hnext

/-- **A run preserves** that every task goes as if it were alone. -/
theorem Follows.run (h : s.Follows engine policy tasks t) (hapart : Apart tasks t)
    (hrun : Runs engine policy s s') : s'.Follows engine policy tasks t := by
  induction hrun with
  | refl => exact h
  | tail _ hstep ih => exact ih.step hapart hstep

/-! ## Complete runs -/

/-- The entries of a batch that is done are those of the tasks by themselves, each run
on the tree that the batch began with. -/
theorem Follows.entries_eq (h : s.Follows engine policy tasks t)
    (hcomplete : s.IsComplete) :
    s.entries = tasks.map fun task => (task.run engine policy t).1 := by
  have hentry : ∀ job ∈ s.jobs, job.entry? = some (job.task.run engine policy t).1 := by
    intro job hjob
    obtain ⟨task, entry, rfl⟩ := hcomplete job hjob
    rw [Job.entry?, h.isFaithful _ hjob]
    rfl
  rw [entries, ← h.map_task, List.map_map, ← List.filterMap_eq_map]
  exact List.filterMap_congr hentry

/-- **All that have followed the same tasks to their end have the same files.** -/
theorem Follows.node?_eq (h : s.Follows engine policy tasks t)
    (h' : s'.Follows engine policy tasks t) (hcomplete : s.IsComplete)
    (hcomplete' : s'.IsComplete) (loc : Location) :
    s.tree.node? loc = s'.tree.node? loc := by
  have hjobs : ∀ {s : State}, s.Follows engine policy tasks t → s.IsComplete →
      ∀ task contents, task ∈ tasks →
      task.written? engine policy t = some (loc, contents) →
        s.tree.node? loc = some (.file contents) := by
    intro s h hcomplete task contents htask hwritten
    rw [← h.map_task] at htask
    obtain ⟨job, hjob, rfl⟩ := List.mem_map.mp htask
    obtain ⟨task, entry, rfl⟩ := hcomplete job hjob
    exact h.written _ hjob loc contents hwritten
  have hfree : ∀ {s : State}, s.Follows engine policy tasks t → s.IsComplete →
      (∀ task ∈ tasks, ∀ contents, task.written? engine policy t ≠ some (loc, contents)) →
        s.tree.node? loc = t.node? loc := by
    intro s h hcomplete hnot
    refine h.untouched loc fun job hjob contents hwritten => ?_
    obtain ⟨task, entry, rfl⟩ := hcomplete job hjob
    exact hnot task (h.mem_tasks hjob) contents hwritten
  -- A location that some task writes to holds what this task writes, in both states.
  by_cases hsome : ∃ task ∈ tasks, ∃ contents,
    task.written? engine policy t = some (loc, contents)
  · obtain ⟨task, htask, contents, hwritten⟩ := hsome
    rw [hjobs h hcomplete task contents htask hwritten,
      hjobs h' hcomplete' task contents htask hwritten]
  · simp only [not_exists, not_and] at hsome
    rw [hfree h hcomplete hsome, hfree h' hcomplete' hsome]

/-- A task that has been done leads to what its run led to at the start. -/
theorem Follows.done (h : s.Follows engine policy tasks t) {task : FileTask}
    {entry : BatchEntry} (hjob : .done task entry ∈ s.jobs) :
    entry = (task.run engine policy t).1 :=
  h.isFaithful _ hjob

/-- In a batch that is done, every task is. -/
theorem Follows.done_mem_jobs (h : s.Follows engine policy tasks t)
    (hcomplete : s.IsComplete) {task : FileTask} (htask : task ∈ tasks) :
    .done task (task.run engine policy t).1 ∈ s.jobs := by
  rw [← h.map_task] at htask
  obtain ⟨job, hjob, rfl⟩ := List.mem_map.mp htask
  obtain ⟨task, entry, rfl⟩ := hcomplete job hjob
  rw [h.done hjob] at hjob
  exact hjob

/-- **No task's output is lost**: where an entry says there is one, there is what its
own task has written. -/
theorem Follows.exists_output (h : s.Follows engine policy tasks t) {task : FileTask}
    {entry : BatchEntry} {output : Path} (hjob : .done task entry ∈ s.jobs)
    (houtput : entry.output = some output) :
    ∃ report contents parent name,
      task.read engine policy t = .writing report output contents ∧
      s.tree.target output = .ok (.child parent name false) ∧
      s.tree.node? (parent ++ [name]) = some (.file contents) := by
  rw [h.done hjob] at houtput
  obtain ⟨report, contents, parent, name, hread, htarget, hwritten⟩ :=
    FileTask.exists_of_output_run houtput
  exact ⟨report, contents, parent, name, hread, h.keeps.target htarget,
    h.written _ hjob (parent ++ [name]) contents hwritten⟩

/-! ## Runs to the end -/

/-- Some steps of one task, while the others wait. -/
private theorem runs_next {job job' job'' : Job} {tree tree' tree'' : FileTree}
    (h : job.next? engine policy tree = some (job', tree'))
    (h' : job'.next? engine policy tree' = some (job'', tree''))
    (before after : List Job) :
    Runs engine policy ⟨before ++ job :: after, tree⟩
      ⟨before ++ job'' :: after, tree''⟩ :=
  (Relation.ReflTransGen.single (.next before after h)).tail (.next before after h')

/-- **Every run can be completed**: as long as a job is not done, it can make a step. -/
theorem exists_runs_isComplete (s : State) :
    ∃ s', Runs engine policy s s' ∧ s'.IsComplete := by
  -- The jobs `before` are done; the others are completed from left to right.
  suffices h : ∀ (jobs before : List Job) (tree : FileTree),
      (∀ job ∈ before, ∃ task entry, job = .done task entry) →
      ∃ s', Runs engine policy ⟨before ++ jobs, tree⟩ s' ∧ s'.IsComplete from
    h s.jobs [] s.tree (by simp)
  intro jobs
  induction jobs with
  | nil =>
    intro before tree hbefore
    refine ⟨_, .refl, ?_⟩
    simpa [IsComplete] using hbefore
  | cons job after ih =>
    intro before tree hbefore
    obtain ⟨entry, tree', hruns⟩ : ∃ entry tree',
        Runs engine policy ⟨before ++ job :: after, tree⟩
        ⟨before ++ .done job.task entry :: after, tree'⟩ := by
      cases job with
      | waiting task => exact ⟨_, _, runs_next rfl rfl before after⟩
      | started task progress => exact ⟨_, _, .single (.next before after rfl)⟩
      | done task entry => exact ⟨entry, tree, .refl⟩
    have hdone : ∀ other ∈ before ++ [.done job.task entry], ∃ task entry,
        other = Job.done task entry := by
      intro other hother
      rcases List.mem_append.mp hother with hmem | hmem
      · exact hbefore other hmem
      · exact ⟨_, _, List.mem_singleton.mp hmem⟩
    obtain ⟨s', hruns', hcomplete⟩ := ih (before ++ [.done job.task entry]) tree' hdone
    rw [List.append_assoc] at hruns'
    exact ⟨s', hruns.trans hruns', hcomplete⟩

end State

/-- **One task after the other** is a run, the one that takes the jobs in their order
and makes both steps of each. -/
theorem exists_runs_runTasks (engine : Engine) (policy : ConvertPolicy)
    (tasks : List FileTask) (t : FileTree) :
    ∃ jobs, State.Runs engine policy (.start tasks t)
      ⟨jobs, (runTasks engine policy tasks t).2⟩ ∧
      State.IsComplete ⟨jobs, (runTasks engine policy tasks t).2⟩ ∧
      State.entries ⟨jobs, (runTasks engine policy tasks t).2⟩ =
        (runTasks engine policy tasks t).1 := by
  -- The tasks follow on jobs `before` that have nothing left to do.
  suffices h : ∀ (before : List Job) (t : FileTree), ∃ jobs,
      State.Runs engine policy ⟨before ++ tasks.map .waiting, t⟩
        ⟨before ++ jobs, (runTasks engine policy tasks t).2⟩ ∧
      (∀ job ∈ jobs, ∃ task entry, job = .done task entry) ∧
      jobs.filterMap Job.entry? = (runTasks engine policy tasks t).1 from h [] t
  induction tasks with
  | nil => exact fun before t => ⟨[], .refl, by simp, rfl⟩
  | cons task tasks ih =>
    intro before t
    have hfirst : State.Runs engine policy
        ⟨before ++ .waiting task :: tasks.map .waiting, t⟩
        ⟨before ++ .done task (task.run engine policy t).1 :: tasks.map .waiting,
          (task.run engine policy t).2⟩ :=
      State.runs_next rfl rfl before (tasks.map .waiting)
    obtain ⟨jobs, hruns, hdone, hentries⟩ :=
      ih (before ++ [.done task (task.run engine policy t).1])
        (task.run engine policy t).2
    rw [List.append_assoc, List.append_assoc] at hruns
    refine ⟨.done task (task.run engine policy t).1 :: jobs, hfirst.trans hruns, ?_, ?_⟩
    · exact List.forall_mem_cons.mpr ⟨⟨_, _, rfl⟩, hdone⟩
    · exact congrArg ((task.run engine policy t).1 :: ·) hentries

/-! ## Batches that have been prepared -/

/-- The outputs of a prepared batch go to the output directory. -/
theorem Prepared.place?_eq {inputLoc outLoc : Location}
    (h : Prepared tree input out tasks made inputLoc outLoc) {task : FileTask}
    (htask : task ∈ tasks) (hplace : task.place? made = some loc) :
    ∃ name, task.output = .ok (out.join name) ∧ loc = outLoc ++ [name] := by
  obtain ⟨output, parent, name, houtput, htarget, rfl⟩ :=
    FileTask.place?_eq_some_iff.mp hplace
  obtain ⟨name', hname, rfl⟩ := h.exists_output htask houtput
  rw [FileTree.target_join hname h.resolve_out h.directory_out] at htarget
  obtain ⟨rfl, rfl, -⟩ := FileTree.Target.child.inj (Except.ok.inj htarget)
  exact ⟨_, houtput, rfl⟩

/-- **The tasks of a prepared batch are not in the way of each other.** -/
theorem Prepared.apart {inputLoc outLoc : Location}
    (h : Prepared tree input out tasks made inputLoc outLoc) (hw : tree.WellFormed) :
    Apart tasks made where
  input task htask := by
    obtain ⟨name, contents, hname, -, heq, hnode⟩ := h.exists_input hw htask
    have hsome := Option.isSome_of_eq_some hnode
    refine ⟨inputLoc ++ [name], ?_, fun other hother hplace => ?_⟩
    · rw [heq]
      exact FileTree.resolve_join hname h.resolve_input h.directory_input hsome
    · obtain ⟨name', -, hloc⟩ := h.place?_eq hother hplace
      exact h.ne (List.append_inj_left' hloc rfl)
  output task htask output houtput := by
    obtain ⟨name, hname, rfl⟩ := h.exists_output htask houtput
    exact ⟨outLoc ++ [name], FileTask.place?_eq_some_iff.mpr
      ⟨_, outLoc, name, houtput,
        FileTree.target_join hname h.resolve_out h.directory_out, rfl⟩⟩
  places := by
    have hpairwise := pairwise_tasks (filesAmong input (made.children inputLoc)) out
    rw [← h.tasks_eq] at hpairwise
    refine hpairwise.imp_of_mem fun {a b} ha hb hne loc hplace hplace' => ?_
    obtain ⟨name, houtput, hloc⟩ := h.place?_eq ha hplace
    obtain ⟨name', houtput', hloc'⟩ := h.place?_eq hb hplace'
    -- Two outputs at one place have one name, but the planned names differ.
    obtain rfl : name = name' := by
      rw [hloc] at hloc'
      exact List.singleton_inj.mp (List.append_cancel_left hloc')
    exact hne _ houtput houtput'

/-- The tasks are in the order of their paths. -/
theorem Prepared.pairwise_input {inputLoc outLoc : Location}
    (h : Prepared tree input out tasks made inputLoc outLoc) (hw : tree.WellFormed) :
    (tasks.map (·.input)).Pairwise Path.Before := by
  have hmade : made.WellFormed := h.addsDirectories.wellFormed hw
  rw [h.tasks_eq, map_input_tasks]
  refine pairwise_filesAmong (hmade.nodup_children inputLoc) fun entry hentry => ?_
  exact hmade.isFileName (hmade.mem_children_iff.mp hentry)

/-- The inputs can be read, and are read the same at every point of a run. -/
theorem Prepared.readFile_input_of_follows {inputLoc outLoc : Location} {s : State}
    (h : Prepared tree input out tasks made inputLoc outLoc) (hw : tree.WellFormed)
    (hs : s.Follows engine policy tasks made) {task : FileTask} (htask : task ∈ tasks) :
    ∃ contents, tree.readFile task.input = .ok contents ∧
      s.tree.readFile task.input = .ok contents := by
  obtain ⟨name, contents, hname, -, heq, hnode⟩ := h.exists_input hw htask
  have hread := h.readFile_input hname hnode
  obtain ⟨loc, hinput, hfree⟩ := (h.apart hw).input task htask
  refine ⟨contents, heq ▸ hread, ?_⟩
  rw [hs.keeps.readFile hinput (State.node?_input hs hfree), heq]
  exact h.addsDirectories.readFile hread

/-- **All runs of a batch come to the same end.**  Whatever the order of the steps, the
inputs stay as they were, no output that a task has written is overwritten, the run can
be completed, and once it is, its entries and its files are those of converting one file
after the other, in the order of the paths. -/
theorem runs_agree (hw : tree.WellFormed)
    (hprepare : prepare tree input out = (.ok tasks, made)) {s : State}
    (hrun : State.Runs engine policy (.start tasks made) s) (now : Timestamp) :
    (tasks.map (·.input)).Pairwise Path.Before ∧
      (∀ task ∈ tasks, ∃ contents, tree.readFile task.input = .ok contents ∧
        s.tree.readFile task.input = .ok contents) ∧
      (∀ task entry output, .done task entry ∈ s.jobs → entry.output = some output →
        ∃ report contents, task.read engine policy made =
          .writing report output contents ∧
          s.tree.readFile output = .ok contents) ∧
      (∃ s', State.Runs engine policy s s' ∧ s'.IsComplete) ∧
      (s.IsComplete → ∃ report final,
        convertDirectory engine input out policy now tree = (.ok report, final) ∧
        s.entries = report.entries ∧ s.tree.Same final) := by
  obtain ⟨inputLoc, outLoc, h⟩ := exists_prepared_of_prepare hprepare
  have hapart := h.apart hw
  have hmade : made.WellFormed := h.addsDirectories.wellFormed hw
  have hfollows : s.Follows engine policy tasks made :=
    (State.follows_start tasks made).run hapart hrun
  refine ⟨h.pairwise_input hw, fun task htask =>
    h.readFile_input_of_follows hw hfollows htask,
    fun task entry output hjob houtput => ?_, State.exists_runs_isComplete s,
      fun hcomplete => ?_⟩
  · obtain ⟨report, contents, parent, name, hread, htarget, hnode⟩ :=
      hfollows.exists_output hjob houtput
    exact ⟨report, contents, hread, FileTree.readFile_of_target htarget hnode⟩
  -- Converting one file after the other is a run, too, and complete.
  obtain ⟨jobs, hruns, hcomplete', hentries⟩ :=
    exists_runs_runTasks engine policy tasks made
  have hfollows' := (State.follows_start tasks made).run hapart hruns
  refine ⟨⟨now, engine.dialect, (runTasks engine policy tasks made).1⟩,
    (runTasks engine policy tasks made).2, ?_, ?_, ?_⟩
  · rw [convertDirectory, hprepare]
  · rw [← hentries, hfollows.entries_eq hcomplete, hfollows'.entries_eq hcomplete']
  · exact FileTree.same_of_node? (hfollows.wellFormed hmade) (hfollows'.wellFormed hmade)
      (hfollows.keeps.workingDirectory.trans hfollows'.keeps.workingDirectory.symm)
      (hfollows.node?_eq hfollows' hcomplete hcomplete')

/-- A directory with two strategies. -/
def twoStrategies : FileTree :=
  ⟨[(["in".toList], .directory),
    (["in".toList, "a.cs".toList], .file (Text.toUtf8 "int x;".toList)),
    (["in".toList, "b.txt".toList], .file (Text.toUtf8 "int y;".toList))], []⟩

/-- The tasks for the two. -/
def twoTasks : List FileTask :=
  [⟨⟨"in/a.cs".toList⟩, .ok ⟨"out/a.cs".toList⟩⟩,
    ⟨⟨"in/b.txt".toList⟩, .ok ⟨"out/b.cs".toList⟩⟩]

/-- The tree of the example is well formed. -/
theorem wellFormed_twoStrategies : twoStrategies.WellFormed where
  nodup := by decide
  ne_nil := by decide
  isFileName_of_mem := by decide

/-- It is converted into a directory that has to be made. -/
theorem prepare_twoStrategies :
    prepare twoStrategies ⟨"in".toList⟩ ⟨"out".toList⟩ =
      (.ok twoTasks, twoStrategies.put ["out".toList] .directory) := by
  have hmade : twoStrategies.createDirectories ⟨"out".toList⟩ =
      (.ok (), twoStrategies.put ["out".toList] .directory) := rfl
  have hlist : (twoStrategies.put ["out".toList] .directory).listDirectory ⟨"in".toList⟩ =
      .ok [("a.cs".toList, .file (Text.toUtf8 "int x;".toList)),
        ("b.txt".toList, .file (Text.toUtf8 "int y;".toList))] := rfl
  have hfiles : strategyFiles (twoStrategies.put ["out".toList] .directory)
      ⟨"in".toList⟩ = .ok [⟨"in/a.cs".toList⟩, ⟨"in/b.txt".toList⟩] := by
    rw [strategyFiles, hlist]
    show Except.ok (filesAmong _ _) = _
    rw [filesAmong, List.mergeSort_of_pairwise (by decide)]
    rfl
  rw [prepare, if_pos (by decide), hmade]
  dsimp only
  rw [hfiles]
  rfl

/-- A run in which both files are read before the second and then the first output is
written. -/
theorem runs_agree_interleaved :
    twoStrategies.WellFormed ∧
      prepare twoStrategies ⟨"in".toList⟩ ⟨"out".toList⟩ =
        (.ok twoTasks, twoStrategies.put ["out".toList] .directory) ∧
      ∃ s, State.Runs .powerLanguage .always
        (.start twoTasks (twoStrategies.put ["out".toList] .directory)) s ∧
        ∃ report final, convertDirectory .powerLanguage ⟨"in".toList⟩ ⟨"out".toList⟩
          .always ⟨0, 0⟩ twoStrategies =
          (.ok report, final) ∧ s.entries = report.entries ∧ s.tree.Same final := by
  have hruns : State.Runs .powerLanguage .always
      (.start twoTasks (twoStrategies.put ["out".toList] .directory)) _ :=
    (((Relation.ReflTransGen.single (.next [] [_] rfl)).tail (.next [_] [] rfl)).tail
      (.next [_] [] rfl)).tail (.next [] [_] rfl)
  refine ⟨wellFormed_twoStrategies, prepare_twoStrategies, _, hruns, ?_⟩
  refine (runs_agree wellFormed_twoStrategies prepare_twoStrategies hruns ⟨0, 0⟩).2.2.2.2
    ?_
  exact List.forall_mem_cons.mpr ⟨⟨_, _, rfl⟩, List.forall_mem_singleton.mpr ⟨_, _, rfl⟩⟩

end Batch

end StrategyDialect
