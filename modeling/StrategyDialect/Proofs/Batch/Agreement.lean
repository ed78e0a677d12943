import StrategyDialect.Proofs.Batch.Schedule
import StrategyDialect.Proofs.CommandLine.Execution

/-!
# A batch and its files one by one

Converting a directory and converting a single file are different commands: one plans
its outputs and records failures in entries, the other is told its output and fails.
They agree on every file all the same.  What the batch reports of a file is what the
engine finds out about its text (`FileTask.run_of_text`), under the class name that the
file suggests; where the batch has written an output, the command would write the same
bytes, and where it has written nothing and reports no error, the command refuses
(`Batch.AgreesOn`).

The files themselves are those of the directory with one of the extensions, each of them
once, in the order of their paths.

## Main definitions

* `Batch.AgreesOn`: an entry that tells of a file what the command for this file does

## Main statements

* `FileTask.run_of_text`, `FileTask.run_of_notUtf8`: the entry for a file
* `Batch.convertDirectory_agrees`: the files of a batch, and that it agrees on each of
  them
-/

namespace StrategyDialect

namespace FileTask

variable {engine : Engine} {policy : ConvertPolicy} {t : FileTree} {task : FileTask}
  {bytes : Bytes} {source : Text}

/-- An entry is about the file of its task. -/
theorem file_run (engine : Engine) (policy : ConvertPolicy) (t : FileTree)
    (task : FileTask) : (task.run engine policy t).1.file = task.input := by
  have hentry : (task.read engine policy t).entry.file = task.input := by
    rw [read]
    split
    · rfl
    · split
      · rfl
      · rw [examine]
        dsimp only
        split <;> rfl
  rw [run]
  cases hread : task.read engine policy t with
  | settled entry =>
    rw [hread] at hentry
    exact hentry
  | writing entry output contents =>
    rw [hread] at hentry
    rw [finish]
    split <;> exact hentry

/-- The entry for a file that is no UTF-8 text. -/
theorem run_of_notUtf8 (hread : t.readFile task.input = .ok bytes) {offset : Nat}
    (hbytes : Text.ofUtf8? bytes = .error offset) :
    (task.run engine policy t).1 = .failed task.input (.notUtf8 offset) := by
  rw [run, read, hread]
  dsimp only
  rw [hbytes]
  rfl

/-- **The entry for a file** reports what a run of the engine on its text reports.  It
names an output or an error exactly if the run converts the text, and the output has the
code that the run generates. -/
theorem run_of_text (hread : t.readFile task.input = .ok bytes)
    (hbytes : Text.ofUtf8? bytes = .ok source) {report : RunReport}
    (hreport : engine.run source policy (ClassName.ofText? (OutputPlan.stem task.input)) =
      report) :
    (task.run engine policy t).1.validation = some report.validation ∧
      (task.run engine policy t).1.parameters = report.parameters ∧
      ((task.run engine policy t).1.output = none ∧
        (task.run engine policy t).1.error = none ↔
        report.conversion = none) ∧
      ∀ entry output contents,
        task.read engine policy t = .writing entry output contents →
        ∃ c, report.conversion = some c ∧ contents = c.generatedCode.toUtf8 := by
  have hexamine : task.read engine policy t = task.examine engine policy source := by
    rw [read, hread]
    dsimp only
    rw [hbytes]
  -- Conversion and output are found before anything is written; whether writing succeeds
  -- decides the third line only.
  rw [run, hexamine, examine]
  dsimp only
  rw [hreport]
  cases hconversion : report.conversion with
  | none =>
    refine ⟨rfl, rfl, ⟨fun _ => rfl, fun _ => ⟨rfl, rfl⟩⟩,
      fun output entry contents h => ?_⟩
    cases h
  | some c =>
    cases houtput : task.output with
    | error clash =>
      refine ⟨rfl, rfl, ⟨fun h => ?_, fun h => ?_⟩, fun output entry contents h => ?_⟩
      · cases h.2
      · cases h
      · cases h
    | ok output =>
      dsimp only
      rw [finish]
      refine ⟨?_, ?_, ⟨fun h => ?_, fun h => ?_⟩, fun output entry contents h => ?_⟩
      · split <;> rfl
      · split <;> rfl
      · split at h
        · cases h.1
        · cases h.2
      · cases h
      · cases h
        exact ⟨c, rfl, rfl⟩

end FileTask

namespace Batch

open FileTask

/-- An entry agrees with the command for its file.  Let the file have the contents
`bytes`, and let the batch have left the files of `final`.

* What is reported of a text is what the engine finds out about it.
* Wherever the command finds the same dialect and the same contents, it refuses the
  strategy as invalid exactly if the entry has neither an output nor an error.
* If the entry has an output, there is a file there now that could be written there
  again, and what the command would write to any file is the contents of that output:
  where they can be written it succeeds, they are read there afterwards, and they are
  all that it changes. -/
structure AgreesOn (d : Dialect) (engine : Engine) (policy : ConvertPolicy)
    (final : FileTree) (entry : BatchEntry) (bytes : Bytes) : Prop where
  report : ∀ source, Text.ofUtf8? bytes = .ok source →
    entry.validation =
        some (engine.run source policy
          (entry.file.stem?.bind ClassName.ofText?)).validation ∧
      entry.parameters =
        (engine.run source policy (entry.file.stem?.bind ClassName.ofText?)).parameters
  refused : ∀ (tree : FileTree) dialect, Command.loadDialect tree dialect = .ok d →
    tree.readFile entry.file = .ok bytes → ∀ now out,
      (entry.output = none ∧ entry.error = none ↔
        (Command.execute now tree (.conversionOf policy dialect entry.file out)).failure =
          some (.notConverted entry.file))
  written : ∀ output, entry.output = some output →
    ∃ contents, final.readFile output = .ok contents ∧
    (∃ made, final.writeFile output contents = .ok made) ∧
    ∀ (tree : FileTree) dialect, Command.loadDialect tree dialect = .ok d →
      tree.readFile entry.file = .ok bytes → ∀ now out,
        (∀ made, tree.writeFile out contents = .ok made →
          (Command.execute now tree
            (.conversionOf policy dialect entry.file out)).failure = none ∧
          (Command.execute now tree (.conversionOf policy dialect entry.file out)).tree =
            made ∧
          made.readFile out = .ok contents) ∧
        ∀ e, tree.writeFile out contents = .error e →
          (Command.execute now tree
            (.conversionOf policy dialect entry.file out)).failure =
            some (.notWritten out e)

variable {d : Dialect} {engine : Engine} {policy : ConvertPolicy} {tasks : List FileTask}
  {t final : FileTree} {bytes : Bytes}

/-- A task whose file is no text agrees with the command, which cannot read it either. -/
private theorem agreesOn_run_of_notUtf8 (hengine : Engine.ofDialect d = .ok engine)
    {task : FileTask} (hread : t.readFile task.input = .ok bytes) {offset : Nat}
    (hbytes : Text.ofUtf8? bytes = .error offset) :
    AgreesOn d engine policy final (task.run engine policy t).1 bytes := by
  rw [run_of_notUtf8 hread hbytes]
  refine ⟨fun source hsource => ?_, fun tree dialect hdialect hstrategy now out => ?_,
    fun output houtput => ?_⟩
  · rw [hbytes] at hsource
    cases hsource
  · rw [Command.execute_conversionOf_notUtf8 hdialect hengine hstrategy hbytes]
    simp [BatchEntry.failed]
  · cases houtput

/-- **A task agrees with the command for its file.** -/
theorem agreesOn_run (hengine : Engine.ofDialect d = .ok engine) {s : State}
    (h : s.Follows engine policy tasks t) (hcomplete : s.IsComplete) {task : FileTask}
    (htask : task ∈ tasks) (hstem : task.input.stem? = some (OutputPlan.stem task.input))
    (hread : t.readFile task.input = .ok bytes) :
    AgreesOn d engine policy s.tree (task.run engine policy t).1 bytes := by
  have hfile := file_run engine policy t task
  have hname : task.input.stem?.bind ClassName.ofText? =
      ClassName.ofText? (OutputPlan.stem task.input) := by
    rw [hstem]
    rfl
  cases hbytes : Text.ofUtf8? bytes with
  | error offset => exact agreesOn_run_of_notUtf8 hengine hread hbytes
  | ok source =>
    -- One run of the engine on the text stands behind both the entry and the command.
    obtain ⟨report, hreport⟩ :
        ∃ report, engine.run source policy (task.input.stem?.bind ClassName.ofText?) =
          report := ⟨_, rfl⟩
    obtain ⟨hvalidation, hparameters, hrefused, hwriting⟩ :=
      run_of_text hread hbytes (hname ▸ hreport)
    refine ⟨fun source' hsource => ?_, fun tree dialect hdialect hstrategy now out => ?_,
      fun output houtput => ?_⟩
    · obtain rfl : source = source' := Except.ok.inj (hbytes.symm.trans hsource)
      rw [hfile, hreport]
      exact ⟨hvalidation, hparameters⟩
    · rw [hfile] at hstrategy ⊢
      rw [hrefused]
      cases hconversion : report.conversion with
      | none =>
        rw [Command.execute_conversionOf_none hdialect hengine hstrategy hbytes
          (hreport ▸ hconversion)]
        simp
      | some c =>
        obtain ⟨hok, herror⟩ :=
          Command.execute_conversionOf_some hdialect hengine hstrategy hbytes
            (hreport ▸ hconversion) now out
        cases hwrite : tree.writeFile out c.generatedCode.toUtf8 with
        | ok made => simp [(hok made hwrite).1]
        | error e => simp [herror e hwrite]
    · obtain ⟨entry, contents, parent, name, hreading, htarget, hnode⟩ :=
        h.exists_output (h.done_mem_jobs hcomplete htask) houtput
      obtain ⟨c, hconversion, rfl⟩ := hwriting entry output contents hreading
      have hnot : s.tree.node? (parent ++ [name]) ≠ some .directory := by simp [hnode]
      refine ⟨_, FileTree.readFile_of_target htarget hnode,
        ⟨_, FileTree.writeFile_eq_ok_iff.mpr ⟨parent, name, htarget, hnot, rfl⟩⟩,
        fun tree dialect hdialect hstrategy now out => ?_⟩
      rw [hfile] at hstrategy ⊢
      obtain ⟨hok, herror⟩ :=
        Command.execute_conversionOf_some hdialect hengine hstrategy hbytes
          (hreport ▸ hconversion) now out
      refine ⟨fun made hmade => ?_, herror⟩
      obtain ⟨hfailure, htree⟩ := hok made hmade
      exact ⟨hfailure, htree, FileTree.readFile_of_writeFile hmade⟩

/-- The entries of a batch are for its strategy files. -/
theorem map_file_run {tree made : FileTree} {input out : Path}
    {inputLoc outLoc : Location} (h : Prepared tree input out tasks made inputLoc outLoc)
    (hw : tree.WellFormed) (engine : Engine) (policy : ConvertPolicy) :
      (tasks.map fun task => (task.run engine policy made).1).map (·.file) =
      filesAmong input (tree.children inputLoc) := by
  have hmade : made.WellFormed := h.addsDirectories.wellFormed hw
  have hinputs : (tasks.map fun task => (task.run engine policy made).1).map (·.file) =
      tasks.map (·.input) := by
    rw [List.map_map]
    exact List.map_congr_left fun task _ => file_run engine policy made task
  rw [hinputs, h.tasks_eq, map_input_tasks]
  refine filesAmong_eq_of_files (hmade.nodup_children inputLoc)
    (hw.nodup_children inputLoc) fun name contents => ?_
  rw [hmade.mem_children_iff, hw.mem_children_iff, h.addsDirectories.file_iff]

/-- The tasks of a prepared batch agree with the commands for their files. -/
private theorem exists_agreesOn_run {tree made : FileTree} {input out : Path}
    {inputLoc outLoc : Location} (h : Prepared tree input out tasks made inputLoc outLoc)
    (hw : tree.WellFormed) (hengine : Engine.ofDialect d = .ok engine) {s : State}
    (hs : s.Follows engine policy tasks made) (hcomplete : s.IsComplete) {task : FileTask}
    (htask : task ∈ tasks) :
    ∃ bytes, tree.readFile (task.run engine policy made).1.file = .ok bytes ∧
      AgreesOn d engine policy s.tree (task.run engine policy made).1 bytes := by
  obtain ⟨name, contents, hname, -, hinput, hnode⟩ := h.exists_input hw htask
  have hread : tree.readFile task.input = .ok contents :=
    hinput ▸ h.readFile_input hname hnode
  have hstem : task.input.stem? = some (OutputPlan.stem task.input) := by
    rw [OutputPlan.stem, hinput, Path.stem?_join hname]
    rfl
  refine ⟨contents, ?_,
    agreesOn_run hengine hs hcomplete htask hstem (h.addsDirectories.readFile hread)⟩
  rw [file_run]
  exact hread

/-- The strategy files of a directory, in terms of what is at the locations in it. -/
theorem mem_filesAmong_children_iff {tree : FileTree} (hw : tree.WellFormed)
    {directory p : Path} {loc : Location} :
    p ∈ filesAmong directory (tree.children loc) ↔ ∃ stem extension contents, stem ≠ [] ∧
      extension.map Char.toLower ∈ extensions ∧
      tree.node? (loc ++ [stem ++ '.' :: extension]) = some (.file contents) ∧
      p = directory.join (stem ++ '.' :: extension) := by
  rw [mem_filesAmong_iff]
  constructor
  · rintro ⟨name, contents, hchild, hextension, rfl⟩
    have hnode := hw.mem_children_iff.mp hchild
    obtain ⟨stem, extension, rfl, hstem, hmem⟩ :=
      (hasStrategyExtension_join_iff (hw.isFileName hnode)).mp hextension
    exact ⟨stem, extension, contents, hstem, hmem, hnode, rfl⟩
  · rintro ⟨stem, extension, contents, hstem, hmem, hnode, rfl⟩
    exact ⟨_, contents, hw.mem_children_iff.mpr hnode,
      (hasStrategyExtension_join_iff (hw.isFileName hnode)).mpr
        ⟨stem, extension, rfl, hstem, hmem⟩, rfl⟩

/-- **A batch agrees with its files one by one.**  Its entries are for the files
directly in the input directory with one of the extensions, in upper or lower case, one
for each, in the order of the paths; they are the same however the directory is listed.
Each entry tells of its file what the command for this file does. -/
theorem convertDirectory_agrees {tree : FileTree} {input out : Path} {now : Timestamp}
    {report : BatchReport} (hw : tree.WellFormed)
    (hengine : Engine.ofDialect d = .ok engine)
    (hconvert : convertDirectory engine input out policy now tree = (.ok report, final)) :
    ∃ loc, tree.resolve input = .ok loc ∧ tree.node? loc = some .directory ∧
      (report.entries.map (·.file)).Nodup ∧
      (report.entries.map (·.file)).Pairwise Path.Before ∧
      (∀ p, p ∈ report.entries.map (·.file) ↔ ∃ stem extension contents, stem ≠ [] ∧
        extension.map Char.toLower ∈ extensions ∧
        tree.node? (loc ++ [stem ++ '.' :: extension]) = some (.file contents) ∧
        p = input.join (stem ++ '.' :: extension)) ∧
      (∀ listing, listing.Perm (tree.children loc) →
        report.entries.map (·.file) = filesAmong input listing) ∧
      ∀ entry ∈ report.entries, ∃ bytes, tree.readFile entry.file = .ok bytes ∧
        AgreesOn d engine policy final entry bytes := by
  rw [convertDirectory] at hconvert
  split at hconvert
  · cases (Prod.mk.inj hconvert).1
  next tasks made hprepare =>
    obtain ⟨hreport, rfl⟩ := Prod.mk.inj hconvert
    obtain rfl := Except.ok.inj hreport
    obtain ⟨loc, outLoc, h⟩ := exists_prepared_of_prepare hprepare
    -- The entries are those of a complete run of the jobs, one for each task.
    obtain ⟨jobs, hruns, hcomplete, hentries⟩ :=
      exists_runs_runTasks engine policy tasks made
    have hfollows := (State.follows_start tasks made).run (h.apart hw) hruns
    have hfiles : (runTasks engine policy tasks made).1.map (·.file) =
        filesAmong input (tree.children loc) := by
      rw [← hentries, hfollows.entries_eq hcomplete, map_file_run h hw]
    refine ⟨loc, h.resolve_input_before, h.directory_input_before, ?_, ?_, fun p => ?_,
      fun listing hlisting => ?_,
      fun entry hentry => ?_⟩
    · rw [hfiles]
      exact nodup_filesAmong (hw.nodup_children loc)
    · rw [hfiles]
      exact pairwise_filesAmong (hw.nodup_children loc) fun entry hentry =>
        hw.isFileName (hw.mem_children_iff.mp hentry)
    · rw [hfiles]
      exact mem_filesAmong_children_iff hw
    · rw [hfiles]
      refine filesAmong_eq_of_files (hw.nodup_children loc) ?_ fun name contents =>
        hlisting.mem_iff.symm
      exact (hlisting.map Prod.fst).nodup_iff.mpr (hw.nodup_children loc)
    · dsimp only at hentry
      rw [← hentries, hfollows.entries_eq hcomplete] at hentry
      obtain ⟨task, htask, rfl⟩ := List.mem_map.mp hentry
      exact exists_agreesOn_run h hw hengine hfollows hcomplete htask

/-- Two strategies, converted together and each on its own. -/
theorem convertDirectory_agrees_twoStrategies :
    twoStrategies.WellFormed ∧ Engine.ofDialect .powerLanguage = .ok .powerLanguage ∧
      ∃ report final, convertDirectory .powerLanguage ⟨"in".toList⟩ ⟨"out".toList⟩ .always
        ⟨0, 0⟩ twoStrategies =
          (.ok report, final) ∧
        report.entries.map (·.file) = [⟨"in/a.cs".toList⟩, ⟨"in/b.txt".toList⟩] ∧
        ∀ entry ∈ report.entries, ∃ bytes, twoStrategies.readFile entry.file = .ok bytes ∧
          AgreesOn .powerLanguage .powerLanguage .always final entry bytes := by
  obtain ⟨report, final, hconvert⟩ : ∃ report final,
      convertDirectory .powerLanguage ⟨"in".toList⟩ ⟨"out".toList⟩ .always ⟨0,
        0⟩ twoStrategies = (.ok report, final) := by
    rw [convertDirectory, prepare_twoStrategies]
    exact ⟨_, _, rfl⟩
  obtain ⟨loc, hloc, -, -, -, -, hlisting, hagrees⟩ :=
    convertDirectory_agrees wellFormed_twoStrategies
      Engine.ofDialect_powerLanguage hconvert
  obtain rfl : ["in".toList] = loc := Except.ok.inj hloc
  refine ⟨wellFormed_twoStrategies, Engine.ofDialect_powerLanguage, report, final,
    hconvert, ?_, hagrees⟩
  rw [hlisting _ (.refl _), filesAmong, List.mergeSort_of_pairwise (by decide)]
  rfl

end Batch

end StrategyDialect
