import StrategyDialect.Pipeline
import StrategyDialect.Proofs.Batch.Agreement
import StrategyDialect.Proofs.Batch.Counts
import StrategyDialect.Proofs.CommandLine.Atomicity
import StrategyDialect.Proofs.Text.Utf8

/-!
# Strategies as bytes

A strategy comes as bytes in three places: it is handed to a converter, it is one of the
files of a batch, or it is the file of a command.  Each place reads the bytes on its own
and has its own way to refuse them, but all agree on which bytes are a text, on the
text, and on the offset where other bytes are refused (`Bytes.decoded_alike`).

A command may also fail before it comes to its strategy: if the engine cannot be set up,
this is what it fails with, and nothing is said of the bytes (`CommandResult.FailsAt`).

## Main definitions

* `Bytes.IsTakenFor`: what is done with the bytes of a text
* `Bytes.IsRefusedAt`: what is done with other bytes

## Main statements

* `Batch.tellsOf_run`, `Batch.namesOffset_run`: what a batch reports of a file
* `Bytes.decoded_alike`: bytes are either taken for their text or refused at one offset,
  wherever they are read
-/

namespace StrategyDialect

/-! ## Batches -/

/-- What an entry tells of a text: what the engine finds out about it, and, if the
engine converts it, either the output, which holds the code, or why there is none. -/
structure BatchEntry.TellsOf (engine : Engine) (policy : ConvertPolicy) (final : FileTree)
    (source : Text) (e : BatchEntry) : Prop where
  validation : e.validation = some (engine.validate source)
  parameters : e.parameters = engine.parameters source
  unconverted : (engine.run source policy
        (ClassName.ofText? (OutputPlan.stem e.file))).conversion = none →
    e.output = none ∧ e.error = none
  converted : ∀ c, (engine.run source policy
        (ClassName.ofText? (OutputPlan.stem e.file))).conversion = some c →
    (∃ output, e.output = some output ∧ e.error = none ∧
      final.readFile output = .ok c.generatedCode.toUtf8) ∨
      e.output = none ∧ e.error.isSome = true

/-- The entry for a file that is no text: nothing but an error that names the offset. -/
structure BatchEntry.NamesOffset (offset : Nat) (e : BatchEntry) : Prop where
  validation : e.validation = none
  parameters : e.parameters = []
  output : e.output = none
  error : e.error = some (invalidUtf8Message offset)

namespace Batch

open FileTask

variable {engine : Engine} {policy : ConvertPolicy} {tasks : List FileTask}
  {task : FileTask} {made : FileTree} {s : State} {bytes : Bytes} {source : Text}

/-- Whether all batches report in the same way on the files that hold the bytes.  The
entries of a batch are for its strategy files, one for each, in their order. -/
def ReportsOn (bytes : Bytes)
    (p : Engine → ConvertPolicy → FileTree → BatchEntry → Prop) : Prop :=
  ∀ engine policy input out now (tree : FileTree) report final, tree.WellFormed →
    convertDirectory engine input out policy now tree = (.ok report, final) →
      strategyFiles tree input = .ok (report.entries.map (·.file)) ∧
        ∀ e ∈ report.entries, tree.readFile e.file = .ok bytes → p engine policy final e

/-- What all tasks report on the bytes, all batches do. -/
theorem reportsOn_of_run {p : Engine → ConvertPolicy → FileTree → BatchEntry → Prop}
    (h : ∀ {engine policy tasks made} {s : State} {task : FileTask},
      s.Follows engine policy tasks made →
      s.IsComplete → task ∈ tasks → made.readFile task.input = .ok bytes →
        p engine policy s.tree (task.run engine policy made).1) :
    ReportsOn bytes p := by
  intro engine policy input out now tree report final hw hconvert
  rw [convertDirectory] at hconvert
  split at hconvert
  · cases (Prod.mk.inj hconvert).1
  next tasks made hprepare =>
    obtain ⟨hreport, rfl⟩ := Prod.mk.inj hconvert
    obtain rfl := Except.ok.inj hreport
    obtain ⟨inputLoc, outLoc, hprepared⟩ := exists_prepared_of_prepare hprepare
    -- One task after the other is a run, and complete.
    obtain ⟨jobs, hruns, hcomplete, hjobs⟩ :=
      exists_runs_runTasks engine policy tasks made
    have hfollows := (State.follows_start tasks made).run (hprepared.apart hw) hruns
    have hentries : (runTasks engine policy tasks made).1 = tasks.map fun task =>
        (task.run engine policy made).1 := by
      rw [← hjobs, hfollows.entries_eq hcomplete]
    dsimp only
    rw [hentries]
    constructor
    · rw [map_file_run hprepared hw, strategyFiles, FileTree.listDirectory_eq_ok_iff.mpr
        ⟨inputLoc, hprepared.resolve_input_before, hprepared.directory_input_before, rfl⟩]
      rfl
    · intro e he hread
      obtain ⟨task, htask, rfl⟩ := List.mem_map.mp he
      rw [file_run] at hread
      exact h hfollows hcomplete htask (hprepared.addsDirectories.readFile hread)

/-- **The entry for a file that holds a text** tells of the text. -/
theorem tellsOf_run (hfollows : s.Follows engine policy tasks made)
    (hcomplete : s.IsComplete) (htask : task ∈ tasks)
    (hread : made.readFile task.input = .ok bytes)
    (hbytes : Text.ofUtf8? bytes = .ok source) :
    (task.run engine policy made).1.TellsOf engine policy s.tree source := by
  obtain ⟨report, hreport⟩ :
      ∃ report, engine.run source policy
        (ClassName.ofText? (OutputPlan.stem task.input)) = report := ⟨_, rfl⟩
  obtain ⟨hvalidation, hparameters, hnone, hwriting⟩ := run_of_text hread hbytes hreport
  subst hreport
  rw [← file_run engine policy made task] at hnone hwriting
  refine ⟨hvalidation, hparameters, hnone.mpr, fun c hc => ?_⟩
  cases houtput : (task.run engine policy made).1.output with
  | none =>
    refine .inr ⟨rfl, ?_⟩
    rw [Option.isSome_iff_ne_none]
    intro herror
    rw [hnone.mp ⟨houtput, herror⟩] at hc
    cases hc
  | some output =>
    obtain ⟨entry, contents, parent, name, hreading, htarget, hnode⟩ :=
      hfollows.exists_output (hfollows.done_mem_jobs hcomplete htask) houtput
    obtain ⟨c', hc', rfl⟩ := hwriting entry output contents hreading
    obtain rfl := Option.some.inj (hc.symm.trans hc')
    have haccounts : (task.run engine policy made).1.AccountsFor policy task.input :=
      (task.accountsFor_read engine policy made).finish made
    refine .inl ⟨output, rfl, ?_, FileTree.readFile_of_target htarget hnode⟩
    exact haccounts.output_or_error.resolve_left (by simp [houtput])

/-- **The entry for a file that is no text** names the offset. -/
theorem namesOffset_run (hread : made.readFile task.input = .ok bytes) {offset : Nat}
    (hbytes : Text.ofUtf8? bytes = .error offset) :
    (task.run engine policy made).1.NamesOffset offset := by
  rw [run_of_notUtf8 hread hbytes]
  exact ⟨rfl, rfl, rfl, rfl⟩

end Batch

/-! ## Commands -/

/-- A command that leaves everything as it is, prints nothing, and fails.  If its engine
can be set up, it fails because of the strategy, and the last cause names the offset. -/
def CommandResult.FailsAt (tree : FileTree) (strategy : Path)
    (engine : Except CommandError Engine) (offset : Nat) (r : CommandResult) : Prop :=
  ∃ e, r = .failed tree e ∧ ∀ engine', engine = .ok engine' →
    e.chain = ["Failed to read strategy file: ".toList ++ strategy.text,
      invalidUtf8Message offset]

namespace Command

/-- What is said of the verdict on a strategy. -/
def verdict (strategy : Path) (json : Bool) (v : Validation) (tree : FileTree) :
    CommandResult where
  output :=
    if json then v.toJson.pretty ++ ['\n']
    else if v.isValid then strategy.text ++ " is valid\n".toList
    else v.errorLines
  errorOutput := []
  failure := if v.isValid then none else some (.invalid strategy v.errors.length)
  tree := tree

/-- What becomes of a run of the engine: the conversion is delivered, or the errors are
reported. -/
def deliverRun (options : ConvertOptions) (r : RunReport) (tree : FileTree) :
    CommandResult :=
  match r.conversion with
  | some c => deliver options c tree
  | none => ⟨[], r.validation.errorLines, some (.notConverted options.strategy), tree⟩

variable {tree : FileTree} {strategy : Path} {found : Except CommandError Engine}
  {engine : Engine} {bytes : Bytes} {source : Text} {offset : Nat}

/-- Bytes that are a text let a command go on with the text. -/
theorem ofExcept_readStrategy_of_text (hread : tree.readFile strategy = .ok bytes)
    (hbytes : Text.ofUtf8? bytes = .ok source) (hfound : found = .ok engine)
    (rest : Engine → Text → CommandResult) :
    (CommandResult.ofExcept tree found fun engine =>
      .ofExcept tree (readStrategy tree strategy) (rest engine)) =
        rest engine source := by
  rw [hfound, readStrategy_of_readFile hread, hbytes]
  rfl

/-- Other bytes do not get so far: the command fails over the strategy, and says where
its bytes are no text. -/
theorem failsAt_ofExcept_readStrategy (hread : tree.readFile strategy = .ok bytes)
    (hbytes : Text.ofUtf8? bytes = .error offset) (found : Except CommandError Engine)
    (rest : Engine → Text → CommandResult) :
    (CommandResult.ofExcept tree found fun engine =>
      .ofExcept tree (readStrategy tree strategy) (rest engine)).FailsAt tree strategy
        found offset := by
  cases found with
  | error e => exact ⟨e, rfl, nofun⟩
  | ok engine =>
    rw [CommandResult.ofExcept_ok, readStrategy_of_readFile hread, hbytes]
    exact ⟨_, rfl, fun _ _ => rfl⟩

end Command

/-! ## All places -/

namespace Bytes

open Command

/-- What is done with the bytes of a text: a converter completes the text, a batch tells
of it, and the three commands that read a strategy go on with it once they have an
engine. -/
structure IsTakenFor (bytes : Bytes) (source : Text) : Prop where
  convertBytes : ∀ c : Converter, c.convertBytes bytes = .ok (c.convert source)
  batch : Batch.ReportsOn bytes fun engine policy final e =>
      e.TellsOf engine policy final source
  validate : ∀ now (tree : FileTree) strategy dialect json engine,
    tree.readFile strategy = .ok bytes →
    loadEngine tree dialect = .ok engine →
      execute now tree (.validate strategy dialect json) =
        verdict strategy json (engine.validate source) tree
  convert : ∀ now (tree : FileTree) options engine,
    tree.readFile options.strategy = .ok bytes →
    convertEngine options tree = .ok engine →
      execute now tree (.convert options) =
        deliverRun options
          (engine.run source (policy options.force) (derivedClassName options)) tree
  parameters : ∀ now (tree : FileTree) strategy dialect engine,
    tree.readFile strategy = .ok bytes →
    loadEngine tree dialect = .ok engine →
      execute now tree (.parameters strategy dialect) =
        .printed tree (Parameter.listToJson (engine.parameters source)).pretty

/-- What is done with bytes that are no text: a converter refuses them, a batch records
the offset, and the three commands fail with it. -/
structure IsRefusedAt (bytes : Bytes) (offset : Nat) : Prop where
  convertBytes : ∀ c : Converter, c.convertBytes bytes = .error offset
  batch : Batch.ReportsOn bytes fun _ _ _ e => e.NamesOffset offset
  validate : ∀ now (tree : FileTree) strategy dialect json,
    tree.readFile strategy = .ok bytes →
    (execute now tree (.validate strategy dialect json)).FailsAt tree strategy
      (loadEngine tree dialect) offset
  convert : ∀ now (tree : FileTree) options, tree.readFile options.strategy = .ok bytes →
    (execute now tree (.convert options)).FailsAt tree options.strategy
      (convertEngine options tree) offset
  parameters : ∀ now (tree : FileTree) strategy dialect,
    tree.readFile strategy = .ok bytes →
    (execute now tree (.parameters strategy dialect)).FailsAt tree strategy
      (loadEngine tree dialect) offset

variable {bytes : Bytes} {source : Text} {offset : Nat}

/-- **Bytes that are a text** are taken for it everywhere.  Each field says so of one of
the places where bytes come in. -/
theorem isTakenFor_of_ofUtf8? (h : Text.ofUtf8? bytes = .ok source) :
    IsTakenFor bytes source where
  convertBytes c := by
    rw [Converter.convertBytes, h]
    rfl
  batch := Batch.reportsOn_of_run fun hfollows hcomplete htask hread =>
    Batch.tellsOf_run hfollows hcomplete htask hread h
  validate now tree strategy dialect json engine hread hengine := by
    rw [execute, executeValidate, ofExcept_readStrategy_of_text hread h hengine]
    rfl
  convert now tree options engine hread hengine := by
    rw [execute, executeConvert, ofExcept_readStrategy_of_text hread h hengine]
    rfl
  parameters now tree strategy dialect engine hread hengine := by
    rw [execute, executeParameters, ofExcept_readStrategy_of_text hread h hengine]

/-- **Bytes that are no text** are refused everywhere, at the same offset. -/
theorem isRefusedAt_of_ofUtf8? (h : Text.ofUtf8? bytes = .error offset) :
    IsRefusedAt bytes offset where
  convertBytes c := by
    rw [Converter.convertBytes, h]
    rfl
  batch := Batch.reportsOn_of_run fun _ _ _ hread => Batch.namesOffset_run hread h
  validate now tree strategy dialect json hread :=
  failsAt_ofExcept_readStrategy hread h _ _
  convert now tree options hread := failsAt_ofExcept_readStrategy hread h _ _
  parameters now tree strategy dialect hread := failsAt_ofExcept_readStrategy hread h _ _

/-- **Bytes are read alike everywhere.** The bytes of a text are taken for the text.
Any other bytes are refused at one offset, and this is the end of the longest text that
they start with.  Everywhere means the converter itself, the entries of a batch, and
each of the commands that reads a strategy. -/
theorem decoded_alike (bytes : Bytes) :
    (∀ source : Text, bytes = source.toUtf8 → IsTakenFor bytes source) ∧
      (¬Utf8.IsValid bytes → ∃ offset,
        IsGreatest {k | k ≤ bytes.length ∧ Utf8.IsValid (bytes.take k)} offset ∧
        IsRefusedAt bytes offset) := by
  refine ⟨fun source h => isTakenFor_of_ofUtf8? (Text.ofUtf8?_eq_ok_iff.mpr h),
    fun hinvalid => ?_⟩
  cases h : Text.ofUtf8? bytes with
  | ok source => exact absurd ⟨source, Text.ofUtf8?_eq_ok_iff.mp h⟩ hinvalid
  | error offset =>
    exact ⟨offset, (Text.ofUtf8?_eq_error_iff.mp h).2, isRefusedAt_of_ofUtf8? h⟩

/-- A directory with a text and with bytes that are none: a letter and half of a
surrogate pair. -/
def halfPair : FileTree :=
  ⟨[(["in".toList], .directory),
    (["in".toList, "a.cs".toList], .file (Text.toUtf8 "int é;".toList)),
    (["in".toList, "b.cs".toList], .file [0x61, 0xED, 0xA0, 0x80])], []⟩

/-- The tree of the example is well formed. -/
theorem wellFormed_halfPair : halfPair.WellFormed where
  nodup := by decide
  ne_nil := by decide
  isFileName_of_mem := by decide

/-- Both of its files are strategy files, the one that is no text included. -/
theorem strategyFiles_halfPair :
    Batch.strategyFiles halfPair ⟨"in".toList⟩ =
      .ok [⟨"in/a.cs".toList⟩, ⟨"in/b.cs".toList⟩] := by
  have hlist : halfPair.listDirectory ⟨"in".toList⟩ =
      .ok [("a.cs".toList, .file (Text.toUtf8 "int é;".toList)),
        ("b.cs".toList, .file [0x61, 0xED, 0xA0, 0x80])] := rfl
  rw [Batch.strategyFiles, hlist]
  show Except.ok (Batch.filesAmong _ _) = _
  rw [Batch.filesAmong, List.mergeSort_of_pairwise (by decide)]
  rfl

/-- The one is taken for the text, the other is refused behind the letter. -/
theorem decoded_alike_halfPair :
    IsTakenFor [0x69, 0x6E, 0x74, 0x20, 0xC3, 0xA9, 0x3B] "int é;".toList ∧
      ¬Utf8.IsValid [0x61, 0xED, 0xA0, 0x80] ∧ IsRefusedAt [0x61, 0xED, 0xA0, 0x80] 1 ∧
      (∃ report final, Batch.convertDirectory .powerLanguage ⟨"in".toList⟩ ⟨"out".toList⟩
        .always ⟨0, 0⟩ halfPair =
          (.ok report, final) ∧
        report.entries.map (·.file) = [⟨"in/a.cs".toList⟩, ⟨"in/b.cs".toList⟩] ∧
        ∀ e ∈ report.entries,
          (e.file = ⟨"in/a.cs".toList⟩ →
            e.TellsOf .powerLanguage .always final "int é;".toList) ∧
          (e.file = ⟨"in/b.cs".toList⟩ → e.NamesOffset 1)) ∧
      (execute ⟨0, 0⟩ halfPair (.parameters ⟨"in/b.cs".toList⟩ none)).FailsAt halfPair
        ⟨"in/b.cs".toList⟩
        (.ok .powerLanguage) 1 := by
  have htext : [0x69, 0x6E, 0x74, 0x20, 0xC3, 0xA9, 0x3B] =
      Text.toUtf8 "int é;".toList := by decide
  have hrefused : Text.ofUtf8? [0x61, 0xED, 0xA0, 0x80] = .error 1 := by cbv
  obtain ⟨hinvalid, hgreatest⟩ := Text.ofUtf8?_eq_error_iff.mp hrefused
  have htaken := (decoded_alike _).1 _ htext
  obtain ⟨offset, hoffset, hother⟩ := (decoded_alike _).2 hinvalid
  obtain rfl := hoffset.unique hgreatest
  have hengine : loadEngine halfPair none = .ok .powerLanguage :=
    loadEngine_of_loadDialect rfl Engine.ofDialect_powerLanguage
  refine ⟨htaken, hinvalid, hother, ?_, hengine ▸ hother.parameters _ halfPair _ _ rfl⟩
  obtain ⟨report, final, hconvert⟩ : ∃ report final,
      Batch.convertDirectory .powerLanguage ⟨"in".toList⟩ ⟨"out".toList⟩ .always ⟨0,
        0⟩ halfPair = (.ok report, final) := by
    have hmade : halfPair.createDirectories ⟨"out".toList⟩ =
        (.ok (), halfPair.put ["out".toList] .directory) := rfl
    rw [Batch.convertDirectory, Batch.prepare, if_pos (by decide), hmade]
    exact ⟨_, _, rfl⟩
  obtain ⟨hfiles, htold⟩ := htaken.batch _ _ _ _ _ _ _ _ wellFormed_halfPair hconvert
  obtain ⟨-, hnamed⟩ := hother.batch _ _ _ _ _ _ _ _ wellFormed_halfPair hconvert
  refine ⟨report, final, hconvert,
    Except.ok.inj (hfiles.symm.trans strategyFiles_halfPair), fun e he => ?_⟩
  constructor
  · intro hfile
    exact htold e he (by rw [hfile]; exact congrArg Except.ok htext.symm)
  · intro hfile
    exact hnamed e he (by rw [hfile]; rfl)

end Bytes

end StrategyDialect
