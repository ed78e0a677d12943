import StrategyDialect.Batch.Directory
import StrategyDialect.Proofs.Batch.Outputs
import StrategyDialect.Proofs.Files.Tree

/-!
# The plan of a batch

A batch is planned before anything is read: which files are converted, in which order,
and where each result goes.  The files are those of the input directory with the right
extension, in the order of their names, however the directory is listed
(`Batch.filesAmong_eq_of_files`).  No two of them are given the same output
(`Batch.pairwise_tasks`): a name that would be given twice is given to neither.

## Main definitions

* `Batch.Prepared`: what is known of a batch that has been prepared

## Main statements

* `Batch.mem_filesAmong_iff`, `Batch.pairwise_filesAmong`: the strategy files, and their
  order
* `Batch.exists_output_of_mem_tasks`, `Batch.pairwise_tasks`: the outputs, and that they
  differ
* `Batch.prepare_eq`, `Batch.exists_prepared_of_prepare`: the checks of a batch, and
  what they ensure
-/

namespace StrategyDialect

namespace Batch

open Text

variable {directory input out : Path} {name : Text}
  {nodes nodes' : List (Text × FileNode)} {p o : Path} {files : List Path}
  {task : FileTask} {tree made : FileTree}

/-! ## The files -/

/-- The extensions of strategies have no dot in them, so the last dot of a name is the
one before its extension. -/
theorem dot_not_mem_of_mem_extensions {extension : Text}
    (h : extension.map Char.toLower ∈ extensions) : '.' ∉ extension := by
  intro hdot
  have hnone : ∀ e ∈ extensions, '.' ∉ e := by decide
  exact hnone _ h (List.mem_map.mpr ⟨'.', hdot, by decide⟩)

/-- Files with a stem and one of the extensions, in upper or lower case. -/
theorem hasStrategyExtension_join_iff (h : IsFileName name) :
    hasStrategyExtension (directory.join name) = true ↔
      ∃ stem extension, name = stem ++ '.' :: extension ∧ stem ≠ [] ∧
        extension.map Char.toLower ∈ extensions := by
  rw [hasStrategyExtension, Path.extension?_join h]
  constructor
  · intro hany
    cases hcut : Path.cutName name with
    | mk stem extension? =>
      rw [hcut] at hany
      cases extension? with
      | none => cases hany
      | some extension =>
        obtain ⟨hname, hstem, -⟩ := Path.cutName_eq_iff.mp hcut
        exact ⟨stem, extension, hname, hstem, by simpa using hany⟩
  · rintro ⟨stem, extension, hname, hstem, hmem⟩
    rw [Path.cutName_eq_iff.mpr ⟨hname, hstem, dot_not_mem_of_mem_extensions hmem⟩]
    simpa using hmem

/-- The names of the strategy files among some nodes, in the order of the nodes. -/
private theorem exists_filesAmong_eq (directory : Path) (nodes : List (Text × FileNode)) :
    ∃ names : List Text, filesAmong directory nodes =
      (names.mergeSort precedes).map directory.join ∧
      (∀ name, name ∈ names ↔ ∃ contents, (name, FileNode.file contents) ∈ nodes ∧
        hasStrategyExtension (directory.join name) = true) ∧
      ((nodes.map Prod.fst).Nodup → names.Nodup) := by
  refine ⟨_, rfl, fun name => ?_, fun hnodup => ?_⟩
  · rw [List.mem_filterMap]
    constructor
    · rintro ⟨⟨name', node⟩, hmem, hfound⟩
      cases node with
      | directory => cases hfound
      | file contents =>
        dsimp only at hfound
        split at hfound
        next hextension =>
          obtain rfl := Option.some.inj hfound
          exact ⟨contents, hmem, hextension⟩
        next => cases hfound
    · rintro ⟨contents, hmem, hextension⟩
      exact ⟨_, hmem, if_pos hextension⟩
  · refine (List.pairwise_map.mp hnodup).filterMap _ ?_
    rintro ⟨name, node⟩ ⟨name', node'⟩ hne n hfound n' hfound' rfl
    cases node with
    | directory => cases hfound
    | file contents =>
      cases node' with
      | directory => cases hfound'
      | file contents' =>
        dsimp only at hfound hfound'
        split at hfound <;> cases hfound
        split at hfound' <;> cases hfound'
        exact hne rfl

/-- The strategy files of a directory are its files whose names have one of the
extensions.  Directories with such names are not among them. -/
theorem mem_filesAmong_iff :
    p ∈ filesAmong directory nodes ↔
      ∃ name contents, (name, FileNode.file contents) ∈ nodes ∧
      hasStrategyExtension (directory.join name) = true ∧ p = directory.join name := by
  obtain ⟨names, heq, hmem, -⟩ := exists_filesAmong_eq directory nodes
  rw [heq, List.mem_map]
  constructor
  · rintro ⟨name, hname, rfl⟩
    obtain ⟨contents, hnode, hextension⟩ :=
      (hmem name).mp ((List.mergeSort_perm _ _).mem_iff.mp hname)
    exact ⟨name, contents, hnode, hextension, rfl⟩
  · rintro ⟨name, contents, hnode, hextension, rfl⟩
    exact ⟨name, (List.mergeSort_perm _ _).mem_iff.mpr
      ((hmem name).mpr ⟨contents, hnode, hextension⟩), rfl⟩

/-- Sorting puts names in order: the order is total and transitive, being that of lists
of characters. -/
private theorem pairwise_mergeSort_precedes (names : List Text) :
    (names.mergeSort precedes).Pairwise fun a b => precedes a b = true := by
  refine List.pairwise_mergeSort (fun a b c hab hbc => ?_) (fun a b => ?_) names
  · rw [precedes_iff_le] at hab hbc ⊢
    exact hab.trans hbc
  · rw [Bool.or_eq_true, precedes_iff_le, precedes_iff_le]
    exact le_total a b

/-- **The strategy files are in the order of their paths.** -/
theorem pairwise_filesAmong (hnodup : (nodes.map Prod.fst).Nodup)
    (hnames : ∀ entry ∈ nodes, IsFileName entry.1) :
    (filesAmong directory nodes).Pairwise Path.Before := by
  obtain ⟨names, heq, hmem, hnodup'⟩ := exists_filesAmong_eq directory nodes
  have hfileName : ∀ name ∈ names.mergeSort precedes, IsFileName name := by
    intro name hname
    obtain ⟨contents, hnode, -⟩ :=
      (hmem name).mp ((List.mergeSort_perm _ _).mem_iff.mp hname)
    exact hnames _ hnode
  have hdistinct : (names.mergeSort precedes).Nodup :=
    (List.mergeSort_perm _ _).nodup_iff.mpr (hnodup' hnodup)
  rw [heq, List.pairwise_map]
  refine ((pairwise_mergeSort_precedes names).and hdistinct).imp_of_mem fun ha hb h => ?_
  exact Path.before_join (hfileName _ ha) (hfileName _ hb) h.2 h.1

/-- No strategy file is listed twice, since no name is. -/
theorem nodup_filesAmong (hnodup : (nodes.map Prod.fst).Nodup) :
    (filesAmong directory nodes).Nodup := by
  obtain ⟨names, heq, -, hnodup'⟩ := exists_filesAmong_eq directory nodes
  rw [heq]
  exact ((List.mergeSort_perm _ _).nodup_iff.mpr (hnodup' hnodup)).map fun _ _ =>
    Path.join_injective

/-- **The strategy files do not depend on the order of the nodes**, nor on nodes that
are no files. -/
theorem filesAmong_eq_of_files (hnodup : (nodes.map Prod.fst).Nodup)
    (hnodup' : (nodes'.map Prod.fst).Nodup)
    (h : ∀ name contents, (name, FileNode.file contents) ∈ nodes ↔
      (name, FileNode.file contents) ∈ nodes') :
    filesAmong directory nodes = filesAmong directory nodes' := by
  obtain ⟨names, heq, hmem, hnames⟩ := exists_filesAmong_eq directory nodes
  obtain ⟨names', heq', hmem', hnames'⟩ := exists_filesAmong_eq directory nodes'
  have hperm : names.Perm names' := by
    refine (List.perm_ext_iff_of_nodup (hnames hnodup) (hnames' hnodup')).mpr
      fun name => ?_
    rw [hmem, hmem']
    simp only [h]
  -- Two sorted lists with the same names are equal, as the order tells all texts apart.
  have hsorted : names.mergeSort precedes = names'.mergeSort precedes := by
    refine List.Perm.eq_of_pairwise (fun a b _ _ hab hba => ?_)
      (pairwise_mergeSort_precedes names) (pairwise_mergeSort_precedes names')
      ((List.mergeSort_perm names _).trans
        (hperm.trans (List.mergeSort_perm names' _).symm))
    rw [precedes_iff_le] at hab hba
    exact le_antisymm hab hba
  rw [heq, heq', hsorted]

/-! ## The outputs -/

/-- The task for a file among others has what is planned for the file as its output. -/
private theorem tasks_eq (files : List Path) (out : Path) :
    tasks files out = files.map fun file =>
      ⟨file, if OutputPlan.isShared (OutputPlan.outputName files file)
        (files.map (OutputPlan.outputName files))
        then .error ⟨OutputPlan.outputName files file⟩
        else .ok (out.join (OutputPlan.outputName files file))⟩ := by
  rw [tasks, OutputPlan.ofFiles, List.map_map, List.zipWith_map_right, List.zipWith_self]
  rfl

/-- The inputs of the tasks are the files, in their order. -/
theorem map_input_tasks (files : List Path) (out : Path) :
    (tasks files out).map (·.input) = files := by
  rw [tasks_eq, List.map_map]
  exact List.map_id files

/-- The outputs of the tasks are what is planned for the files. -/
theorem map_output_tasks (files : List Path) (out : Path) :
    (tasks files out).map (·.output) = OutputPlan.ofFiles files out := by
  rw [tasks_eq, List.map_map, OutputPlan.ofFiles, List.map_map]
  rfl

/-- **Outputs are names below the output directory**, so no task writes anywhere
else. -/
theorem exists_output_of_mem_tasks (htask : task ∈ tasks files out)
    (ho : task.output = .ok o) : ∃ name, IsFileName name ∧ o = out.join name := by
  have hplan : .ok o ∈ OutputPlan.ofFiles files out := by
    rw [← map_output_tasks, ← ho]
    exact List.mem_map_of_mem htask
  obtain ⟨i, hi⟩ := List.mem_iff_getElem?.mp hplan
  obtain ⟨name, hname, -, rfl⟩ := OutputPlan.ofFiles_eq_ok_iff.mp hi
  exact ⟨name, hname.isFileName, rfl⟩

/-- **No two tasks have the same output**: what would clash has an error in the place of
an output. -/
theorem pairwise_tasks (files : List Path) (out : Path) :
    (tasks files out).Pairwise fun a b => ∀ o, a.output = .ok o → b.output ≠ .ok o := by
  have hplans : (OutputPlan.ofFiles files out).Pairwise fun a b => ∀ o, a = .ok o →
      b ≠ .ok o := by
    rw [List.pairwise_iff_getElem]
    intro i j hi hj hij o ha hb
    obtain ⟨name, hname, hclash, rfl⟩ :=
      OutputPlan.ofFiles_eq_ok_iff.mp (List.getElem?_eq_some_iff.mpr ⟨hi, ha⟩)
    obtain ⟨name', hname', -, hjoin⟩ :=
      OutputPlan.ofFiles_eq_ok_iff.mp (List.getElem?_eq_some_iff.mpr ⟨hj, hb⟩)
    exact hclash ⟨j, name', hij.ne', hname', by rw [Path.join_injective hjoin]⟩
  rwa [← map_output_tasks, List.pairwise_map] at hplans

/-! ## Preparation -/

/-- What is known of a batch that has been prepared.  The directory `made` comes from
`tree` by adding directories; the two directories are different places in it. -/
structure Prepared (tree : FileTree) (input out : Path) (tasks : List FileTask)
    (made : FileTree) (inputLoc outLoc : Location) : Prop where
  addsDirectories : tree.AddsDirectories made
  resolve_input_before : tree.resolve input = .ok inputLoc
  directory_input_before : tree.node? inputLoc = some .directory
  resolve_input : made.resolve input = .ok inputLoc
  resolve_out : made.resolve out = .ok outLoc
  directory_input : made.node? inputLoc = some .directory
  directory_out : made.node? outLoc = some .directory
  ne : inputLoc ≠ outLoc
  tasks_eq : tasks = Batch.tasks (filesAmong input (made.children inputLoc)) out

/-- The directories of a batch, once those of its output have been made: the input is
where it was. -/
theorem directory_input_of_made {loc : Location} (hinput : tree.resolve input = .ok loc)
    (hdirectory : tree.node? loc = some .directory)
    (hmade : tree.createDirectories out = (.ok (), made)) :
    tree.AddsDirectories made ∧ made.resolve input = .ok loc ∧
    made.node? loc = some .directory := by
  have hadds := tree.addsDirectories_createDirectories out
  rw [hmade] at hadds
  exact ⟨hadds, hadds.keeps.resolve hinput, hadds.keeps.directory _ hdirectory⟩

/-- **What the checks of a batch come to** when its input directory is there and its
output directory has been made. -/
theorem prepare_eq {loc : Location} (hinput : tree.resolve input = .ok loc)
    (hdirectory : tree.node? loc = some .directory)
    (hmade : tree.createDirectories out = (.ok (), made)) : prepare tree input out =
      (match made.resolve out with
        | .error e => .error (.unresolved input out e)
        | .ok outLoc =>
          if loc = outLoc then .error (.sameDirectory out)
          else .ok (tasks (filesAmong input (made.children loc)) out), made) := by
  obtain ⟨-, hinput', hdirectory'⟩ := directory_input_of_made hinput hdirectory hmade
  have hlist := FileTree.listDirectory_eq_ok_iff.mpr ⟨loc, hinput', hdirectory', rfl⟩
  rw [prepare, if_pos (FileTree.isDirectory_iff.mpr ⟨loc, hinput, hdirectory⟩), hmade]
  dsimp only
  rw [checkDistinct, hinput', strategyFiles, hlist]
  cases made.resolve out with
  | error e => rfl
  | ok outLoc =>
    dsimp only [Except.mapError, Except.map, bind, Except.bind, pure, Except.pure]
    by_cases heq : loc = outLoc
    · rw [if_pos heq, if_pos heq]
      rfl
    · rw [if_neg heq, if_neg heq]

/-- **The checks of a batch** ensure that its two directories are there and differ. -/
theorem exists_prepared_of_prepare {ts : List FileTask}
    (h : prepare tree input out = (.ok ts, made)) :
    ∃ inputLoc outLoc, Prepared tree input out ts made inputLoc outLoc := by
  by_cases hinput : tree.isDirectory input = true
  · obtain ⟨inputLoc, hresolve, hdirectory⟩ := FileTree.isDirectory_iff.mp hinput
    -- The input directory is looked up anew once the output directory has been made.
    rcases hcreated : tree.createDirectories out with ⟨e | _, made'⟩
    · rw [prepare, if_pos hinput, hcreated] at h
      cases (Prod.mk.inj h).1
    · obtain ⟨hadds, hresolve', hdirectory'⟩ :=
        directory_input_of_made hresolve hdirectory hcreated
      rw [prepare_eq hresolve hdirectory hcreated] at h
      obtain ⟨hok, rfl⟩ := Prod.mk.inj h
      split at hok
      · cases hok
      next outLoc hout =>
        split at hok
        · cases hok
        next hne =>
          exact ⟨inputLoc, outLoc, hadds, hresolve, hdirectory, hresolve',
            hout, hdirectory', FileTree.node?_of_createDirectories hcreated hout, hne,
            (Except.ok.inj hok).symm⟩
  · rw [prepare, if_neg hinput] at h
    cases (Prod.mk.inj h).1

namespace Prepared

variable {ts : List FileTask} {inputLoc outLoc : Location}

/-- The files that are converted are files of the input directory, and they are still
there when the output directory has been made. -/
theorem exists_of_mem_files (h : Prepared tree input out ts made inputLoc outLoc)
    (hw : tree.WellFormed) (hp : p ∈ filesAmong input (made.children inputLoc)) :
    ∃ name contents, IsFileName name ∧ hasStrategyExtension (input.join name) = true ∧
      p = input.join name ∧
      made.node? (inputLoc ++ [name]) = some (.file contents) := by
  have hmade : made.WellFormed := h.addsDirectories.wellFormed hw
  obtain ⟨name, contents, hchild, hextension, rfl⟩ := mem_filesAmong_iff.mp hp
  have hnode := hmade.mem_children_iff.mp hchild
  exact ⟨name, contents, hmade.isFileName hnode, hextension, rfl, hnode⟩

/-- The input of a task is such a file. -/
theorem exists_input (h : Prepared tree input out ts made inputLoc outLoc)
    (hw : tree.WellFormed) (htask : task ∈ ts) :
    ∃ name contents, IsFileName name ∧ hasStrategyExtension (input.join name) = true ∧
      task.input = input.join name ∧
      made.node? (inputLoc ++ [name]) = some (.file contents) := by
  refine h.exists_of_mem_files hw ?_
  rw [← map_input_tasks (filesAmong input (made.children inputLoc)) out, ← h.tasks_eq]
  exact List.mem_map_of_mem htask

/-- The output of a task, if it has one, is a name below the output directory. -/
theorem exists_output (h : Prepared tree input out ts made inputLoc outLoc)
    (htask : task ∈ ts) (ho : task.output = .ok o) :
    ∃ name, IsFileName name ∧ o = out.join name := by
  rw [h.tasks_eq] at htask
  exact exists_output_of_mem_tasks htask ho

/-- What is read of a file directly inside the input directory. -/
theorem readFile_input (h : Prepared tree input out ts made inputLoc outLoc)
    {contents : Bytes} (hname : IsFileName name)
    (hnode : made.node? (inputLoc ++ [name]) = some (.file contents)) :
    tree.readFile (input.join name) = .ok contents := by
  have hnode' := h.addsDirectories.file_iff.mp hnode
  have hsome := Option.isSome_of_eq_some hnode'
  exact FileTree.readFile_eq_ok_iff.mpr
    ⟨_, FileTree.resolve_join hname h.resolve_input_before h.directory_input_before
      hsome, hnode'⟩

end Prepared

end Batch

end StrategyDialect
