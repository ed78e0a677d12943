import StrategyDialect.Batch.Report

/-!
# Converting a directory

Every strategy file directly inside a directory is converted into another directory.  A
failure of one file does not concern the others.

## Main definitions

* `Batch.strategyFiles`: the strategy files of a directory, in order
* `Batch.tasks`: the tasks for them
* `Batch.runTasks`: the tasks one after the other
* `Batch.convertDirectory`: the whole batch
-/

namespace StrategyDialect

/-- Why a batch is not started. -/
inductive BatchError where
  /-- The input is no directory. -/
  | noInput (input : Path)
  /-- The output directory cannot be made. -/
  | noOutput (out : Path) (e : FileError)
  /-- One of the two directories cannot be found. -/
  | unresolved (input out : Path) (e : FileError)
  /-- Both directories are the same. -/
  | sameDirectory (out : Path)
  /-- The input cannot be listed. -/
  | unlisted (input : Path) (e : FileError)

/-- The message for an error and those for its causes. -/
def BatchError.chain : BatchError → List Text
  | noInput input => ["Input directory does not exist: ".toList ++ input.text]
  | noOutput out e =>
    ["Failed to create output directory: ".toList ++ out.text, e.message]
  | unresolved input out e =>
    ["Failed to resolve ".toList ++ input.text ++ " or ".toList ++ out.text, e.message]
  | sameDirectory out =>
    ["Output directory must differ from input directory: ".toList ++ out.text]
  | unlisted input e =>
    ["Failed to read input directory: ".toList ++ input.text, e.message]

namespace Batch

/-- The extensions of strategy files. -/
def extensions : List Text :=
  ["cs".toList, "txt".toList, "pls".toList]

/-- Whether a path has the extension of a strategy file, in upper or lower case. -/
def hasStrategyExtension (p : Path) : Bool :=
  p.extension?.any fun extension => extensions.contains (extension.map Char.toLower)

/-- The paths of the strategy files among the nodes of a directory, in the order of
their names. -/
def filesAmong (directory : Path) (nodes : List (Text × FileNode)) : List Path :=
  let names := nodes.filterMap fun
    | (name, .file _) =>
      if hasStrategyExtension (directory.join name) then some name else none
    | (_, .directory) => none
  (names.mergeSort Text.precedes).map directory.join

/-- The strategy files directly inside a directory, in order. -/
def strategyFiles (tree : FileTree) (directory : Path) : Except BatchError (List Path) :=
  ((tree.listDirectory directory).mapError (.unlisted directory)).map
    (filesAmong directory)

/-- The tasks for some strategy files. -/
def tasks (files : List Path) (out : Path) : List FileTask :=
  List.zipWith FileTask.mk files (OutputPlan.ofFiles files out)

/-- Tasks one after the other, with the entries they lead to. -/
def runTasks (engine : Engine) (policy : ConvertPolicy) : List FileTask → FileTree →
    List BatchEntry × FileTree
  | [], tree => ([], tree)
  | task :: rest, tree =>
    let (entry, tree) := task.run engine policy tree
    let (entries, tree) := runTasks engine policy rest tree
    (entry :: entries, tree)

/-- Refuses an output directory that is the input directory. -/
def checkDistinct (tree : FileTree) (input out : Path) : Except BatchError Unit := do
  let input' ← (tree.resolve input).mapError (.unresolved input out)
  let out' ← (tree.resolve out).mapError (.unresolved input out)
  if input' = out' then throw (.sameDirectory out)

/-- The tasks of a batch, once its directories have been checked and the output
directory made. -/
def prepare (tree : FileTree) (input out : Path) :
    Except BatchError (List FileTask) × FileTree :=
  if tree.isDirectory input then
    match tree.createDirectories out with
    | (.error e, tree) => (.error (.noOutput out e), tree)
    | (.ok (), tree) =>
      (do
        checkDistinct tree input out
        return tasks (← strategyFiles tree input) out, tree)
  else (.error (.noInput input), tree)

/-- Converts every strategy file of a directory into another directory. -/
def convertDirectory (engine : Engine) (input out : Path) (policy : ConvertPolicy)
    (now : Timestamp) (tree : FileTree) : Except BatchError BatchReport × FileTree :=
  match prepare tree input out with
  | (.error e, tree) => (.error e, tree)
  | (.ok tasks, tree) =>
    let (entries, tree) := runTasks engine policy tasks tree
    (.ok ⟨now, engine.dialect, entries⟩, tree)

end Batch

end StrategyDialect
