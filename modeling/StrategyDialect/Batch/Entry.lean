import StrategyDialect.Batch.Plan
import StrategyDialect.Engine

/-!
# Batch entries

What a batch reports of one strategy file, and the task that finds it out.  A task reads
its file once and then writes at most one file, the planned output; the two steps are
kept apart, since other tasks may run between them.

## Main definitions

* `BatchEntry`: what is reported of a file
* `FileTask`, `FileTask.read`, `FileTask.finish`: a task with its two steps
* `FileTask.run`: both steps without a pause
-/

namespace StrategyDialect

/-- Why a file of a batch has no output, other than by its errors. -/
inductive FileFailure where
  | unreadable (e : FileError)
  | notUtf8 (offset : Nat)
  | unwritable (output : Path) (e : FileError)
  | clash (c : NameClash)

/-- The message for a failure. -/
def FileFailure.message : FileFailure → Text
  | unreadable e => "Failed to read file: ".toList ++ e.message
  | notUtf8 offset => invalidUtf8Message offset
  | unwritable output e =>
    "Failed to write ".toList ++ output.text ++ ": ".toList ++ e.message
  | clash c => c.message

/-- What is reported of a strategy file. -/
structure BatchEntry where
  file : Path
  validation : Option Validation
  parameters : List Parameter
  /-- The file that the completed strategy was written to. -/
  output : Option Path
  /-- Why there is no output, if it is not for errors of the strategy. -/
  error : Option Text
deriving DecidableEq

namespace BatchEntry

/-- The entry for a file that could not be examined. -/
def failed (file : Path) (failure : FileFailure) : BatchEntry :=
  ⟨file, none, [], none, some failure.message⟩

/-- Whether the strategy was found valid. -/
def isValid (e : BatchEntry) : Bool :=
  e.validation.any (·.isValid)

/-- Whether the completed strategy was written. -/
def isConverted (e : BatchEntry) : Bool :=
  e.output.isSome

/-- The entry as JSON. -/
def toJson (e : BatchEntry) : JsonValue :=
  .object
    [("file".toList, .text e.file.text),
     ("validation".toList, e.validation.elim .null Validation.toJson),
     ("parameters".toList, Parameter.listToJson e.parameters),
     ("output".toList, .ofText? (e.output.map (·.text))),
     ("error".toList, .ofText? e.error)]

end BatchEntry

/-- The conversion of one file of a batch. -/
structure FileTask where
  input : Path
  output : Except NameClash Path

namespace FileTask

/-- What remains of a task once its file has been read. -/
inductive Progress where
  /-- Nothing is to be written. -/
  | settled (entry : BatchEntry)
  /-- A file is to be written, and named in the entry if this succeeds. -/
  | writing (entry : BatchEntry) (output : Path) (contents : Bytes)

/-- What remains once the text of the file is known. -/
def examine (task : FileTask) (engine : Engine) (policy : ConvertPolicy) (source : Text) :
    Progress :=
  let report := engine.run source policy (ClassName.ofText? (OutputPlan.stem task.input))
  let entry : BatchEntry :=
    ⟨task.input, some report.validation, report.parameters, none, none⟩
  match report.conversion, task.output with
  | none, _ => .settled entry
  | some _, .error c =>
    .settled { entry with error := some (FileFailure.clash c).message }
  | some conversion, .ok output => .writing entry output conversion.generatedCode.toUtf8

/-- The first step: the file is read. -/
def read (task : FileTask) (engine : Engine) (policy : ConvertPolicy) (tree : FileTree) :
    Progress :=
  match tree.readFile task.input with
  | .error e => .settled (.failed task.input (.unreadable e))
  | .ok bytes =>
    match Text.ofUtf8? bytes with
    | .error offset => .settled (.failed task.input (.notUtf8 offset))
    | .ok source => task.examine engine policy source

/-- The second step: the output is written. -/
def finish : Progress → FileTree → BatchEntry × FileTree
  | .settled entry, tree => (entry, tree)
  | .writing entry output contents, tree =>
    match tree.writeFile output contents with
    | .ok tree => ({ entry with output := some output }, tree)
    | .error e =>
      ({ entry with error := some (FileFailure.unwritable output e).message }, tree)

/-- Both steps, one right after the other. -/
def run (task : FileTask) (engine : Engine) (policy : ConvertPolicy) (tree : FileTree) :
    BatchEntry × FileTree :=
  finish (task.read engine policy tree) tree

end FileTask

end StrategyDialect
