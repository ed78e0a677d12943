import StrategyDialect.Batch.Entry
import StrategyDialect.Report.Csv
import StrategyDialect.Report.Timestamp

/-!
# Batch reports

The result of a batch, which is written twice: in full as JSON, and as a summary of one
line for each file.

## Main definitions

* `BatchReport`: the entries of a batch with what they were made by
* `BatchReport.summaryPath`: where the summary of a report goes
* `BatchReport.write`: both files
-/

namespace StrategyDialect

/-- The result of a batch. -/
structure BatchReport where
  generatedAt : Timestamp
  dialect : Dialect
  entries : List BatchEntry

/-- A dialect as JSON. -/
def Dialect.toJson (d : Dialect) : JsonValue :=
  .object
    [(DialectField.namespaceName.key, .text d.namespaceName),
     (DialectField.baseType.key, .text d.baseType),
     (DialectField.entryMethod.key, .text d.entryMethod),
     (DialectField.inputAttribute.key, .text d.inputAttribute),
     (DialectField.className.key, .text d.className),
     (DialectField.usings.key, .texts d.usings)]

namespace BatchReport

/-- The number of files whose completed strategy was written. -/
def convertedCount (r : BatchReport) : Nat :=
  r.entries.countP (·.isConverted)

/-- The number of files that were examined and found invalid. -/
def invalidCount (r : BatchReport) : Nat :=
  r.entries.countP fun e => e.validation.isSome && !e.isValid

/-- The number of files that something failed for. -/
def failedCount (r : BatchReport) : Nat :=
  r.entries.countP (·.error.isSome)

/-- The report as JSON. -/
def toJson (r : BatchReport) : JsonValue :=
  .object
    [("generated_at".toList, .text r.generatedAt.text),
      ("dialect".toList, r.dialect.toJson),
      ("entries".toList, .list (r.entries.map BatchEntry.toJson))]

/-! ### The summary -/

/-- `true` or `false`. -/
def boolText (b : Bool) : Text :=
  if b then "true".toList else "false".toList

/-- What went wrong with a file: the failure, or else the errors of the strategy. -/
def errorText (e : BatchEntry) : Text :=
  match e.error, e.validation with
  | some error, _ => error
  | none, some v => "; ".toList.intercalate v.errors
  | none, none => []

/-- The titles of the columns. -/
def summaryHeader : List Text :=
  ["file".toList, "valid".toList, "errors".toList, "parameters".toList,
    "converted".toList]

/-- The line for a file. -/
def summaryRecord (e : BatchEntry) : List Text :=
  [e.file.text, boolText e.isValid, errorText e, Text.ofNat e.parameters.length,
   boolText e.isConverted]

/-- The summary of the report. -/
def summary (r : BatchReport) : Text :=
  Csv.write (summaryHeader :: r.entries.map summaryRecord)

/-- The path of the summary for a report: next to the report, named after its stem. -/
def summaryPath (report : Path) : Path :=
  (report.parent?.getD ⟨['.']⟩).join
    (report.stem?.getD "report".toList ++ "_summary.csv".toList)

/-! ### Writing -/

/-- Why a report is not written. -/
inductive WriteError where
  /-- The report itself cannot be written. -/
  | report (path : Path) (e : FileError)
  /-- The summary cannot be written. -/
  | summary (e : FileError)

/-- The message for an error and those for its causes. -/
def WriteError.chain : WriteError → List Text
  | report path e => ["Failed to write report: ".toList ++ path.text, e.message]
  | summary e => [e.message, e.message]

/-- Writes the report and its summary, and returns the path of the summary. -/
def write (r : BatchReport) (path : Path) (tree : FileTree) :
    Except WriteError Path × FileTree :=
  match tree.writeFile path r.toJson.pretty.toUtf8 with
  | .error e => (.error (.report path e), tree)
  | .ok tree =>
    match tree.writeFile (summaryPath path) r.summary.toUtf8 with
    | .error e => (.error (.summary e), tree)
    | .ok tree => (.ok (summaryPath path), tree)

end BatchReport

end StrategyDialect
