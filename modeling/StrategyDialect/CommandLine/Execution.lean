import StrategyDialect.Batch.Directory
import StrategyDialect.CommandLine.Arguments
import StrategyDialect.Dialect.Toml

/-!
# Executing commands

A command reads from a file tree, may change it, prints something, and succeeds or
fails.  A failure has a message and may have causes with messages of their own.

## Main definitions

* `CommandError`: why a command fails
* `CommandResult`: all that a command leaves behind
* `Command.execute`: the execution of a command
* `Command.paths`, `Command.directories`: the part of the file tree that a command
  concerns
-/

namespace StrategyDialect

/-- Why a strategy file cannot be used. -/
inductive StrategyFileError where
  | file (e : FileError)
  | notUtf8 (offset : Nat)

/-- The message for an error. -/
def StrategyFileError.message : StrategyFileError → Text
  | file e => e.message
  | notUtf8 offset => invalidUtf8Message offset

/-- Why a command fails. -/
inductive CommandError where
  /-- The dialect of a file cannot be used. -/
  | dialectFile (path : Path) (e : DialectError)
  /-- The engine cannot be set up as asked. -/
  | engine (e : DialectError)
  /-- The strategy cannot be read. -/
  | strategyFile (path : Path) (e : StrategyFileError)
  /-- The strategy has errors. -/
  | invalid (path : Path) (count : Nat)
  /-- The strategy has errors and is not converted. -/
  | notConverted (path : Path)
  /-- The result cannot be written. -/
  | notWritten (path : Path) (e : FileError)
  /-- The batch is not started. -/
  | batch (e : BatchError)
  /-- The report of the batch is not written. -/
  | report (e : BatchReport.WriteError)

/-- The message for an error and those for its causes. -/
def DialectError.chain (e : DialectError) : List Text :=
  e.message :: match e with
    | .unreadable _ cause => [cause.message]
    | _ => []

/-- The message for an error and those for its causes, from the outermost to the
innermost. -/
def CommandError.chain : CommandError → List Text
  | dialectFile path e => ("Failed to load dialect: ".toList ++ path.text) :: e.chain
  | engine e => e.chain
  | strategyFile path e =>
    ["Failed to read strategy file: ".toList ++ path.text, e.message]
  | invalid path count =>
    [path.text ++ " failed validation with ".toList ++ Text.ofNat count
      ++ " errors".toList]
  | notConverted path =>
    [path.text ++ " failed validation; use --force to convert anyway".toList]
  | notWritten path e => ["Failed to write output: ".toList ++ path.text, e.message]
  | batch e => e.chain
  | report e => e.chain

/-- The causes of a failure, one on a line; several are numbered. -/
def CommandError.causeLines : (causes : List Text) → Text
  | [] => []
  | [cause] => "\n\nCaused by:\n    ".toList ++ cause
  | causes =>
    "\n\nCaused by:".toList ++ causes.zipIdx.flatMap fun (cause, i) =>
      "\n    ".toList ++ Text.ofNat i ++ ": ".toList ++ cause

/-- The text that reports a failure with its causes. -/
def CommandError.text (e : CommandError) : Text :=
  match e.chain with
  | [] => []
  | message :: causes => "Error: ".toList ++ message ++ causeLines causes ++ ['\n']

/-- All that a command leaves behind. -/
structure CommandResult where
  output : Text
  errorOutput : Text
  failure : Option CommandError
  tree : FileTree

namespace CommandResult

/-- A command that succeeds and prints a line. -/
def printed (tree : FileTree) (line : Text) : CommandResult :=
  ⟨line ++ ['\n'], [], none, tree⟩

/-- A command that fails and prints nothing. -/
def failed (tree : FileTree) (e : CommandError) : CommandResult :=
  ⟨[], [], some e, tree⟩

/-- The result of the rest of a command, unless the command has failed already. -/
def ofExcept {α : Type} (tree : FileTree) (found : Except CommandError α)
    (rest : α → CommandResult) : CommandResult :=
  match found with
  | .error e => failed tree e
  | .ok a => rest a

end CommandResult

/-- The lines that report the errors of a strategy. -/
def Validation.errorLines (v : Validation) : Text :=
  v.errors.flatMap fun error => "error: ".toList ++ error ++ ['\n']

namespace Command

/-- The dialect in a file, or the PowerLanguage dialect. -/
def loadDialect (tree : FileTree) : Option Path → Except CommandError Dialect
  | none => .ok .powerLanguage
  | some path => (Dialect.ofFile tree path).mapError (.dialectFile path)

/-- The engine for a dialect that may be in a file. -/
def loadEngine (tree : FileTree) (dialect : Option Path) :
    Except CommandError Engine := do
  (Engine.ofDialect (← loadDialect tree dialect)).mapError .engine

/-- The text of a strategy file. -/
def readStrategy (tree : FileTree) (path : Path) : Except CommandError Text := do
  let bytes ← (tree.readFile path).mapError fun e => .strategyFile path (.file e)
  (Text.ofUtf8? bytes).mapError fun offset => .strategyFile path (.notUtf8 offset)

/-- The policy that a flag asks for. -/
def policy (force : Bool) : ConvertPolicy :=
  if force then .always else .requireValid

/-- The verdict on a strategy. -/
def executeValidate (strategy : Path) (dialect : Option Path) (json : Bool)
    (tree : FileTree) : CommandResult :=
  .ofExcept tree (loadEngine tree dialect) fun engine =>
  .ofExcept tree (readStrategy tree strategy) fun source =>
    let v := engine.validate source
    { output :=
        if json then v.toJson.pretty ++ ['\n']
        else if v.isValid then strategy.text ++ " is valid\n".toList
        else v.errorLines
      errorOutput := []
      failure := if v.isValid then none else some (.invalid strategy v.errors.length)
      tree := tree }

/-- The engine for a conversion. -/
def convertEngine (options : ConvertOptions) (tree : FileTree) :
    Except CommandError Engine := do
  let engine ← loadEngine tree options.dialect
  match options.className with
  | none => return engine
  | some name => (engine.withClassName name).mapError .engine

/-- The name for a generated class that the file name suggests, unless another one is
asked for. -/
def derivedClassName (options : ConvertOptions) : Option Text :=
  match options.className with
  | some _ => none
  | none => options.strategy.stem?.bind ClassName.ofText?

/-- The result of a conversion in the form that is asked for. -/
def renderConversion (json : Bool) (c : Conversion) : Text :=
  if json then c.toJson.pretty else c.generatedCode

/-- Prints the result of a conversion or writes it to a file. -/
def deliver (options : ConvertOptions) (c : Conversion) (tree : FileTree) :
    CommandResult :=
  let rendered := renderConversion options.json c
  match options.out with
  | none => .printed tree rendered
  | some out =>
    .ofExcept tree
      ((tree.writeFile out rendered.toUtf8).mapError (.notWritten out)) fun tree =>
      .printed tree <|
        "Converted ".toList ++ options.strategy.text ++ " into class ".toList
          ++ c.className ++ " (".toList ++ Text.ofNat c.parameters.length
          ++ " parameters). Written to ".toList
          ++ out.text

/-- The completed strategy. -/
def executeConvert (options : ConvertOptions) (tree : FileTree) : CommandResult :=
  .ofExcept tree (convertEngine options tree) fun engine =>
  .ofExcept tree (readStrategy tree options.strategy) fun source =>
    let report := engine.run source (policy options.force) (derivedClassName options)
    match report.conversion with
    | some c => deliver options c tree
    | none =>
      ⟨[], report.validation.errorLines, some (.notConverted options.strategy), tree⟩

/-- The parameters of a strategy. -/
def executeParameters (strategy : Path) (dialect : Option Path) (tree : FileTree) :
    CommandResult :=
  .ofExcept tree (loadEngine tree dialect) fun engine =>
  .ofExcept tree (readStrategy tree strategy) fun source =>
    .printed tree (Parameter.listToJson (engine.parameters source)).pretty

/-- The path of the report of a batch. -/
def reportPath (options : BatchOptions) : Path :=
  options.report.getD (options.out.join "report.json".toList)

/-- The line that sums up a batch. -/
def batchLine (options : BatchOptions) (report : BatchReport) : Text :=
  "Converted ".toList ++ Text.ofNat report.convertedCount ++ ['/']
    ++ Text.ofNat report.entries.length ++ " strategies (".toList
    ++ Text.ofNat report.invalidCount ++ " invalid, ".toList
      ++ Text.ofNat report.failedCount
    ++ " failed) into ".toList ++ options.out.text ++ ". Report written to ".toList
    ++ (reportPath options).text

/-- The conversion of a directory with its report. -/
def executeBatch (options : BatchOptions) (now : Timestamp) (tree : FileTree) :
    CommandResult :=
  .ofExcept tree (loadEngine tree options.dialect) fun engine =>
    match Batch.convertDirectory engine options.input options.out
      (policy options.force) now tree with
    | (.error e, tree) => .failed tree (.batch e)
    | (.ok report, tree) =>
      match report.write (reportPath options) tree with
      | (.error e, tree) => .failed tree (.report e)
      | (.ok _, tree) => .printed tree (batchLine options report)

/-- The execution of a command at some time. -/
def execute (now : Timestamp) (tree : FileTree) : Command → CommandResult
  | .validate strategy dialect json => executeValidate strategy dialect json tree
  | .convert options => executeConvert options tree
  | .parameters strategy dialect => executeParameters strategy dialect tree
  | .batch options => executeBatch options now tree
  | .showDialect => ⟨Dialect.powerLanguage.toToml, [], none, tree⟩

/-! ### What a command concerns -/

/-- The paths that a command reads or writes, apart from the files in its directories. -/
def paths : Command → List Path
  | .validate strategy dialect _ => strategy :: dialect.toList
  | .convert options => options.strategy :: options.dialect.toList ++ options.out.toList
  | .parameters strategy dialect => strategy :: dialect.toList
  | .batch options =>
    [options.input, options.out, reportPath options,
      BatchReport.summaryPath (reportPath options)] ++ options.dialect.toList
  | .showDialect => []

/-- The directories whose files a command reads or writes. -/
def directories : Command → List Path
  | .batch options => [options.input, options.out]
  | _ => []

end Command

end StrategyDialect
