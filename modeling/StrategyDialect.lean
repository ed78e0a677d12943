import StrategyDialect.Batch.Directory
import StrategyDialect.Batch.Entry
import StrategyDialect.Batch.Plan
import StrategyDialect.Batch.Report
import StrategyDialect.CommandLine.Arguments
import StrategyDialect.CommandLine.Execution
import StrategyDialect.Dialect.Basic
import StrategyDialect.Dialect.Toml
import StrategyDialect.Engine
import StrategyDialect.Files.Path
import StrategyDialect.Files.Tree
import StrategyDialect.Json.Quoted
import StrategyDialect.Json.Reader
import StrategyDialect.Json.Value
import StrategyDialect.Main
import StrategyDialect.Number.Magnitude
import StrategyDialect.Pattern.Basic
import StrategyDialect.Pattern.Match
import StrategyDialect.Pattern.Occurrence
import StrategyDialect.Pattern.Reader
import StrategyDialect.Proofs.Dialect.Accepted
import StrategyDialect.Proofs.Pattern.Embedding
import StrategyDialect.Proofs.Pattern.Occurrence
import StrategyDialect.Proofs.Pattern.Outcomes
import StrategyDialect.Proofs.Pattern.Reading
import StrategyDialect.Proofs.Pattern.Search
import StrategyDialect.Proofs.Strategy.Confinement
import StrategyDialect.Proofs.Strategy.Declarations
import StrategyDialect.Proofs.Strategy.Defaults
import StrategyDialect.Proofs.Strategy.Extraction
import StrategyDialect.Proofs.Strategy.Frame
import StrategyDialect.Proofs.Strategy.Readings
import StrategyDialect.Proofs.Strategy.Reconversion
import StrategyDialect.Proofs.Strategy.Recovery
import StrategyDialect.Proofs.Strategy.Repair
import StrategyDialect.Proofs.Strategy.Unambiguity
import StrategyDialect.Proofs.Text.Classes
import StrategyDialect.Proofs.Text.Lines
import StrategyDialect.Report.Csv
import StrategyDialect.Report.Timestamp
import StrategyDialect.Strategy.ClassName
import StrategyDialect.Strategy.Conversion
import StrategyDialect.Strategy.Declaration
import StrategyDialect.Strategy.Parameter
import StrategyDialect.Strategy.Rule
import StrategyDialect.Strategy.Shape
import StrategyDialect.Strategy.Validation
import StrategyDialect.Text.Alphabetic
import StrategyDialect.Text.Basic
import StrategyDialect.Text.Blank
import StrategyDialect.Text.CodeRanges
import StrategyDialect.Text.Hex
import StrategyDialect.Text.LetterCase
import StrategyDialect.Text.LetterCase.CaseRun
import StrategyDialect.Text.LetterCase.Context
import StrategyDialect.Text.LetterCase.Lower
import StrategyDialect.Text.LetterCase.Upper
import StrategyDialect.Text.Mark
import StrategyDialect.Text.Numeral
import StrategyDialect.Text.Utf8
import StrategyDialect.Text.Word
import StrategyDialect.Toml.Item
import StrategyDialect.Toml.Quoted
import StrategyDialect.Toml.Reader
import StrategyDialect.Toml.Scalar
import StrategyDialect.Toml.Writer
import StrategyDialect.Proofs.Engine
import StrategyDialect.Proofs.Strategy.ClassHeader
import StrategyDialect.Proofs.Strategy.Recognition
import StrategyDialect.Proofs.Files.Path
import StrategyDialect.Proofs.Files.Tree
import StrategyDialect.Proofs.Batch.Plan
import StrategyDialect.Proofs.Batch.Schedule
import StrategyDialect.Proofs.CommandLine.Execution
import StrategyDialect.Proofs.Batch.Agreement
import StrategyDialect.Proofs.Text.Hex
import StrategyDialect.Proofs.Toml.Quoted
import StrategyDialect.Proofs.Toml.Document
import StrategyDialect.Proofs.Dialect.Toml
import StrategyDialect.Proofs.Pattern.Spelling
import StrategyDialect.Proofs.Strategy.Classification
import StrategyDialect.Proofs.Strategy.Grammar
import StrategyDialect.Proofs.Pattern.LineEnds
import StrategyDialect.Proofs.Strategy.LineEnds
import StrategyDialect.Pipeline
import StrategyDialect.Session
import StrategyDialect.Proofs.Strategy.Nesting
import StrategyDialect.Proofs.Strategy.Containment
import StrategyDialect.Proofs.Strategy.Validation
import StrategyDialect.Proofs.Pipeline
import StrategyDialect.Proofs.Session
import StrategyDialect.Proofs.Strategy.EntryBodies
import StrategyDialect.Proofs.Strategy.InitialValues
import StrategyDialect.Proofs.Strategy.Assignments
import StrategyDialect.Proofs.Strategy.WellFormedness
import StrategyDialect.Proofs.Text.LetterCase
import StrategyDialect.Proofs.Strategy.ClassName
import StrategyDialect.Proofs.Strategy.Usings
import StrategyDialect.Proofs.Text.FinalSigma
import StrategyDialect.Proofs.Batch.Outputs
import StrategyDialect.Proofs.Batch.Counts
import StrategyDialect.Proofs.Json.Quoted
import StrategyDialect.Proofs.Json.Document
import StrategyDialect.Proofs.Strategy.Parameter
import StrategyDialect.Proofs.CommandLine.Atomicity
import StrategyDialect.Proofs.Files.Directories
import StrategyDialect.Proofs.Batch.Refusal
import StrategyDialect.Proofs.Text.Utf8
import StrategyDialect.Proofs.Report.Csv
import StrategyDialect.Proofs.Batch.Report
import StrategyDialect.Proofs.Decoding
import StrategyDialect.Proofs.Strategy.BlockEnds
