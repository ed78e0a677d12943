import StrategyDialect.Files.Path
import StrategyDialect.Text.LetterCase

/-!
# Output plans

Each strategy file of a batch is given a file of its own to write to, before anything is
written.  Names that differ only in case count as the same, because some file systems do
not tell them apart.

## Main definitions

* `OutputPlan.outputName`: the file name for a strategy among others
* `OutputPlan.ofFiles`: the planned outputs of some strategy files
-/

namespace StrategyDialect

/-- A file name that several strategy files would be written to. -/
structure NameClash where
  name : Text
deriving DecidableEq

/-- The message for a clash. -/
def NameClash.message (c : NameClash) : Text :=
  "Output name ".toList ++ c.name ++ " collides with another input file".toList

namespace OutputPlan

/-- The stem of a strategy file. -/
def stem (file : Path) : Text :=
  file.stem?.getD "strategy".toList

/-- Whether a text occurs more than once in a list, case apart. -/
def isShared (t : Text) (ts : List Text) : Bool :=
  1 < (ts.map Text.lower).count t.lower

/-- The name of the output for a strategy file: its stem, followed by its extension if
the stem is shared with another of the files. -/
def outputName (files : List Path) (file : Path) : Text :=
  if isShared (stem file) (files.map stem) then
    stem file ++ ['_'] ++ file.extension?.getD [] ++ ".cs".toList
  else stem file ++ ".cs".toList

/-- The outputs for some strategy files in a directory.  A name that is still shared is
not used. -/
def ofFiles (files : List Path) (directory : Path) : List (Except NameClash Path) :=
  let names := files.map (outputName files)
  names.map fun name =>
    if isShared name names then .error ⟨name⟩ else .ok (directory.join name)

end OutputPlan

end StrategyDialect
