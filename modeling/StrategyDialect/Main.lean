import Std.Time.DateTime.Timestamp
import StrategyDialect.CommandLine.Execution

/-!
# The program

The command line around `Command.execute`.  The part of the system's files that a
command concerns is loaded into a file tree, the command is executed on the tree, and
what it has changed there is stored.
-/

namespace StrategyDialect.Program

/-- The system's name for a location. -/
def systemName (loc : Location) : String :=
  "/" ++ "/".intercalate (loc.map String.ofList)

/-- The working directory. -/
def workingDirectory : IO Location := do
  return (Text.splitOn '/' (← IO.currentDir).toString.toList).filter (· ≠ [])

/-- The tree with what the system has at a location. -/
def loadNode (tree : FileTree) (loc : Location) : IO FileTree := do
  let file := (← IO.currentDir) / systemName loc
  if ← file.isDir then
    return tree.put loc .directory
  else if ← file.pathExists then
    return tree.put loc (.file (← IO.FS.readBinFile file).toList)
  else
    return tree

/-- The locations on the way along the stretches of a path between its slashes, the last
one first. -/
def locationsAlong (loc : Location) (pieces : List Text) : List Location :=
  pieces.foldl (fun passed piece =>
    let here := passed.headD loc
    if piece = [] ∨ piece = ['.'] then passed
    else if piece = ['.', '.'] then here.dropLast :: passed
    else (here ++ [piece]) :: passed) [loc]

/-- The locations on the way to the end of a path, the last one first. -/
def locationsTo (tree : FileTree) (p : Path) : List Location :=
  locationsAlong (tree.origin p) (Text.splitOn '/' p.text)

/-- The tree with what the system has on the way to the end of a path. -/
def loadPath (tree : FileTree) (p : Path) : IO FileTree :=
  (locationsTo tree p).reverse.foldlM loadNode tree

/-- The tree with what the system has directly inside a directory. -/
def loadDirectory (tree : FileTree) (p : Path) : IO FileTree := do
  let loc := (locationsTo tree p).headD []
  let file := (← IO.currentDir) / systemName loc
  if ← file.isDir then
    (← file.readDir).foldlM
      (fun tree entry => loadNode tree (loc ++ [entry.fileName.toList])) tree
  else
    return tree

/-- The part of the system's files that a command concerns. -/
def load (command : Command) : IO FileTree := do
  let here ← workingDirectory
  let tree ← ((List.range here.length).map fun n => here.take (n + 1)).foldlM
      loadNode ⟨[], here⟩
  let tree ← command.paths.foldlM loadPath tree
  command.directories.foldlM loadDirectory tree

/-- Stores a node if it was not in the tree before. -/
def storeNode (before : FileTree) (loc : Location) (node : FileNode) : IO Unit :=
  if before.node? loc = some node then return ()
  else match node with
    | .directory => IO.FS.createDir (systemName loc)
    | .file contents => IO.FS.writeBinFile (systemName loc) ⟨contents.toArray⟩

/-- The present time. -/
def now : IO Timestamp := do
  let time := (← Std.Time.Timestamp.now).val
  return ⟨time.second.val, time.nano.val.toNat⟩

/-- Executes a command on the system's files.  The result is the exit code. -/
def run (command : Command) : IO UInt32 := do
  let before ← load command
  let result := command.execute (← now) before
  result.tree.nodes.forM fun (loc, node) => storeNode before loc node
  IO.print (String.ofList result.output)
  IO.eprint (String.ofList result.errorOutput)
  match result.failure with
  | none => return 0
  | some e =>
    IO.eprint (String.ofList e.text)
    return 1

end StrategyDialect.Program

open StrategyDialect in
/-- Executes the command that the arguments ask for. -/
def main (arguments : List String) : IO UInt32 := do
  match Command.ofArguments (arguments.map String.toList) with
  | .ok command => Program.run command
  | .error .helpAsked =>
    IO.println (String.ofList UsageError.helpAsked.message)
    return 0
  | .error e =>
    IO.eprintln ("error: " ++ String.ofList e.message)
    return 2
