import StrategyDialect.Files.Path
import StrategyDialect.Text.Utf8

/-!
# File trees

The files and directories that a command works on, as a value.  A node is found by its
location, the names on the way from the root.  A path is followed part by part from the
working directory; every part needs a directory to start from, so that a slash or a dot
behind the name of a file leads nowhere.

A tree holds files and directories only.  Left out are symbolic and hard links, so that
two locations never share their contents; owners and permissions, so that an operation
is refused for one of the four reasons below or not at all; devices that fill up or fail
in the middle, so that a file is written as a whole or stays as it was; and times of
access and change, which nothing here looks at.

## Main definitions

* `FileTree.node?`: the node at a location
* `FileTree.resolve`: the location that a path leads to
* `FileTree.readFile`, `FileTree.writeFile`: the contents of a file
* `FileTree.listDirectory`, `FileTree.createDirectories`: the contents and the making of
  directories
-/

namespace StrategyDialect

/-- The names on the way from the root to a file or directory. -/
abbrev Location := List Text

/-- A file with its contents, or a directory. -/
inductive FileNode where
  | file (contents : Bytes)
  | directory
deriving DecidableEq

/-- Why the file system refuses an operation. -/
inductive FileError where
  /-- There is nothing at the path. -/
  | notFound
  /-- There is something at the path already. -/
  | alreadyExists
  /-- The path leads through a file. -/
  | notADirectory
  /-- The path is that of a directory. -/
  | isADirectory
deriving DecidableEq

/-- The system's text for an error, with its number. -/
def FileError.message : FileError → Text
  | notFound => "No such file or directory (os error 2)".toList
  | alreadyExists => "File exists (os error 17)".toList
  | notADirectory => "Not a directory (os error 20)".toList
  | isADirectory => "Is a directory (os error 21)".toList

/-- Files and directories below a root, with the directory from which relative paths
start.  The nodes are in the order in which they were made; the root itself is a
directory and not among them. -/
structure FileTree where
  nodes : List (Location × FileNode)
  workingDirectory : Location

namespace FileTree

/-- The node at a location. -/
def node? (t : FileTree) (loc : Location) : Option FileNode :=
  if loc = [] then some .directory else t.nodes.lookup loc

/-- The nodes with a new node at a location, in place of the one that was there. -/
def putNode (loc : Location) (node : FileNode) :
    List (Location × FileNode) → List (Location × FileNode)
  | [] => [(loc, node)]
  | (l, n) :: rest =>
    if l = loc then (loc, node) :: rest else (l, n) :: putNode loc node rest

/-- The tree with a new node at a location. -/
def put (t : FileTree) (loc : Location) (node : FileNode) : FileTree :=
  { t with nodes := putNode loc node t.nodes }

/-- The names of the nodes in the directory at a location, with the nodes. -/
def children (t : FileTree) (loc : Location) : List (Text × FileNode) :=
  t.nodes.filterMap fun (l, node) =>
    if l.dropLast = loc then l.getLast?.map fun name => (name, node) else none

/-! ### Following paths -/

/-- The location reached from `loc` by the stretches of a path between its slashes. -/
def follow (t : FileTree) (loc : Location) :
    (pieces : List Text) → Except FileError Location
  | [] => .ok loc
  | piece :: pieces =>
    match t.node? loc with
    | none => .error .notFound
    | some (.file _) => .error .notADirectory
    | some .directory =>
      if piece = [] ∨ piece = ['.'] then t.follow loc pieces
      else if piece = ['.', '.'] then t.follow loc.dropLast pieces
      else if (t.node? (loc ++ [piece])).isSome then t.follow (loc ++ [piece]) pieces
      else .error .notFound

/-- The location from which a path is followed. -/
def origin (t : FileTree) (p : Path) : Location :=
  if p.text.head? = some '/' then [] else t.workingDirectory

/-- The location that a path leads to.  The empty path leads nowhere. -/
def resolve (t : FileTree) (p : Path) : Except FileError Location :=
  if p.text = [] then .error .notFound
  else t.follow (t.origin p) (Text.splitOn '/' p.text)

/-- Where a path would put a new node. -/
inductive Target where
  /-- At the path there is, and has to be, a directory: the path ends in a dot, two dots
  or the root. -/
  | directory
  /-- The path names a node of a directory; a slash may follow the name. -/
  | child (parent : Location) (name : Text) (hasSlash : Bool)

/-- Where a path would put a new node.  All parts but the last have to be there. -/
def target (t : FileTree) (p : Path) : Except FileError Target :=
  if p.text = [] then .error .notFound
  else
    let pieces := Text.splitOn '/' p.text
    match pieces.reverse.dropWhile List.isEmpty with
    | [] => .ok .directory
    | last :: before => do
      let parent ← t.follow (t.origin p) before.reverse
      match t.node? parent with
      | some .directory =>
        if last = ['.'] ∨ last = ['.', '.'] then return .directory
        else return .child parent last (pieces.getLast? = some [])
      | some (.file _) => throw .notADirectory
      | none => throw .notFound

/-! ### Operations -/

/-- Whether a path leads to a directory. -/
def isDirectory (t : FileTree) (p : Path) : Bool :=
  match t.resolve p with
  | .ok loc => t.node? loc = some .directory
  | .error _ => false

/-- The contents of a file. -/
def readFile (t : FileTree) (p : Path) : Except FileError Bytes := do
  match t.node? (← t.resolve p) with
  | some (.file contents) => return contents
  | some .directory => throw .isADirectory
  | none => throw .notFound

/-- The tree in which the file at a path, made if it is missing, has the given
contents. -/
def writeFile (t : FileTree) (p : Path) (contents : Bytes) :
    Except FileError FileTree := do
  match ← t.target p with
  | .child parent name false =>
    match t.node? (parent ++ [name]) with
    | some .directory => throw .isADirectory
    | _ => return t.put (parent ++ [name]) (.file contents)
  | _ => throw .isADirectory

/-- The names in a directory with their nodes, in no particular order. -/
def listDirectory (t : FileTree) (p : Path) :
    Except FileError (List (Text × FileNode)) := do
  let loc ← t.resolve p
  match t.node? loc with
  | some .directory => return t.children loc
  | some (.file _) => throw .notADirectory
  | none => throw .notFound

/-- The tree with a new directory at a path. -/
def createDirectory (t : FileTree) (p : Path) : Except FileError FileTree := do
  match ← t.target p with
  | .directory => throw .alreadyExists
  | .child parent name _ =>
    if (t.node? (parent ++ [name])).isSome then throw .alreadyExists
    else return t.put (parent ++ [name]) .directory

/-- A path with the directories above it, as far as they are named; at most `bound` of
them. -/
def ancestors : (bound : Nat) → Path → List Path
  | 0, _ => []
  | bound + 1, p =>
    match p.parent? with
    | none => []
    | some above => p :: ancestors bound above

/-- Makes the first of some directories, each of which lies in the next, and those of
the others that are needed.  What was made stays, also if a later step fails. -/
def createFirst : (paths : List Path) → FileTree → Except FileError Unit × FileTree
  | [], t => (.ok (), t)
  | p :: above, t =>
    match t.createDirectory p with
    | .ok t => (.ok (), t)
    | .error .notFound =>
      match createFirst above t with
      | (.error e, t) => (.error e, t)
      | (.ok (), t) =>
        match t.createDirectory p with
        | .ok t => (.ok (), t)
        | .error e =>
          if e = .alreadyExists ∧ t.isDirectory p then (.ok (), t) else (.error e, t)
    | .error e =>
      if e = .alreadyExists ∧ t.isDirectory p then (.ok (), t) else (.error e, t)

/-- Makes a directory with all directories above it that are missing.  A directory that
is there already is no failure. -/
def createDirectories (t : FileTree) (p : Path) : Except FileError Unit × FileTree :=
  createFirst (ancestors (p.text.length + 1) p) t

end FileTree

end StrategyDialect
