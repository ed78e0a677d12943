import StrategyDialect.Text.Basic

/-!
# Paths

A path is kept as it is written; its parts are found on demand.  Empty parts and parts
`.` after the first count for nothing.

Paths are texts: a file whose name is not well-formed UTF-8 has no path here, and the
replacement characters such a name would be shown with do not arise.  The only
separator is the slash, and there are no drives.

## Main definitions

* `Path.components`: the parts that count
* `Path.fileName?`, `Path.stem?`, `Path.extension?`: the last part and its two halves
* `Path.parent?`, `Path.join`: one step up, and one step down
-/

namespace StrategyDialect

/-- The path of a file or directory. -/
structure Path where
  text : Text
deriving DecidableEq

/-- A part of a path. -/
inductive PathComponent where
  /-- The root directory, at the start of an absolute path. -/
  | root
  /-- The directory itself, at the start of a path that begins with `.`. -/
  | here
  /-- The directory above. -/
  | up
  /-- A file or directory with a name. -/
  | name (n : Text)
deriving DecidableEq

namespace Path

/-- The part that a stretch between slashes stands for, if it counts. -/
def component? (piece : Text) : Option PathComponent :=
  if piece = [] ∨ piece = ['.'] then none
  else if piece = ['.', '.'] then some .up
  else some (.name piece)

/-- The parts of a path that count. -/
def components (p : Path) : List PathComponent :=
  match Text.splitOn '/' p.text with
  | [] => []
  | first :: rest =>
    let start :=
      if first = [] ∧ rest ≠ [] then [.root]
      else if first = ['.'] then [.here]
      else (component? first).toList
    start ++ rest.filterMap component?

/-- The name of the file or directory, if the last part is a name. -/
def fileName? (p : Path) : Option Text :=
  match p.components.getLast? with
  | some (.name n) => some n
  | _ => none

/-- A file name cut at its last dot.  A dot at the start of the name does not cut it. -/
def cutName (name : Text) : Text × Option Text :=
  let (after, before) := name.reverse.span (· != '.')
  match before with
  | [] => (name, none)
  | [_] => (name, none)
  | _ :: stem => (stem.reverse, some after.reverse)

/-- The file name without its extension. -/
def stem? (p : Path) : Option Text :=
  p.fileName?.map fun name => (cutName name).1

/-- What follows the last dot of the file name. -/
def extension? (p : Path) : Option Text :=
  p.fileName?.bind fun name => (cutName name).2

/-- The stretches of a path, read backwards, without those at its end that do not
count. -/
def dropIdle : (pieces : List Text) → List Text
  | [] => []
  | piece :: pieces =>
    if pieces ≠ [] ∧ (component? piece).isNone then dropIdle pieces else piece :: pieces

/-- The text of the stretches of a path, read backwards. -/
def ofPieces (pieces : List Text) : Path :=
  ⟨(['/'].intercalate pieces.reverse)⟩

/-- The directory that the last part of a path lies in.  The root and the empty path lie
in none. -/
def parent? (p : Path) : Option Path :=
  match p.components.getLast? with
  | none => none
  | some .root => none
  | some _ =>
    match dropIdle (Text.splitOn '/' p.text).reverse with
    | [] => none
    | _ :: above =>
      match dropIdle above with
      | [[]] => some (ofPieces [[], []])
      | above => some (ofPieces above)

/-- A name below a directory. -/
def join (directory : Path) (name : Text) : Path :=
  if directory.text = [] ∨ directory.text.getLast? = some '/'
    then ⟨directory.text ++ name⟩
  else ⟨directory.text ++ '/' :: name⟩

end Path

end StrategyDialect
