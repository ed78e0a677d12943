import StrategyDialect.Text.Basic

/-!
# TOML documents

A document is a tree of tables.  How a table came about decides what may be added to it
later, so each table keeps its origin.

## Main definitions

* `TomlItem`: what stands under a key
* `TomlTable.assign`: a table with one more key and value
* `TomlTable.openTable`, `TomlTable.openElement`: a document in which a header has been
  read
-/

namespace StrategyDialect

/-- Why a text is no TOML document of the expected shape. -/
inductive TomlFault where
  /-- The text does not follow the grammar. -/
  | illFormed
  /-- A key is given twice, or a table is extended in a way that its origin does not
  allow. -/
  | duplicateKey
  /-- Values are nested too deeply. -/
  | tooDeep
  /-- A value does not have the type that its key asks for. -/
  | wrongType
deriving DecidableEq

/-- How a table came about. -/
inductive TableOrigin where
  /-- Written in braces; it is complete as it stands. -/
  | inline
  /-- Opened by a header of its own. -/
  | header
  /-- Named on the way to the table of a longer header. -/
  | implied
  /-- Named on the way to the last part of a dotted key. -/
  | dotted
deriving DecidableEq

/-- What stands under a key of a document. -/
inductive TomlItem where
  /-- A string. -/
  | text (t : Text)
  /-- A boolean, a number, a date or a time, as it is written. -/
  | scalar (written : Text)
  /-- A list of values in brackets. -/
  | array (items : List TomlItem)
  /-- A table. -/
  | table (origin : TableOrigin) (entries : List (Text × TomlItem))
  /-- The tables opened by the headers in double brackets of one name. -/
  | tables (elements : List (List (Text × TomlItem)))

/-- The keys of a table with their items, in the order in which they were written. -/
abbrev TomlTable := List (Text × TomlItem)

namespace TomlTable

/-- The item of a key. -/
def item? (table : TomlTable) (key : Text) : Option TomlItem :=
  table.lookup key

/-- The table with a new item for a key that it has. -/
def replace (key : Text) (item : TomlItem) : TomlTable → TomlTable
  | [] => []
  | (k, i) :: rest =>
    if k = key then (k, item) :: rest else (k, i) :: replace key item rest

/-- A table, of which `origin` is the origin, where the table at the end of `path` is
changed.  Tables that the path names and that are missing are added.  A path taken from
a dotted key leads only through tables that have no header of their own. -/
def changeAt (isDotted : Bool)
    (change : TableOrigin → TomlTable → Except TomlFault TomlTable) (origin : TableOrigin)
    (table : TomlTable) : (path : List Text) → Except TomlFault TomlTable
  | [] => change origin table
  | key :: path =>
    match table.item? key with
    | none => do
      let origin := if isDotted then .dotted else .implied
      let inner ← changeAt isDotted change origin [] path
      return table ++ [(key, .table origin inner)]
    | some (.table innerOrigin inner) => do
      if innerOrigin = .inline ∨ (isDotted ∧ innerOrigin = .header)
        then throw .duplicateKey
      let inner ← changeAt isDotted change innerOrigin inner path
      return table.replace key (.table innerOrigin inner)
    | some (.tables elements) => do
      let inner ← changeAt isDotted change .header (elements.getLast?.getD []) path
      return table.replace key (.tables (elements.dropLast ++ [inner]))
    | some _ => throw .duplicateKey

/-- The table with a value under a key that it does not have yet; `path` holds the parts
of the key before the last.  A table that came about otherwise than by dotted keys is
not extended by one. -/
def assign (path : List Text) (key : Text) (value : TomlItem) (table : TomlTable) :
    Except TomlFault TomlTable :=
  changeAt true (fun origin inner =>
    if (¬path.isEmpty ∧ origin ≠ .dotted) ∨
      (inner.item? key).isSome then .error .duplicateKey
    else .ok (inner ++ [(key, value)])) .header table path

/-- The document in which the header `[path.key]` has been read. -/
def openTable (path : List Text) (key : Text) (document : TomlTable) :
    Except TomlFault TomlTable :=
  changeAt false (fun _ inner =>
    match inner.item? key with
    | none => .ok (inner ++ [(key, .table .header [])])
    | some (.table .implied entries) => .ok (inner.replace key (.table .header entries))
    | some _ => .error .duplicateKey) .header document path

/-- The document in which the header `[[path.key]]` has been read. -/
def openElement (path : List Text) (key : Text) (document : TomlTable) :
    Except TomlFault TomlTable :=
  changeAt false (fun _ inner =>
    match inner.item? key with
    | none => .ok (inner ++ [(key, .tables [[]])])
    | some (.tables elements) => .ok (inner.replace key (.tables (elements ++ [[]])))
    | some _ => .error .duplicateKey) .header document path

/-- The document in which a key and value have been read below the header `header`. -/
def assignBelow (header path : List Text) (key : Text) (value : TomlItem)
    (document : TomlTable) : Except TomlFault TomlTable :=
  changeAt false (fun _ inner => inner.assign path key value) .header document header

end TomlTable

end StrategyDialect
