import StrategyDialect.Dialect.Basic
import StrategyDialect.Toml.Reader
import StrategyDialect.Toml.Writer

/-!
# Dialects as TOML

A dialect is stored with one key for each field.  A key that is missing keeps the value
of the PowerLanguage dialect, and further keys are ignored.

## Main definitions

* `Dialect.toToml`: the document for a dialect
* `Dialect.ofToml`: the dialect that a document describes, if it is one whose fields
  hold names
* `Dialect.ofFile`: the dialect in a file
-/

namespace StrategyDialect

namespace Dialect

/-- The document for a dialect. -/
def toToml (d : Dialect) : Text :=
  let line := fun (field : DialectField) value => TomlWriter.line field.key value
  line .namespaceName (TomlString.write d.namespaceName)
    ++ line .baseType (TomlString.write d.baseType)
    ++ line .entryMethod (TomlString.write d.entryMethod)
    ++ line .inputAttribute (TomlString.write d.inputAttribute)
    ++ line .className (TomlString.write d.className)
    ++ line .usings (TomlWriter.writeList d.usings)

/-- The string under a key of a table, or `default` if there is no such key. -/
def textField (table : TomlTable) (field : DialectField) (default : Text) :
    Except TomlFault Text :=
  match table.item? field.key with
  | none => .ok default
  | some (.text t) => .ok t
  | some _ => .error .wrongType

/-- An item of a list of strings. -/
def itemText : TomlItem → Except TomlFault Text
  | .text t => .ok t
  | _ => .error .wrongType

/-- The list of strings under a key of a table, or `default` if there is no such key. -/
def textsField (table : TomlTable) (field : DialectField) (default : List Text) :
    Except TomlFault (List Text) :=
  match table.item? field.key with
  | none => .ok default
  | some (.array items) => items.mapM itemText
  | some _ => .error .wrongType

/-- The dialect that a table describes. -/
def ofTable (table : TomlTable) : Except TomlFault Dialect := do
  let d := powerLanguage
  return {
    namespaceName := ← textField table .namespaceName d.namespaceName
    baseType := ← textField table .baseType d.baseType
    entryMethod := ← textField table .entryMethod d.entryMethod
    inputAttribute := ← textField table .inputAttribute d.inputAttribute
    className := ← textField table .className d.className
    usings := ← textsField table .usings d.usings }

/-- The dialect that a document describes. -/
def ofToml (t : Text) : Except DialectError Dialect := do
  let d ← (TomlTable.ofText t >>= ofTable).mapError .toml
  d.check
  return d

/-- The text of a file. -/
def readTextFile (tree : FileTree) (p : Path) : Except TextFileError Text := do
  let bytes ← (tree.readFile p).mapError .file
  (Text.ofUtf8? bytes).mapError fun _ => .notUtf8

/-- The dialect in a file. -/
def ofFile (tree : FileTree) (p : Path) : Except DialectError Dialect := do
  ofToml (← (readTextFile tree p).mapError (.unreadable p))

end Dialect

end StrategyDialect
