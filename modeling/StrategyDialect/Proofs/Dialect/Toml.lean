import Mathlib
import StrategyDialect.Dialect.Toml
import StrategyDialect.Proofs.Toml.Document

/-!
# Dialects read back

The document for a dialect has a line for each field, and none of the keys twice, so
reading it gives the six fields back, whatever stands in them: `Dialect.ofToml_toToml`.
Only then are the fields checked, so a dialect that is not accepted is refused with what
is wrong with it, and never as a document that cannot be read.
-/

namespace StrategyDialect

namespace Dialect

/-- No key of a field needs quotes, so the document has them bare. -/
theorem isBareKey_key (field : DialectField) : TomlReader.IsBareKey field.key := by
  cases field <;> exact ⟨List.cons_ne_nil _ _, List.all_eq_true.mp rfl⟩

/-- The line of a field that holds a string. -/
def textLine (field : DialectField) (s : Text) : TomlLine where
  key := field.key
  written := TomlString.write s
  item := .text s
  isBareKey := isBareKey_key field
  spells := TomlReader.spells_write s

/-- The line of a field that holds a list of strings. -/
def textsLine (field : DialectField) (items : List Text) : TomlLine where
  key := field.key
  written := TomlWriter.writeList items
  item := .array (items.map .text)
  isBareKey := isBareKey_key field
  spells := TomlReader.spells_writeList items

/-- The lines of the document for a dialect. -/
def lines (d : Dialect) : List TomlLine :=
  [textLine .namespaceName d.namespaceName, textLine .baseType d.baseType,
    textLine .entryMethod d.entryMethod, textLine .inputAttribute d.inputAttribute,
    textLine .className d.className, textsLine .usings d.usings]

/-- The document is made of its lines, one for each field.  In this form the general
read-back lemma for documents applies. -/
theorem toToml_eq (d : Dialect) : d.toToml = d.lines.flatMap TomlLine.text := by
  simp [toToml, lines, TomlLine.text, textLine, textsLine]

/-- No two fields have one key, so no line is refused because its key has been given
before. -/
theorem nodup_keys (d : Dialect) : (d.lines.map TomlLine.key).Nodup := by
  show (List.map DialectField.key
    [.namespaceName, .baseType, .entryMethod, .inputAttribute, .className, .usings]).Nodup
  decide

/-- A list of strings is taken for what its strings say. -/
theorem mapM_itemText (items : List Text) :
    (items.map TomlItem.text).mapM itemText = .ok items := by
  induction items with
  | nil => rfl
  | cons s items ih =>
    rw [List.map_cons, List.mapM_cons, ih]
    rfl

/-- The table of the lines describes the dialect: no field falls back on its default,
because every key is there. -/
theorem ofTable_entries (d : Dialect) : ofTable (d.lines.map TomlLine.entry) = .ok d := by
  have husings : textsField (d.lines.map TomlLine.entry) .usings powerLanguage.usings =
      .ok d.usings :=
    mapM_itemText d.usings
  unfold ofTable
  dsimp only
  rw [husings]
  rfl

/-- **A dialect is read back from its document**, if it is accepted; if not, it is
refused with what is wrong with it.  The names of a refused dialect may hold any
characters, so the document has strings of all four forms. -/
theorem ofToml_toToml (d : Dialect) : ofToml d.toToml = d.check.map fun _ => d := by
  have hread : (TomlTable.ofText d.toToml >>= ofTable) = .ok d := by
    rw [toToml_eq, TomlTable.ofText_flatMap_text (nodup_keys d)]
    exact ofTable_entries d
  show ((TomlTable.ofText d.toToml >>= ofTable).mapError .toml >>= fun d =>
    d.check >>= fun _ => .ok d) = _
  rw [hread]
  show (d.check >>= fun _ => .ok d) = _
  cases d.check with
  | ok _ => rfl
  | error e => rfl

end Dialect

end StrategyDialect
