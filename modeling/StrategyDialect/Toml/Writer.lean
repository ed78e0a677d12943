import StrategyDialect.Toml.Quoted

/-!
# Writing TOML

One line for a key with a string; a list of strings takes one line if it has at most one
item, and a line for each item otherwise.
-/

namespace StrategyDialect

namespace TomlWriter

/-- An item of a list on a line of its own. -/
def itemLine (item : Text) : Text :=
  "    ".toList ++ TomlString.write item ++ ",\n".toList

/-- A list of strings. -/
def writeList : List Text → Text
  | [] => "[]".toList
  | [item] => ['['] ++ TomlString.write item ++ [']']
  | items => "[\n".toList ++ items.flatMap itemLine ++ [']']

/-- The line of a key whose value is written already. -/
def line (key written : Text) : Text :=
  key ++ " = ".toList ++ written ++ ['\n']

end TomlWriter

end StrategyDialect
