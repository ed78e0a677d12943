import StrategyDialect.Json.Quoted

/-!
# JSON values

The values that the library writes, and their form on the page: two spaces for each
level, a line for each item or field, and nothing between the brackets of an empty list.

## Main definitions

* `JsonValue`: JSON values without numbers
* `JsonValue.pretty`: the text of a value
-/

namespace StrategyDialect

/-- A JSON value.  The library writes no numbers. -/
inductive JsonValue where
  | null
  | bool (b : Bool)
  | text (t : Text)
  | list (items : List JsonValue)
  | object (fields : List (Text × JsonValue))

namespace JsonValue

/-- The text, or `null` in its absence. -/
def ofText? : Option Text → JsonValue
  | none => null
  | some t => text t

/-- A list of texts. -/
def texts (ts : List Text) : JsonValue :=
  list (ts.map text)

/-- A newline and the spaces of a level. -/
def lineStart (level : Nat) : Text :=
  '\n' :: List.replicate (2 * level) ' '

mutual

/-- A value that starts on a line of the given level. -/
def write (level : Nat) : JsonValue → Text
  | null => "null".toList
  | bool true => "true".toList
  | bool false => "false".toList
  | text t => JsonString.write t
  | list [] => "[]".toList
  | list (item :: items) =>
    ['['] ++ lineStart (level + 1) ++ write (level + 1) item
      ++ writeItems (level + 1) items ++ lineStart level ++ [']']
  | object [] => "\x7b\x7d".toList
  | object ((key, value) :: fields) =>
    ['{'] ++ lineStart (level + 1) ++ JsonString.write key ++ ": ".toList
      ++ write (level + 1) value ++ writeFields (level + 1) fields
      ++ lineStart level ++ ['}']

/-- The items after the first. -/
def writeItems (level : Nat) : List JsonValue → Text
  | [] => []
  | item :: items =>
    [','] ++ lineStart level ++ write level item ++ writeItems level items

/-- The fields after the first. -/
def writeFields (level : Nat) : List (Text × JsonValue) → Text
  | [] => []
  | (key, value) :: fields =>
    [','] ++ lineStart level ++ JsonString.write key ++ ": ".toList ++ write level value
      ++ writeFields level fields

end

/-- The text of a value. -/
def pretty (j : JsonValue) : Text :=
  write 0 j

end JsonValue

end StrategyDialect
