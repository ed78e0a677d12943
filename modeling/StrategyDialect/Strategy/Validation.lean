import StrategyDialect.Json.Value
import StrategyDialect.Strategy.Rule

/-!
# Validation

A strategy is valid if it breaks no rule.  Of a blank text only that is reported.
-/

namespace StrategyDialect

/-- The verdict on a strategy: the messages of the rules it breaks, in the order of the
rules. -/
structure Validation where
  errors : List Text
deriving DecidableEq

namespace Validation

/-- A strategy without errors is valid. -/
def isValid (v : Validation) : Bool :=
  v.errors.isEmpty

/-- The only error of a text of blanks. -/
def blankMessage : Text :=
  "Strategy code cannot be empty".toList

/-- The verdict on a strategy under some rules. -/
def ofRules (rules : List Rule) (source : Text) : Validation :=
  if source.isAllBlank then ⟨[blankMessage]⟩
  else ⟨rules.filterMap (·.check source)⟩

/-- The verdict as JSON. -/
def toJson (v : Validation) : JsonValue :=
  .object [("isValid".toList, .bool v.isValid), ("errors".toList, .texts v.errors)]

end Validation

end StrategyDialect
