import Mathlib.Data.Nat.Notation
import StrategyDialect.Text.Hex

/-!
# Hexadecimal digits read back

A number of four digits is read as it was written, in capitals or small letters,
whatever follows it.
-/

namespace StrategyDialect

namespace Hex

/-- A digit is read as the number that it was written for, in capitals or small letters.
There are thirty-two cases. -/
private theorem value?_digitChar (digitsUpper : Bool) {d : Nat} (h : d < 16) :
    value? (if digitsUpper then (Nat.digitChar d).toUpper
      else Nat.digitChar d) = some d := by
  revert d digitsUpper
  decide

/-- **Four digits are read back**, and what follows them is left.  The bound on the
number is what four digits can hold. -/
theorem read?_write4 (digitsUpper : Bool) {n : Nat} (h : n < 0x10000) (t : Text) :
    read? 4 (write4 digitsUpper n ++ t) = some (n, t) := by
  have hdigit : ∀ m, value? (if digitsUpper then (Nat.digitChar (m % 16)).toUpper
      else Nat.digitChar (m % 16)) = some (m % 16) := by
    intro m
    exact value?_digitChar digitsUpper (Nat.mod_lt m (by omega))
  simp only [write4, List.map_cons, List.map_nil, List.cons_append, List.nil_append,
    read?, readFrom, hdigit, Option.bind_eq_bind, Option.bind_some, Option.some.injEq,
    Prod.mk.injEq, and_true]
  omega

end Hex

end StrategyDialect
