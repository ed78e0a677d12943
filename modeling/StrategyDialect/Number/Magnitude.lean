/-!
# Decimal numbers too large for a binary format

A decimal number `significand · 10 ^ exponent` overflows the 64-bit binary format when
it is rounded to infinity: when it is at least halfway from the largest finite value to
the next power of two.
-/

namespace StrategyDialect

/-- The least number that rounds to infinity: `2 ^ 1024 - 2 ^ 970`. -/
def binary64Overflow : Nat :=
  Nat.pow 2 1024 - Nat.pow 2 970

/-- Whether `significand · 10 ^ exponent` rounds to infinity.  Numbers of more than 310
or fewer than 300 digits before the point are settled by their length. -/
def overflowsBinary64 (significand : Nat) (exponent : Int) : Bool :=
  let digits : Int := (Nat.toDigits 10 significand).length + exponent
  if significand = 0 then false
  else if 310 < digits then true
  else if digits < 300 then false
  else
    binary64Overflow * Nat.pow 10 (-exponent).toNat ≤
      significand * Nat.pow 10 exponent.toNat

end StrategyDialect
