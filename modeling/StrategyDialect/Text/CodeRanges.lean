/-!
# Ranges of code points

A character property is given by the sorted list of the ranges in which it holds.
-/

namespace StrategyDialect

/-- Inclusive ranges of code points, in increasing order and apart from each other. -/
abbrev CodeRanges := List (Nat × Nat)

namespace CodeRanges

/-- Whether a code point lies in one of the ranges.  The ranges are sorted, so the first
one that starts above the code point settles the question. -/
def contains : CodeRanges → Nat → Bool
  | [], _ => false
  | (low, high) :: rest, n =>
    if n < low then false else if n ≤ high then true else contains rest n

end CodeRanges

end StrategyDialect
