/-!
# Runs of letters that change case alike

Letters of one alphabet mostly stand at a fixed distance from their counterparts, either
side by side or alternating with them.
-/

namespace StrategyDialect

/-- The code points `first`, `first + stride`, …, `last`, which map to `target`, `target
+ stride`, … . -/
structure CaseRun where
  first : Nat
  last : Nat
  stride : Nat
  target : Nat

/-- The counterpart of a code point, if the run holds it. -/
def CaseRun.counterpart? (run : CaseRun) (n : Nat) : Option Nat :=
  if run.first ≤ n ∧ n ≤ run.last ∧ (n - run.first) % run.stride = 0 then
    some (run.target + (n - run.first))
  else none

end StrategyDialect
