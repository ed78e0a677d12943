import StrategyDialect.Engine
import StrategyDialect.Proofs.Dialect.Accepted

/-!
# Engines

What an engine is made of, and what it converts.  A run asks for a name or takes the
configured one, so there is one equation for its conversion (`Engine.conversion_run`),
from which the cases are read off.
-/

namespace StrategyDialect

namespace Engine

variable {d : Dialect} {e e' : Engine}

/-- An engine can be made of a dialect that passes its check, with the rules and the
class name of the dialect. -/
theorem ofDialect_eq_ok_iff :
    ofDialect d = .ok e ↔ d.check = .ok () ∧ e = ⟨d, d.rules, d.className⟩ := by
  rw [ofDialect]
  cases d.check with
  | ok u => simp [bind, Except.bind, pure, Except.pure, eq_comm]
  | error e => simp [bind, Except.bind]

/-- A class name can be installed if it is a name.  Nothing else of the engine changes,
and in particular its dialect keeps the class name it came with. -/
theorem withClassName_eq_ok_iff {name : Text} :
    e.withClassName name = .ok e' ↔
      name.isName = true ∧ e' = { e with className := name } := by
  rw [withClassName]
  split
  next h => simp [h, eq_comm]
  next h => simp [h]

/-- **What a run converts**: everything, or the valid strategies; under the name that is
asked for, or else under the configured one. -/
theorem conversion_run (e : Engine) (source : Text) (policy : ConvertPolicy)
    (requested : Option Text) : (e.run source policy requested).conversion =
      if (e.validate source).isValid = true ∨ policy = .always then
        some (e.convertAs source (requested.getD e.className))
      else none := by
  cases requested <;> rfl

/-- The engine for the PowerLanguage dialect. -/
def powerLanguage : Engine :=
  ⟨.powerLanguage, Dialect.powerLanguage.rules, Dialect.powerLanguage.className⟩

/-- The default dialect passes its check, so there is a default engine. -/
theorem ofDialect_powerLanguage : ofDialect .powerLanguage = .ok powerLanguage :=
  ofDialect_eq_ok_iff.mpr ⟨by decide, rfl⟩

end Engine

end StrategyDialect
