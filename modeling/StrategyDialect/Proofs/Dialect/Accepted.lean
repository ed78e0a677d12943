import StrategyDialect.Dialect.Basic
import StrategyDialect.Proofs.Text.Classes

/-!
# Accepted dialects

`Dialect.check` stops at the first field that holds no name.  It passes exactly the
dialects whose fields are all names (`Dialect.check_eq_ok_iff`), which is the form in
which the proofs use it.
-/

namespace StrategyDialect

namespace Dialect

/-- A dialect with names in all its fields. -/
structure Accepted (d : Dialect) : Prop where
  namespaceName : d.namespaceName.isQualifiedName = true
  baseType : d.baseType.isName = true
  entryMethod : d.entryMethod.isName = true
  inputAttribute : d.inputAttribute.isName = true
  className : d.className.isName = true
  usings : ∀ name ∈ d.usings, name.isQualifiedName = true

/-- Two checks pass one after the other if each of them does. -/
private theorem bind_eq_ok_iff {α β : Type} {x : Except DialectError α}
    {f : α → Except DialectError β} {b : β} :
    (x >>= f) = .ok b ↔ ∃ a, x = .ok a ∧ f a = .ok b := by
  cases x with
  | ok a => simp [bind, Except.bind]
  | error e => simp [bind, Except.bind]

/-- A field passes if it holds a name of its kind.  That it is not empty is checked
first, for the sake of the message, and follows from this. -/
theorem checkField_eq_ok_iff {isValid : Text → Bool} (hempty : isValid [] = false)
    {field : DialectField} {value : Text} {u : Unit} :
    checkField isValid field value = .ok u ↔ isValid value = true := by
  rw [checkField]
  split
  next h => simp [h, hempty]
  next =>
    split
    next h => simp [h]
    next h => simp [h]

/-- **A dialect passes the check if all its fields hold names.** -/
theorem check_eq_ok_iff {d : Dialect} : d.check = .ok () ↔ d.Accepted := by
  have husings : ∀ names : List Text,
      names.forM (checkField Text.isQualifiedName .usings) = .ok () ↔
        ∀ name ∈ names, name.isQualifiedName = true := by
    intro names
    induction names with
    | nil => simp [pure, Except.pure]
    | cons name names ih =>
      have hstep : (name :: names).forM (checkField Text.isQualifiedName .usings) =
          (checkField Text.isQualifiedName .usings name >>= fun _ =>
            names.forM (checkField Text.isQualifiedName .usings)) := rfl
      rw [hstep, bind_eq_ok_iff, List.forall_mem_cons]
      simp only [checkField_eq_ok_iff (show Text.isQualifiedName [] = false from rfl), ih,
        exists_const]
  rw [check]
  simp only [bind_eq_ok_iff, checkField_eq_ok_iff
    (show Text.isQualifiedName [] = false from rfl),
    checkField_eq_ok_iff (show Text.isName [] = false from rfl), husings]
  constructor
  · rintro ⟨_, h₁, _, h₂, _, h₃, _, h₄, _, h₅, h₆⟩
    exact ⟨h₁, h₂, h₃, h₄, h₅, h₆⟩
  · rintro ⟨h₁, h₂, h₃, h₄, h₅, h₆⟩
    exact ⟨(), h₁, (), h₂, (), h₃, (), h₄, (), h₅, h₆⟩

end Dialect

end StrategyDialect
