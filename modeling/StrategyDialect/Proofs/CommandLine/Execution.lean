import StrategyDialect.CommandLine.Execution
import StrategyDialect.Proofs.Engine

/-!
# What commands do

A command that converts one strategy loads its dialect, reads the strategy, and hands
the result to a file.  Here each of its outcomes has a lemma, in terms of what the
engine finds out about the text of the strategy, so that nobody else has to look into
the command.

## Main definitions

* `Command.conversionOf`: the command that converts one file into another

## Main statements

* `Command.execute_conversionOf_notUtf8`, `Command.execute_conversionOf_none`,
  `Command.execute_conversionOf_some`: the three outcomes of a conversion
-/

namespace StrategyDialect

namespace Command

/-- The command that converts one file into another, under the class name that the file
suggests. -/
def conversionOf (policy : ConvertPolicy) (dialect : Option Path) (strategy out : Path) :
    Command :=
  .convert
    { strategy := strategy
      out := some out
      dialect := dialect
      className := none
      force := policy = .always
      json := false }

/-- The flag that asks for the policy `always` is given if this is the policy. -/
theorem policy_decide (p : ConvertPolicy) : policy (decide (p = .always)) = p := by
  cases p <;> rfl

variable {tree : FileTree} {dialect : Option Path} {d : Dialect} {engine : Engine}
  {strategy : Path} {bytes : Bytes} {source : Text}

/-- The engine for a dialect that can be loaded is the engine for it. -/
theorem loadEngine_of_loadDialect (hdialect : loadDialect tree dialect = .ok d)
    (hengine : Engine.ofDialect d = .ok engine) :
    loadEngine tree dialect = .ok engine := by
  rw [loadEngine, hdialect]
  dsimp only [bind, Except.bind]
  rw [hengine]
  rfl

/-- A file that can be read is read as UTF-8. -/
theorem readStrategy_of_readFile (hread : tree.readFile strategy = .ok bytes) :
    readStrategy tree strategy =
      (Text.ofUtf8? bytes).mapError fun offset =>
        .strategyFile strategy (.notUtf8 offset) := by
  rw [readStrategy, hread]
  rfl

variable (hdialect : loadDialect tree dialect = .ok d)
  (hengine : Engine.ofDialect d = .ok engine) (hread : tree.readFile strategy = .ok bytes)
include hdialect hengine hread

/-- A strategy that is no UTF-8 text cannot be read. -/
theorem execute_conversionOf_notUtf8 {offset : Nat}
    (hbytes : Text.ofUtf8? bytes = .error offset) (policy : ConvertPolicy)
    (now : Timestamp) (out : Path) :
    (execute now tree (conversionOf policy dialect strategy out)).failure =
      some (.strategyFile strategy (.notUtf8 offset)) := by
  have hstrategy : readStrategy tree strategy =
      .error (.strategyFile strategy (.notUtf8 offset)) := by
    rw [readStrategy_of_readFile hread, hbytes]
    rfl
  rw [conversionOf, execute, executeConvert, convertEngine]
  dsimp only
  rw [loadEngine_of_loadDialect hdialect hengine, hstrategy]
  rfl

/-- The conversion of a text depends on what the engine makes of it. -/
private theorem executeConvert_eq (hbytes : Text.ofUtf8? bytes = .ok source)
    (policy : ConvertPolicy) (out : Path) :
    executeConvert ⟨strategy, some out, dialect, none, policy = .always, false⟩ tree =
      match (engine.run source policy (strategy.stem?.bind ClassName.ofText?)).conversion
      with
      | some c =>
        deliver ⟨strategy, some out, dialect, none, policy = .always, false⟩ c tree
      | none =>
        ⟨[], (engine.validate source).errorLines,
          some (.notConverted strategy), tree⟩ := by
  have hstrategy : readStrategy tree strategy = .ok source := by
    rw [readStrategy_of_readFile hread, hbytes]
    rfl
  rw [executeConvert, convertEngine]
  dsimp only
  rw [loadEngine_of_loadDialect hdialect hengine, hstrategy]
  show (match (engine.run source (Command.policy (decide (policy = .always)))
    _).conversion with
    | some c => _
    | none => _) = _
  rw [policy_decide]
  rfl

/-- **A strategy that is not converted** is refused, and nothing is written. -/
theorem execute_conversionOf_none (hbytes : Text.ofUtf8? bytes = .ok source)
    {policy : ConvertPolicy}
    (hconversion : (engine.run source policy
      (strategy.stem?.bind ClassName.ofText?)).conversion = none)
    (now : Timestamp) (out : Path) :
    (execute now tree (conversionOf policy dialect strategy out)).failure =
      some (.notConverted strategy) := by
  rw [conversionOf, execute, executeConvert_eq hdialect hengine hread hbytes, hconversion]

/-- **A strategy that is converted** is written as it is, or the file system refuses to
write it. -/
theorem execute_conversionOf_some (hbytes : Text.ofUtf8? bytes = .ok source)
    {policy : ConvertPolicy} {c : Conversion}
    (hconversion : (engine.run source policy
      (strategy.stem?.bind ClassName.ofText?)).conversion = some c)
    (now : Timestamp) (out : Path) :
    (∀ made, tree.writeFile out c.generatedCode.toUtf8 = .ok made →
        (execute now tree (conversionOf policy dialect strategy out)).failure = none ∧
        (execute now tree (conversionOf policy dialect strategy out)).tree = made) ∧
      ∀ e, tree.writeFile out c.generatedCode.toUtf8 = .error e →
        (execute now tree (conversionOf policy dialect strategy out)).failure =
          some (.notWritten out e) := by
  have hexecute : execute now tree (conversionOf policy dialect strategy out) =
      deliver ⟨strategy, some out, dialect, none, policy = .always, false⟩ c tree := by
    rw [conversionOf, execute,
      executeConvert_eq hdialect hengine hread hbytes, hconversion]
  have hrendered : renderConversion false c = c.generatedCode := rfl
  rw [hexecute, deliver]
  dsimp only
  rw [hrendered]
  constructor
  · intro made hmade
    rw [hmade]
    exact ⟨rfl, rfl⟩
  · intro e he
    rw [he]
    rfl

end Command

end StrategyDialect
