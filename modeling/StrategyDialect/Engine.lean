import StrategyDialect.Strategy.ClassName
import StrategyDialect.Strategy.Conversion

/-!
# Engines

An engine validates and converts strategies of one dialect.  Its rules and the name of
generated classes can be replaced; its dialect only together with both.

## Main definitions

* `Engine`, `Engine.ofDialect`: engines, and the one for a dialect
* `Engine.run`: validation, parameters and conversion of a strategy
* `Engine.Adjustment`, `Engine.adjusted`: changes to an engine
-/

namespace StrategyDialect

/-- What validates and converts strategies. -/
structure Engine where
  dialect : Dialect
  rules : List Rule
  /-- The name of a class that has to be generated. -/
  className : Text

/-- Whether strategies with errors are converted. -/
inductive ConvertPolicy where
  /-- Only valid strategies are converted. -/
  | requireValid
  /-- All strategies are converted. -/
  | always
deriving DecidableEq

/-- What is found out about a strategy. -/
structure RunReport where
  validation : Validation
  parameters : List Parameter
  /-- The completed strategy, unless the policy forbids it. -/
  conversion : Option Conversion

namespace Engine

/-- The engine for a dialect with its own rules and class name. -/
def ofDialect (d : Dialect) : Except DialectError Engine := do
  d.check
  return ⟨d, d.rules, d.className⟩

/-- The engine with other rules. -/
def withRules (e : Engine) (rules : List Rule) : Engine :=
  { e with rules := rules }

/-- The engine with another name for generated classes. -/
def withClassName (e : Engine) (name : Text) : Except DialectError Engine :=
  if name.isName then .ok { e with className := name }
  else .error (.invalidName .className name)

/-- The verdict on a strategy. -/
def validate (e : Engine) (source : Text) : Validation :=
  .ofRules e.rules source

/-- The parameters of a strategy. -/
def parameters (e : Engine) (source : Text) : List Parameter :=
  e.dialect.parameters source

/-- The shape of a strategy, with the name of its class. -/
def shape (e : Engine) (source : Text) : SourceShape × Option Text :=
  e.dialect.shape source

/-- The completed strategy, where a generated class is given the name that is asked
for. -/
def convertAs (e : Engine) (source requested : Text) : Conversion :=
  e.dialect.convert e.className requested source

/-- The completed strategy. -/
def convert (e : Engine) (source : Text) : Conversion :=
  e.convertAs source e.className

/-- The completed strategy of some bytes, or the offset of the first that is no UTF-8. -/
def convertBytes (e : Engine) (bytes : Bytes) : Except Nat Conversion :=
  (Text.ofUtf8? bytes).map e.convert

/-- All that an engine finds out about a strategy. -/
def run (e : Engine) (source : Text) (policy : ConvertPolicy) (requested : Option Text) :
    RunReport :=
  let validation := e.validate source
  { validation := validation
    parameters := e.parameters source
    conversion :=
      if validation.isValid ∨ policy = .always then
        some (match requested with
          | some name => e.convertAs source name
          | none => e.convert source)
      else none }

/-! ### Adjustments -/

/-- A change to an engine. -/
inductive Adjustment where
  /-- An engine for another dialect takes its place. -/
  | dialect (d : Dialect)
  /-- The rules are replaced. -/
  | rules (rules : List Rule)
  /-- The name of generated classes is replaced. -/
  | className (name : Text)

/-- The engine after a change, if the change is possible. -/
def adjust (e : Engine) : Adjustment → Except DialectError Engine
  | .dialect d => ofDialect d
  | .rules rules => .ok (e.withRules rules)
  | .className name => e.withClassName name

/-- The engine after a change; a change that is not possible leaves it as it was. -/
def adjusted (e : Engine) (a : Adjustment) : Engine :=
  match e.adjust a with
  | .ok e => e
  | .error _ => e

end Engine

/-- The message for a strategy that is no UTF-8 text. -/
def invalidUtf8Message (offset : Nat) : Text :=
  "Strategy source is not valid UTF-8 (invalid byte at offset ".toList
    ++ Text.ofNat offset ++ ")".toList

end StrategyDialect
