import StrategyDialect.Engine

/-!
# Pipelines

A pipeline is put together from three components, which are made for one dialect and do
not share anything: the rules, a converter, and an extractor of parameters.  The
converter keeps a copy of the dialect, the searches that it needs and an extractor of
its own, and the pipeline keeps the dialect once more.  An update replaces one component
and leaves the others as they are.

An `Engine` is the same without the copies.

## Main definitions

* `Extractor`: reads the parameters of strategies
* `Converter`: completes strategies
* `Pipeline`: rules, converter and extractor for one dialect
* `Pipeline.adjust`: changes to a pipeline
-/

namespace StrategyDialect

/-- What reads the parameters of strategies: the patterns of a declaration and of the
head of the entry method. -/
structure Extractor where
  declaration : Pattern DeclarationPart
  entryHead : Pattern Empty

namespace Extractor

/-- The extractor for a dialect. -/
def ofDialect (d : Dialect) : Extractor :=
  ⟨d.declarationPattern, d.entryHeadPattern⟩

/-- The bodies of the entry method.  A body that is not closed reaches to the end of the
source. -/
def entryBodies (x : Extractor) (source : Text) : List Span :=
  (x.entryHead.matchesIn source).map fun m =>
    let start := m.stop.offset - 1
    match Block.length? (source.drop start) with
    | some n => ⟨start, start + n⟩
    | none => ⟨start, source.length⟩

/-- The parameters that a strategy declares, in the order of their declarations. -/
def parameters (x : Extractor) (source : Text) : List Parameter :=
  (x.declaration.matchesIn source).filterMap
    (Dialect.parameterOf source (x.entryBodies source))

end Extractor

/-- What completes strategies. -/
structure Converter where
  dialect : Dialect
  /-- The name of a class that has to be generated. -/
  className : Text
  namespaceRule : Rule
  derivedClass : Pattern Unit
  extractor : Extractor

namespace Converter

/-- The converter for a dialect. -/
def ofDialect (d : Dialect) : Except DialectError Converter := do
  d.check
  return ⟨d, d.className, d.namespaceRule, d.derivedClassPattern, .ofDialect d⟩

/-- The converter with another name for generated classes. -/
def withClassName (c : Converter) (name : Text) : Except DialectError Converter :=
  if name.isName then .ok { c with className := name }
  else .error (.invalidName .className name)

/-- The shape of a strategy, with the name of its class. -/
def shape (c : Converter) (source : Text) : SourceShape × Option Text :=
  match (c.derivedClass.find source).bind (·.groupText? ()) with
  | some name =>
    if c.namespaceRule.isSatisfied source then (.completeUnit, some name)
    else (.classDeclaration, some name)
  | none => (.members, none)

/-- The completed strategy, where a generated class is given the name that is asked
for. -/
def convertAs (c : Converter) (source requested : Text) : Conversion :=
  let (shape, existing) := c.shape source
  let className := Dialect.chooseClassName existing requested c.className
  { generatedCode :=
      c.dialect.usingsHeader source ++ c.dialect.frame className source shape
    className := className
    shape := shape
    parameters := c.extractor.parameters source }

/-- The completed strategy. -/
def convert (c : Converter) (source : Text) : Conversion :=
  c.convertAs source c.className

/-- The completed strategy of some bytes, or the offset of the first that is no UTF-8. -/
def convertBytes (c : Converter) (bytes : Bytes) : Except Nat Conversion :=
  (Text.ofUtf8? bytes).map c.convert

end Converter

/-- The components that validate strategies, complete them and read their parameters. -/
structure Pipeline where
  dialect : Dialect
  rules : List Rule
  converter : Converter
  extractor : Extractor

namespace Pipeline

/-- The pipeline for a dialect with its own rules and class name. -/
def ofDialect (d : Dialect) : Except DialectError Pipeline := do
  d.check
  let converter ← Converter.ofDialect d
  return ⟨d, d.rules, converter, .ofDialect d⟩

/-- The pipeline with other rules. -/
def withRules (p : Pipeline) (rules : List Rule) : Pipeline :=
  { p with rules := rules }

/-- The pipeline with another name for generated classes. -/
def withClassName (p : Pipeline) (name : Text) : Except DialectError Pipeline := do
  let converter ← p.converter.withClassName name
  return { p with converter := converter }

/-- The verdict on a strategy. -/
def validate (p : Pipeline) (source : Text) : Validation :=
  .ofRules p.rules source

/-- The parameters of a strategy. -/
def parameters (p : Pipeline) (source : Text) : List Parameter :=
  p.extractor.parameters source

/-- The completed strategy. -/
def convert (p : Pipeline) (source : Text) : Conversion :=
  p.converter.convert source

/-- All that a pipeline finds out about a strategy. -/
def run (p : Pipeline) (source : Text) (policy : ConvertPolicy)
    (requested : Option Text) : RunReport :=
  let validation := p.validate source
  { validation := validation
    parameters := p.parameters source
    conversion :=
      if validation.isValid ∨ policy = .always then
        some (match requested with
          | some name => p.converter.convertAs source name
          | none => p.converter.convert source)
      else none }

/-- The pipeline after a change, if the change is possible. -/
def adjust (p : Pipeline) : Engine.Adjustment → Except DialectError Pipeline
  | .dialect d => ofDialect d
  | .rules rules => .ok (p.withRules rules)
  | .className name => p.withClassName name

end Pipeline

end StrategyDialect
