import StrategyDialect.Pipeline
import StrategyDialect.Proofs.Engine
import StrategyDialect.Proofs.Strategy.Validation

/-!
# Pipelines and engines

An update of a pipeline rebuilds one component and hands on the others, so nothing in
the definitions keeps the components together.  They stay together because all of them
are functions of three fields: the pipelines that can be obtained are the images of
engines (`Engine.pipeline`), and each update of the pipeline is the update of the engine
(`Engine.adjust_pipeline`).  What is said of a pipeline below is read off its engine.

## Main definitions

* `Engine.pipeline`: the pipeline whose components are all made for the dialect of an
  engine
* `Pipeline.Obtained`: the pipelines for a dialect with some rules and some class name

## Main statements

* `Pipeline.Obtained.eq_pipeline`: what can be obtained is the image of an engine
* `Pipeline.run_coherent`: the parts of a report agree with each other and with the
  rules
-/

namespace StrategyDialect

/-! ### The pipeline of an engine -/

namespace Engine

/-- The pipeline whose components are all made for the dialect of an engine. -/
def pipeline (e : Engine) : Pipeline where
  dialect := e.dialect
  rules := e.rules
  converter :=
    ⟨e.dialect, e.className, e.dialect.namespaceRule, e.dialect.derivedClassPattern,
      .ofDialect e.dialect⟩
  extractor := .ofDialect e.dialect

variable (e : Engine)

/-- The converter for a dialect is the one of its pipeline. -/
theorem converter_ofDialect (d : Dialect) :
    Converter.ofDialect d = (ofDialect d).map fun e => e.pipeline.converter := by
  rw [Converter.ofDialect, ofDialect]
  cases d.check <;> rfl

/-- The pipeline for a dialect is the one of its engine, and is refused where the engine
is. -/
theorem pipeline_ofDialect (d : Dialect) :
    Pipeline.ofDialect d = (ofDialect d).map pipeline := by
  rw [Pipeline.ofDialect, converter_ofDialect, ofDialect]
  cases d.check <;> rfl

/-- New rules are the same for both. -/
theorem pipeline_withRules (rules : List Rule) :
    e.pipeline.withRules rules = (e.withRules rules).pipeline :=
  rfl

/-- So is a new class name, which is refused by both if it is no name. -/
theorem pipeline_withClassName (name : Text) :
    e.pipeline.withClassName name = (e.withClassName name).map pipeline := by
  rw [Pipeline.withClassName, Converter.withClassName, withClassName]
  split <;> rfl

/-- **A change to the pipeline of an engine is the change to the engine**, and fails for
the same reason. -/
theorem adjust_pipeline (a : Adjustment) :
    e.pipeline.adjust a = (e.adjust a).map pipeline := by
  cases a with
  | dialect d => exact pipeline_ofDialect d
  | rules rules => rfl
  | className name => exact pipeline_withClassName e name

/-- **What the pipeline of an engine finds out** is what the engine finds out: its
copies of the dialect are one dialect. -/
theorem findings_pipeline (source : Text) :
    e.pipeline.validate source = e.validate source ∧
      e.pipeline.parameters source = e.parameters source ∧
      e.pipeline.converter.shape source = e.shape source ∧
      e.pipeline.convert source = e.convert source ∧
      (∀ requested, e.pipeline.converter.convertAs source requested =
        e.convertAs source requested) ∧
      ∀ policy requested, e.pipeline.run source policy requested =
        e.run source policy requested :=
  ⟨rfl, rfl, rfl, rfl, fun _ => rfl, fun _ _ => rfl⟩

end Engine

/-! ### The pipelines that can be obtained -/

namespace Pipeline

/-- The pipelines that come from the pipeline for a dialect by updates that succeed,
with the rules and the class name that the updates leave. -/
inductive Obtained (d : Dialect) : List Rule → Text → Pipeline → Prop
  | ofDialect {p : Pipeline} : ofDialect d = .ok p → Obtained d d.rules d.className p
  | withRules {rules : List Rule} {className : Text} {p : Pipeline}
      (installed : List Rule) :
    Obtained d rules className p → Obtained d installed className (p.withRules installed)
  | withClassName {rules : List Rule} {className name : Text} {p named : Pipeline} :
    Obtained d rules className p → p.withClassName name = .ok named →
    Obtained d rules name named

variable {d : Dialect} {rules : List Rule} {className : Text} {p : Pipeline}

/-- What is the image of something that was found comes from something that was
found. -/
private theorem exists_of_map_eq_ok {α β ε : Type} {x : Except ε α} {f : α → β} {b : β}
    (h : x.map f = .ok b) : ∃ a, x = .ok a ∧ f a = b := by
  cases x with
  | ok a => exact ⟨a, rfl, by simpa [Except.map] using h⟩
  | error e => cases h

/-- **Whatever the updates and their order**, the pipeline is that of the engine with
the dialect, the rules and the class name. -/
theorem Obtained.eq_pipeline (hp : Obtained d rules className p) :
    p = Engine.pipeline ⟨d, rules, className⟩ := by
  induction hp with
  | ofDialect h =>
    rw [Engine.pipeline_ofDialect] at h
    obtain ⟨e, he, rfl⟩ := exists_of_map_eq_ok h
    rw [(Engine.ofDialect_eq_ok_iff.mp he).2]
  | withRules installed _ ih =>
    rw [ih]
    exact Engine.pipeline_withRules _ installed
  | withClassName _ h ih =>
    rw [ih, Engine.pipeline_withClassName] at h
    obtain ⟨e, he, rfl⟩ := exists_of_map_eq_ok h
    rw [(Engine.withClassName_eq_ok_iff.mp he).2]

/-- What the extractor of the converter reads is what the extractor of the pipeline
reads. -/
theorem Obtained.parameters_convertAs (hp : Obtained d rules className p)
    (source requested : Text) :
    (p.converter.convertAs source requested).parameters = p.parameters source := by
  rw [hp.eq_pipeline]
  rfl

/-- A pipeline that has been obtained has the rules it is said to have. -/
theorem Obtained.rules_eq (hp : Obtained d rules className p) : p.rules = rules := by
  rw [hp.eq_pipeline]
  rfl

/-- The conversion of a run, under the name that is asked for, if there is one. -/
theorem conversion_run (p : Pipeline) (source : Text) (policy : ConvertPolicy)
    (requested : Option Text) : (p.run source policy requested).conversion =
      if (p.validate source).isValid = true ∨ policy = .always then
        some (requested.elim (p.convert source) (p.converter.convertAs source))
      else none := by
  cases requested <;> rfl

/-- **The parts of a report agree.**  The errors are the messages of the rules that the
strategy fails, and the strategy is converted if there are none or if the policy says
so; the conversion is the one that can be had without the report, with the parameters of
the report.  What the policy and the name do not concern does not depend on them. -/
theorem run_coherent (hp : Obtained d rules className p) (source : Text)
    (policy : ConvertPolicy) (requested : Option Text) :
    (p.run source policy requested).validation.errors =
        (if source.isAllBlank then [Validation.blankMessage]
         else (rules.filter fun r => !r.isSatisfied source).map Rule.message) ∧
      ((p.run source policy requested).conversion.isSome = true ↔
        policy = .always ∨ source.isAllBlank = false ∧ ∀ r ∈ rules,
          r.isSatisfied source = true) ∧
      (∀ c ∈ (p.run source policy requested).conversion,
        c = requested.elim (p.convert source) (p.converter.convertAs source) ∧
          c.parameters = (p.run source policy requested).parameters) ∧
      (∀ (policy' : ConvertPolicy) (requested' : Option Text),
        (p.run source policy' requested').validation =
          (p.run source policy requested).validation ∧
          (p.run source policy' requested').parameters =
            (p.run source policy requested).parameters) ∧
      ∀ c ∈ (p.run source .requireValid requested).conversion,
        (p.run source .always requested).conversion = some c := by
  -- The rules of the pipeline are those that it was obtained with.
  have hvalidation : (p.run source policy requested).validation =
      Validation.ofRules rules source := by
    rw [← hp.rules_eq]
    rfl
  refine ⟨?errors, ?converted, ?conversion, fun _ _ => ⟨rfl, rfl⟩, ?always⟩
  case errors => rw [hvalidation, Validation.errors_ofRules]
  case converted =>
    have hvalid : (p.validate source).isValid = true ↔
        source.isAllBlank = false ∧ ∀ r ∈ rules, r.isSatisfied source = true := by
      rw [validate, hp.rules_eq, Validation.isValid_ofRules]
    rw [conversion_run, ← hvalid, Option.isSome_ite, or_comm]
  case conversion =>
    intro c hc
    rw [conversion_run, Option.mem_def, Option.ite_none_right_eq_some] at hc
    obtain ⟨_, hc⟩ := hc
    obtain rfl : _ = c := Option.some.inj hc
    refine ⟨rfl, ?_⟩
    show _ = p.parameters source
    cases requested with
    | none => exact hp.parameters_convertAs source p.converter.className
    | some name => exact hp.parameters_convertAs source name
  case always =>
    intro c hc
    rw [conversion_run, Option.mem_def, Option.ite_none_right_eq_some] at hc
    rw [conversion_run, if_pos (Or.inr rfl), hc.2]

/-- A pipeline with a rule that no dialect has, and with a class name of its own: a
strategy that breaks the rule is converted only if it has to be. -/
theorem run_coherent_ownRule :
    let noSleep :=
      Rule.lacking "no_sleep".toList "Strategy must not sleep".toList "Sleep(".toList
    let noLoop :=
      Rule.lacking "no_loop".toList "Strategy must not loop".toList "while".toList
    let source : Text :=
      "[Input] public int Length { get; set; } = 5;\nvoid CalcBar() { Sleep(1); }".toList
    ∃ p, Obtained .powerLanguage [noLoop, noSleep] "Night".toList p ∧
      (p.run source .requireValid none).validation.errors =
        ["Strategy must not sleep".toList] ∧
      (p.run source .requireValid none).conversion.isSome = false ∧
      ∃ c, (p.run source .always (some "Day".toList)).conversion = some c ∧
        c = p.converter.convertAs source "Day".toList ∧
        c.parameters = (p.run source .requireValid none).parameters := by
  intro noSleep noLoop source
  have hnew : ofDialect .powerLanguage = .ok Engine.powerLanguage.pipeline := by
    rw [Engine.pipeline_ofDialect, Engine.ofDialect_powerLanguage]
    rfl
  have hnamed : Obtained .powerLanguage Dialect.powerLanguage.rules "Night".toList
      (Engine.pipeline ⟨.powerLanguage, Dialect.powerLanguage.rules, "Night".toList⟩) :=
    .withClassName (.ofDialect hnew) rfl
  have hp : Obtained .powerLanguage [noLoop, noSleep] "Night".toList
      (Engine.pipeline ⟨.powerLanguage, [noLoop, noSleep], "Night".toList⟩) :=
    hnamed.withRules [noLoop, noSleep]
  have hloop : noLoop.isSatisfied source = true := by decide
  have hsleep : noSleep.isSatisfied source = false := by decide
  -- Of the two rules, the first one is kept.
  have hfails : [noLoop, noSleep].filter (fun r => !r.isSatisfied source) =
      [noSleep] := by
    rw [List.filter_cons_of_neg (by simp [hloop]),
      List.filter_cons_of_pos (by simp [hsleep]), List.filter_nil]
  have hvisible : source.isAllBlank = false := by decide
  obtain ⟨herrors, hconverted, -, -, -⟩ := run_coherent hp source .requireValid none
  obtain ⟨-, hforced, hconversion, hsame, -⟩ :=
    run_coherent hp source .always (some "Day".toList)
  obtain ⟨c, hc⟩ := Option.isSome_iff_exists.mp (hforced.mpr (Or.inl rfl))
  refine ⟨_, hp, ?_, ?_, c, hc, (hconversion c hc).1, ?_⟩
  · rw [herrors, hvisible, hfails]
    rfl
  · rw [Bool.eq_false_iff, ne_eq, hconverted]
    simp [hsleep]
  · rw [(hconversion c hc).2, (hsame .requireValid none).2]

end Pipeline

end StrategyDialect
