import StrategyDialect.Pipeline

/-!
# Sessions

A session is a list of steps on one pipeline, each of which changes the pipeline or asks
it something.  A change that fails is answered with its error, and the session goes on
with the pipeline as it was.

## Main definitions

* `Session.Query`, `Session.Answer`: what can be asked, and what is answered
* `Session.Step`, `Session.Reply`: the steps of a session, and the replies to them
* `Pipeline.step`, `Pipeline.replies`: one step, and a session
-/

namespace StrategyDialect

namespace Session

/-- What can be asked of a pipeline. -/
inductive Query where
  | dialect
  | ruleNames
  | validate (source : Text)
  | parameters (source : Text)
  | shape (source : Text)
  | convert (source : Text)
  | convertAs (source requested : Text)
  | convertBytes (bytes : Bytes)
  | run (source : Text) (policy : ConvertPolicy) (requested : Option Text)

/-- The answer to a query. -/
inductive Answer where
  | dialect (d : Dialect)
  | ruleNames (names : List Text)
  | validation (v : Validation)
  | parameters (parameters : List Parameter)
  | shape (shape : SourceShape) (className : Option Text)
  | conversion (c : Conversion)
  /-- The bytes are no text; the first that is wrong has the offset. -/
  | notUtf8 (offset : Nat)
  | report (r : RunReport)

/-- The answer for bytes that may be no text. -/
def Answer.ofBytes : Except Nat Conversion → Answer
  | .ok c => conversion c
  | .error offset => notUtf8 offset

/-- A step of a session. -/
inductive Step where
  /-- A change.  It fails before it comes to the pipeline if a dialect or a pattern is
  given as a text that cannot be read. -/
  | change (a : Except DialectError Engine.Adjustment)
  | ask (q : Query)

/-- The reply to a step. -/
inductive Reply where
  | done
  | refused (e : DialectError)
  | answer (a : Answer)

end Session

namespace Pipeline

open Session

/-- The answer of a pipeline. -/
def answer (p : Pipeline) : Query → Answer
  | .dialect => .dialect p.dialect
  | .ruleNames => .ruleNames (p.rules.map Rule.name)
  | .validate source => .validation (p.validate source)
  | .parameters source => .parameters (p.parameters source)
  | .shape source => .shape (p.converter.shape source).1 (p.converter.shape source).2
  | .convert source => .conversion (p.convert source)
  | .convertAs source requested => .conversion (p.converter.convertAs source requested)
  | .convertBytes bytes => .ofBytes (p.converter.convertBytes bytes)
  | .run source policy requested => .report (p.run source policy requested)

/-- The reply to a step, and the pipeline after it. -/
def step (p : Pipeline) : Step → Reply × Pipeline
  | .change a =>
    match a >>= p.adjust with
    | .ok p => (.done, p)
    | .error e => (.refused e, p)
  | .ask q => (.answer (p.answer q), p)

/-- The replies to the steps of a session. -/
def replies : Pipeline → List Step → List Reply
  | _, [] => []
  | p, s :: steps => (p.step s).1 :: (p.step s).2.replies steps

/-- The pipeline after some steps. -/
def after (p : Pipeline) (steps : List Step) : Pipeline :=
  steps.foldl (fun p s => (p.step s).2) p

end Pipeline

end StrategyDialect
