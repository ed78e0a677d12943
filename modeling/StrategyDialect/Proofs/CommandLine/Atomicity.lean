import StrategyDialect.Proofs.CommandLine.Execution
import StrategyDialect.Proofs.Files.Tree
import StrategyDialect.Proofs.Report.Documents
import StrategyDialect.Proofs.Strategy.Parameter

/-!
# Commands on a single strategy

All commands but the conversion of a directory concern one strategy.  Of these only a
conversion can change the files, and it does so in its last step: first the engine is
set up, then the strategy is read, then the engine converts it, and only then is the
result written or printed.  What is to be delivered is therefore known before anything
happens to the files (`Command.Yields`), also if the strategy itself is overwritten, and
each failure comes either before the only write or from it (`Command.Outcome`).

A verdict goes the same way as far as the engine, and a conversion that is not forced
asks for the same verdict; so the two commands succeed on the same strategies.

## Main definitions

* `Command.Yields`: what a conversion has to deliver
* `Command.IsRendering`: the text in which it is delivered, as code or as a page of JSON
* `Command.Outcome`: the ways in which a conversion ends
* `Command.IsAtomic`: what the caller may rely on

## Main statements

* `Command.outcome_executeConvert`: every conversion ends in one of these ways
* `Command.execute_atomic`: all commands on a single strategy change one file or none
* `Command.ofPage?_output_executeValidate`: a verdict that is printed as JSON is read
  back
* `Command.parameters_printed`: what the command for parameters prints is read back
-/

namespace StrategyDialect

namespace CommandResult

variable {α : Type} {tree : FileTree} {found : Except CommandError α}
  {rest : α → CommandResult}

/-- What could be found is handed on. -/
theorem ofExcept_ok (tree : FileTree) (a : α) (rest : α → CommandResult) :
    ofExcept tree (.ok a) rest = rest a :=
  rfl

/-- A failure leaves the files as they are, and so does what comes after, if it always
does. -/
theorem tree_ofExcept (h : ∀ a, (rest a).tree = tree) :
    (ofExcept tree found rest).tree = tree := by
  cases found with
  | error e => rfl
  | ok a => exact h a

/-- A command succeeds if what it needs can be found and the rest of it succeeds. -/
theorem failure_ofExcept_iff :
    (ofExcept tree found rest).failure = none ↔
      ∃ a, found = .ok a ∧ (rest a).failure = none := by
  cases found with
  | error e =>
    refine ⟨nofun, ?_⟩
    rintro ⟨a, ha, -⟩
    cases ha
  | ok a =>
    constructor
    · exact fun h => ⟨a, rfl, h⟩
    · rintro ⟨a', ha, h⟩
      obtain rfl := Except.ok.inj ha
      exact h

end CommandResult

namespace Command

variable {tree : FileTree} {options : ConvertOptions} {strategy : Path}
  {dialect : Option Path} {engine : Engine} {source : Text} {c : Conversion}

/-! ## What is delivered -/

/-- What a conversion has to deliver: the engine for its options can be set up, the
strategy can be read, and the engine converts it. -/
def Yields (tree : FileTree) (options : ConvertOptions) (c : Conversion) : Prop :=
  ∃ engine source, convertEngine options tree = .ok engine ∧
    readStrategy tree options.strategy = .ok source ∧
    (engine.run source (policy options.force) (derivedClassName options)).conversion =
      some c

/-- Where the engine can be set up and the strategy read, what there is to deliver is
what a run converts it to. -/
theorem yields_iff (hengine : convertEngine options tree = .ok engine)
    (hstrategy : readStrategy tree options.strategy = .ok source) :
    Yields tree options c ↔
      (engine.run source (policy options.force) (derivedClassName options)).conversion =
        some c := by
  constructor
  · rintro ⟨engine', source', hengine', hstrategy', hconversion⟩
    obtain rfl := Except.ok.inj (hengine.symm.trans hengine')
    obtain rfl := Except.ok.inj (hstrategy.symm.trans hstrategy')
    exact hconversion
  · intro hconversion
    exact ⟨engine, source, hengine, hstrategy, hconversion⟩

/-- A page of JSON for a conversion.  It is laid out as an object with four fields, and
a reader who expects these fields gets the conversion back from it. -/
structure IsPage (c : Conversion) (page : Text) : Prop where
  layout : page = JsonValue.pretty (.object
    [("generatedCode".toList, .text c.generatedCode),
      ("className".toList, .text c.className), ("shape".toList, .text c.shape.key),
      ("parameters".toList, .list (c.parameters.map Parameter.toJson))])
  content : Conversion.ofPage? page = some c

/-- The text in which a conversion is delivered: the generated code as it is, or a page
of JSON. -/
inductive IsRendering (c : Conversion) : (json : Bool) → Text → Prop
  | code : IsRendering c false c.generatedCode
  | page {page : Text} (h : IsPage c page) : IsRendering c true page

/-- What is delivered is a rendering: the page is laid out as it should be, and it is
read back because every conversion is. -/
theorem isRendering_renderConversion (json : Bool) (c : Conversion) :
    IsRendering c json (renderConversion json c) := by
  cases json with
  | false => exact .code
  | true =>
    have hread : Conversion.ofPage? (c.toJson.pretty ++ []) = some c :=
      c.ofPage?_pretty rfl
    rw [List.append_nil] at hread
    exact .page ⟨rfl, hread⟩

/-- There is one text in which a conversion is delivered. -/
theorem isRendering_iff {json : Bool} {text : Text} :
    IsRendering c json text ↔ text = renderConversion json c := by
  constructor
  · rintro (_ | h)
    · rfl
    · exact h.layout
  · rintro rfl
    exact isRendering_renderConversion json c

/-- The ways in which a conversion ends. -/
inductive Outcome (tree : FileTree) (options : ConvertOptions) : CommandResult → Prop
  /-- There is nothing to deliver, since the engine cannot be set up or the strategy
  cannot be read. -/
  | failed (e : CommandError) (h : ∀ c, ¬Yields tree options c) :
      Outcome tree options (.failed tree e)
  /-- There is nothing to deliver, since the strategy has errors. -/
  | refused (engine : Engine) (source : Text)
      (hengine : convertEngine options tree = .ok engine)
      (hstrategy : readStrategy tree options.strategy = .ok source)
      (h : ∀ c, ¬Yields tree options c) :
      Outcome tree options
        ⟨[], (engine.validate source).errorLines,
          some (.notConverted options.strategy), tree⟩
  /-- The result is printed. -/
  | printed (c : Conversion) (h : Yields tree options c) (hout : options.out = none) :
      Outcome tree options (.printed tree (renderConversion options.json c))
  /-- The result cannot be written. -/
  | notWritten (c : Conversion) (out : Path) (e : FileError) (h : Yields tree options c)
      (hout : options.out = some out)
      (hwrite : tree.writeFile out (renderConversion options.json c).toUtf8 = .error e) :
      Outcome tree options (.failed tree (.notWritten out e))
  /-- The result is written. -/
  | written (c : Conversion) (out : Path) (made : FileTree) (line : Text)
      (h : Yields tree options c) (hout : options.out = some out)
      (hwrite : tree.writeFile out (renderConversion options.json c).toUtf8 = .ok made) :
      Outcome tree options (.printed made line)

/-- Delivering a conversion has one of the outcomes: it is printed, or written, or there
is no place for it. -/
theorem outcome_deliver (h : Yields tree options c) :
    Outcome tree options (deliver options c tree) := by
  rw [deliver]
  split
  next hout => exact .printed c h hout
  next out hout =>
    cases hwrite : tree.writeFile out (renderConversion options.json c).toUtf8 with
    | error e => exact .notWritten c out e h hout hwrite
    | ok made => exact .written c out made _ h hout hwrite

/-- **Every conversion ends in one of these ways**: it fails before there is anything to
deliver, or it delivers. -/
theorem outcome_executeConvert (options : ConvertOptions) (tree : FileTree) :
    Outcome tree options (executeConvert options tree) := by
  -- The engine and the strategy are read first, and nothing is changed by that.
  rw [executeConvert]
  cases hengine : convertEngine options tree with
  | error e =>
    refine .failed e fun c => ?_
    rintro ⟨engine, source, hengine', -⟩
    rw [hengine] at hengine'
    cases hengine'
  | ok engine =>
    rw [CommandResult.ofExcept_ok]
    cases hstrategy : readStrategy tree options.strategy with
    | error e =>
      refine .failed e fun c => ?_
      rintro ⟨engine, source, -, hstrategy', -⟩
      rw [hstrategy] at hstrategy'
      cases hstrategy'
    | ok source =>
      rw [CommandResult.ofExcept_ok]
      dsimp only
      split
      next c hconversion =>
        exact outcome_deliver ((yields_iff hengine hstrategy).mpr hconversion)
      next hnone =>
        refine .refused engine source hengine hstrategy fun c hc => ?_
        rw [yields_iff hengine hstrategy, hnone] at hc
        cases hc

/-! ## What a conversion leaves behind -/

/-- There is one conversion to deliver at most, since the engine and the text are
determined by the files. -/
theorem Yields.unique {c' : Conversion} (h : Yields tree options c)
    (h' : Yields tree options c') : c = c' := by
  obtain ⟨engine, source, hengine, hstrategy, hconversion⟩ := h
  rw [yields_iff hengine hstrategy, hconversion] at h'
  exact Option.some.inj h'

/-- What is said of a conversion on the second channel: nothing, or the errors of the
strategy. -/
def SaysErrors (tree : FileTree) (options : ConvertOptions) (text : Text) : Prop :=
  text = [] ∨ ∃ engine source, convertEngine options tree = .ok engine ∧
    readStrategy tree options.strategy = .ok source ∧
    text = (engine.validate source).errorLines

/-- A conversion that succeeds exactly if there is something to deliver and a place for
it, that changes nothing and shows nothing of a result if it fails, and that otherwise
prints the result or has one file hold it. -/
structure IsAtomic (tree : FileTree) (options : ConvertOptions) (r : CommandResult) :
    Prop where
  failure_eq_none_iff : r.failure = none ↔
    ∃ c text, Yields tree options c ∧ IsRendering c options.json text ∧
      ∀ out, options.out = some out → ∃ made, tree.writeFile out text.toUtf8 = .ok made
  of_failure : r.failure ≠ none →
      r.tree = tree ∧ r.output = [] ∧ SaysErrors tree options r.errorOutput
  printed : r.failure = none → options.out = none →
    ∃ c text, Yields tree options c ∧ IsRendering c options.json text ∧ r.tree = tree ∧
      r.output = text ++ ['\n']
  written : r.failure = none → ∀ out, options.out = some out →
    ∃ c text loc, Yields tree options c ∧ IsRendering c options.json text ∧
      tree.Overwrites out text.toUtf8 r.tree loc

/-- **Each of the outcomes is atomic.** The cases are those of `Outcome`, and what
differs between them is only where the conversion has gone. -/
theorem Outcome.isAtomic {r : CommandResult} (h : Outcome tree options r) :
    IsAtomic tree options r := by
  cases h with
  | failed e hnone =>
    refine ⟨⟨nofun, ?_⟩, fun _ => ⟨rfl, rfl, .inl rfl⟩, nofun, nofun⟩
    rintro ⟨c, text, hc, -⟩
    exact absurd hc (hnone c)
  | refused engine source hengine hstrategy hnone =>
    refine ⟨⟨nofun, ?_⟩, fun _ =>
      ⟨rfl, rfl, .inr ⟨engine, source, hengine, hstrategy, rfl⟩⟩, nofun, nofun⟩
    rintro ⟨c, text, hc, -⟩
    exact absurd hc (hnone c)
  | printed c hc hout =>
    have htext := isRendering_renderConversion options.json c
    -- There is no file to be written, so whatever is said of one holds.
    have hnone : ∀ out, options.out ≠ some out := fun out h => by
      rw [hout] at h
      cases h
    exact ⟨⟨fun _ => ⟨c, _, hc, htext, fun out h => absurd h (hnone out)⟩, fun _ => rfl⟩,
      fun h => absurd rfl h, fun _ _ => ⟨c, _, hc, htext, rfl, rfl⟩,
      fun _ out h => absurd h (hnone out)⟩
  | notWritten c out e hc hout hwrite =>
    refine ⟨⟨nofun, ?_⟩, fun _ => ⟨rfl, rfl, .inl rfl⟩, nofun, nofun⟩
    rintro ⟨c', text, hc', htext, hmade⟩
    obtain ⟨made, hmade⟩ := hmade out hout
    rw [isRendering_iff.mp htext, hc'.unique hc, hwrite] at hmade
    cases hmade
  | written c out made line hc hout hwrite =>
    have htext := isRendering_renderConversion options.json c
    refine ⟨⟨fun _ => ⟨c, _, hc, htext, fun out' h => ?_⟩, fun _ => rfl⟩,
      fun h => absurd rfl h, fun _ h => ?_,
      fun _ out' h => ?_⟩
    · obtain rfl := Option.some.inj (hout.symm.trans h)
      exact ⟨made, hwrite⟩
    · rw [hout] at h
      cases h
    · obtain rfl := Option.some.inj (hout.symm.trans h)
      obtain ⟨loc, hloc⟩ := FileTree.overwrites_of_writeFile hwrite
      exact ⟨c, _, loc, hc, htext, hloc⟩

/-! ## Verdicts -/

/-- Validation succeeds if there are an engine and a text, and the text is valid.
Whether the verdict is printed as JSON has no part in it. -/
theorem failure_executeValidate_iff {json : Bool} :
    (executeValidate strategy dialect json tree).failure = none ↔ ∃ engine source,
      loadEngine tree dialect = .ok engine ∧ readStrategy tree strategy = .ok source ∧
        (engine.validate source).isValid = true := by
  have hverdict : ∀ {v : Validation} {e : CommandError},
      (if v.isValid then none else some e) = none ↔
      v.isValid = true := by simp
  rw [executeValidate, CommandResult.failure_ofExcept_iff]
  simp only [CommandResult.failure_ofExcept_iff, hverdict]
  exact exists_congr fun engine => exists_and_left.symm

/-- A conversion that is neither forced nor under a name of its own converts the valid
strategies. -/
theorem exists_yields_iff {out : Option Path} {json : Bool} :
    (∃ c, Yields tree ⟨strategy, out, dialect, none, false, json⟩ c) ↔ ∃ engine source,
      loadEngine tree dialect = .ok engine ∧ readStrategy tree strategy = .ok source ∧
        (engine.validate source).isValid = true := by
  have hengine : convertEngine ⟨strategy, out, dialect, none, false, json⟩ tree =
      loadEngine tree dialect := by
    rw [convertEngine]
    cases loadEngine tree dialect <;> rfl
  -- Without force, a run converts just the valid strategies.
  have hvalid : ∀ (engine : Engine) (source : Text) (requested : Option Text),
      (∃ c, (engine.run source (policy false) requested).conversion = some c) ↔
        (engine.validate source).isValid = true := by
    intro engine source requested
    rw [Engine.conversion_run]
    simp [policy]
  constructor
  · rintro ⟨c, engine, source, hload, hstrategy, hconversion⟩
    rw [hengine] at hload
    exact ⟨engine, source, hload, hstrategy, (hvalid engine source _).mp ⟨c, hconversion⟩⟩
  · rintro ⟨engine, source, hload, hstrategy, hv⟩
    obtain ⟨c, hconversion⟩ := (hvalid engine source _).mpr hv
    exact ⟨c, engine, source, hengine.trans hload, hstrategy, hconversion⟩

/-- **A verdict that is printed as JSON is read back** from what is printed, be it that
the strategy is valid or not; the newline behind the page is no part of it. -/
theorem ofPage?_output_executeValidate (hengine : loadEngine tree dialect = .ok engine)
    (hstrategy : readStrategy tree strategy = .ok source) :
    Validation.ofPage? (executeValidate strategy dialect true tree).output =
      some (engine.validate source) := by
  rw [executeValidate, hengine, hstrategy]
  exact Validation.ofPage?_pretty _ rfl

/-! ## All commands -/

/-- **Commands on a single strategy change one file or none.**  A verdict, a list of
parameters and the default dialect leave the files as they are.  A conversion changes
them only if it succeeds and is asked to write: then one file holds what was to be
delivered, which was known before, also if this file is the strategy itself.  A verdict
succeeds exactly if the conversion does that is neither forced nor asked for a name or a
file. -/
theorem execute_atomic (now : Timestamp) (tree : FileTree) :
    (∀ strategy dialect json,
      (execute now tree (.validate strategy dialect json)).tree = tree) ∧
    (∀ strategy dialect, (execute now tree (.parameters strategy dialect)).tree = tree) ∧
    (execute now tree .showDialect).tree = tree ∧
    (∀ options, IsAtomic tree options (execute now tree (.convert options))) ∧
    ∀ strategy dialect json json',
      (execute now tree (.validate strategy dialect json)).failure = none ↔
      (execute now tree
        (.convert ⟨strategy, none, dialect, none, false, json'⟩)).failure = none := by
  have hconvert : ∀ options,
      IsAtomic tree options (execute now tree (.convert options)) := fun options =>
    (outcome_executeConvert options tree).isAtomic
  refine ⟨fun strategy dialect json => ?_, fun strategy dialect => ?_, rfl, hconvert,
    fun strategy dialect json json' => ?_⟩
  · exact CommandResult.tree_ofExcept fun engine =>
      CommandResult.tree_ofExcept fun source => rfl
  · exact CommandResult.tree_ofExcept fun engine =>
      CommandResult.tree_ofExcept fun source => rfl
  · rw [execute, failure_executeValidate_iff, (hconvert _).failure_eq_none_iff,
      ← exists_yields_iff]
    refine exists_congr fun c => ⟨fun hc => ?_, ?_⟩
    · -- No file is asked for, so nothing has to be written.
      refine ⟨_, hc, isRendering_renderConversion json' c, fun out hout => ?_⟩
      cases hout
    · rintro ⟨text, hc, -⟩
      exact hc

/-- A strategy with errors, and with one parameter. -/
def oneMember : FileTree :=
  ⟨[(["s.cs".toList], .file (Text.toUtf8 "[Input] int N;".toList))], []⟩

/-- The conversion of a strategy into itself, errors or not. -/
def intoItself : ConvertOptions :=
  ⟨⟨"s.cs".toList⟩, some ⟨"s.cs".toList⟩, none, none, true, false⟩

/-- The conversion of a strategy into a page of JSON, errors or not. -/
def intoPage : ConvertOptions :=
  ⟨⟨"s.cs".toList⟩, some ⟨"s.json".toList⟩, none, none, true, true⟩

/-- A strategy that is overwritten by the code that it was converted into, and the same
strategy as a page of JSON in a file of its own, from which the conversion is read
back. -/
theorem execute_atomic_bothForms :
    ((execute ⟨0, 0⟩ oneMember (.convert intoItself)).failure = none ∧
      ∃ c loc, Yields oneMember intoItself c ∧
        oneMember.Overwrites ⟨"s.cs".toList⟩ c.generatedCode.toUtf8
          (execute ⟨0, 0⟩ oneMember (.convert intoItself)).tree loc) ∧
    (execute ⟨0, 0⟩ oneMember (.convert intoPage)).failure = none ∧
      ∃ c page loc, Yields oneMember intoPage c ∧ Conversion.ofPage? page = some c ∧
        oneMember.Overwrites ⟨"s.json".toList⟩ page.toUtf8
          (execute ⟨0, 0⟩ oneMember (.convert intoPage)).tree loc := by
  have hconvert := (execute_atomic ⟨0, 0⟩ oneMember).2.2.2.1
  have hitself : (execute ⟨0, 0⟩ oneMember (.convert intoItself)).failure = none :=
    Option.isNone_iff_eq_none.mp (by decide +kernel)
  have hpage : (execute ⟨0, 0⟩ oneMember (.convert intoPage)).failure = none :=
    Option.isNone_iff_eq_none.mp (by decide +kernel)
  refine ⟨⟨hitself, ?_⟩, hpage, ?_⟩
  · obtain ⟨c, text, loc, hc, ⟨⟩, hloc⟩ := (hconvert intoItself).written hitself _ rfl
    exact ⟨c, loc, hc, hloc⟩
  · obtain ⟨c, text, loc, hc, ⟨⟩ | h, hloc⟩ := (hconvert intoPage).written hpage _ rfl
    exact ⟨c, text, loc, hc, h.content, hloc⟩

/-! ## What is printed of parameters -/

/-- **What the command for parameters prints is read back** as the list that it was
printed for, whatever texts the parameters are made of: an absent default stays absent,
and an empty one empty.  What it prints of a strategy is the list of its parameters. -/
theorem parameters_printed (tree : FileTree) :
    (∀ ps : List Parameter,
      Parameter.listOfJson (CommandResult.printed tree
        (Parameter.listToJson ps).pretty).output = .ok ps) ∧
    ∀ now strategy dialect engine source, loadEngine tree dialect = .ok engine →
      readStrategy tree strategy = .ok source →
        execute now tree (.parameters strategy dialect) =
          .printed tree (Parameter.listToJson (engine.parameters source)).pretty ∧
        Parameter.listOfJson (execute now tree (.parameters strategy dialect)).output =
          .ok (engine.parameters source) := by
  have hread : ∀ ps : List Parameter,
      Parameter.listOfJson (CommandResult.printed tree
        (Parameter.listToJson ps).pretty).output = .ok ps :=
    fun ps => Parameter.listOfJson_pretty ps rfl
  refine ⟨hread, fun now strategy dialect engine source hengine hstrategy => ?_⟩
  have hexecute : execute now tree (.parameters strategy dialect) =
      .printed tree (Parameter.listToJson (engine.parameters source)).pretty := by
    rw [execute, executeParameters, hengine, hstrategy]
    rfl
  rw [hexecute]
  exact ⟨rfl, hread _⟩

/-- A strategy with one parameter whose default needs escapes, and one without a
default. -/
def quotedDefault : Text :=
  "[Input] public string Label = \"\\a\tb é\";\n[Input] public int Length;".toList

/-- What is printed of it, read back.  The first default has quotes and a backslash,
and the second parameter has no default. -/
theorem parameters_printed_quotedDefault :
    let tree : FileTree := ⟨[(["s.cs".toList], .file quotedDefault.toUtf8)], []⟩
    loadEngine tree none = .ok .powerLanguage ∧
      readStrategy tree ⟨"s.cs".toList⟩ = .ok quotedDefault ∧
      Parameter.listOfJson
        (execute ⟨0, 0⟩ tree (.parameters ⟨"s.cs".toList⟩ none)).output =
        .ok [⟨"Label".toList, "string".toList, some "\"\\a\tb é\"".toList⟩,
          ⟨"Length".toList, "int".toList, none⟩] := by
  intro tree
  have hengine : loadEngine tree none = .ok .powerLanguage :=
    loadEngine_of_loadDialect rfl Engine.ofDialect_powerLanguage
  have hstrategy : readStrategy tree ⟨"s.cs".toList⟩ = .ok quotedDefault := by cbv
  have hparameters : Engine.powerLanguage.parameters quotedDefault =
      [⟨"Label".toList, "string".toList, some "\"\\a\tb é\"".toList⟩,
        ⟨"Length".toList, "int".toList, none⟩] := by decide +kernel
  refine ⟨hengine, hstrategy, ?_⟩
  rw [((parameters_printed tree).2 _ _ _ _ _ hengine hstrategy).2, hparameters]

end Command

end StrategyDialect
