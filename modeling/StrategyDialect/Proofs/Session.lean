import Mathlib.Data.List.DropRight
import StrategyDialect.Proofs.Pipeline
import StrategyDialect.Session

/-!
# What a session leaves behind

The pipeline in use after some steps is described without running them: three fields are
read off the list of steps, each of them what the last of some steps has installed
(`Session.installed`).  One step changes the description as it changes the pipeline
(`Session.after_concat`), so the two agree after every session, and a query is answered
by the pipeline that is built anew from the three fields.

## Main definitions

* `Session.sinceDialect`: the steps after the last that installs a dialect
* `Session.installed`: the dialect, the rules and the class name that some steps leave
* `Session.rebuilt`: the pipeline for these three

## Main statements

* `Session.after_eq_pipeline`: the pipeline in use is that of what is installed
* `Session.answers_rebuilt`: every query of a session is answered by the rebuilt
  pipeline
-/

namespace StrategyDialect

namespace Session

/-! ### What is installed -/

namespace Step

/-- The dialect that a step installs. -/
def dialect? : Step → Option Dialect
  | .change (.ok (.dialect d)) => if d.check.isOk then some d else none
  | _ => none

/-- The rules that a step installs. -/
def rules? : Step → Option (List Rule)
  | .change (.ok (.rules rules)) => some rules
  | _ => none

/-- The class name that a step installs. -/
def className? : Step → Option Text
  | .change (.ok (.className name)) => if name.isName then some name else none
  | _ => none

end Step

variable {α : Type} {d₀ : Dialect} {p₀ : Pipeline}

/-- The last of what some steps install. -/
def last? (f : Step → Option α) (steps : List Step) : Option α :=
  (steps.filterMap f).getLast?

/-- The steps after the last that installs a dialect. -/
def sinceDialect (steps : List Step) : List Step :=
  steps.rtakeWhile (·.dialect?.isNone)

/-- What is installed after some steps of a session that starts with a dialect: a
dialect, and the rules and the class name that are installed after it, or else those of
the dialect. -/
def installed (d₀ : Dialect) (steps : List Step) : Engine :=
  let d := (last? Step.dialect? steps).getD d₀
  ⟨d, (last? Step.rules? (sinceDialect steps)).getD d.rules,
    (last? Step.className? (sinceDialect steps)).getD d.className⟩

/-- The pipeline that is built for a dialect and then given the rules and the class
name. -/
def rebuilt (e : Engine) : Except DialectError Pipeline := do
  let p ← Pipeline.ofDialect e.dialect
  (p.withRules e.rules).withClassName e.className

/-- A further step is the last one of its kind, if it is of the kind at all. -/
theorem last?_concat (f : Step → Option α) (steps : List Step) (s : Step) :
    last? f (steps ++ [s]) = (f s).or (last? f steps) := by
  rw [last?, last?, List.filterMap_append, List.getLast?_append, List.filterMap_cons,
    List.filterMap_nil]
  cases f s <;> rfl

/-- A step that installs no dialect is one more step since the last that did. -/
theorem sinceDialect_concat_of_eq_none {s : Step} (h : s.dialect? = none)
    (steps : List Step) : sinceDialect (steps ++ [s]) = sinceDialect steps ++ [s] :=
  List.rtakeWhile_concat_pos _ _ _ (by rw [h]; rfl)

/-- A step that installs a dialect leaves no steps since. -/
theorem sinceDialect_concat_of_eq_some {s : Step} {d : Dialect} (h : s.dialect? = some d)
    (steps : List Step) : sinceDialect (steps ++ [s]) = [] :=
  List.rtakeWhile_concat_neg _ _ _ (by rw [h]; exact Bool.false_ne_true)

/-! ### One more step -/

/-- At the start the engine is that of the first dialect. -/
theorem installed_nil (d₀ : Dialect) : installed d₀ [] = ⟨d₀, d₀.rules, d₀.className⟩ :=
  rfl

/-- A step that installs a dialect drops what was installed before. -/
theorem installed_concat_of_eq_some {s : Step} {d : Dialect} (h : s.dialect? = some d)
    (d₀ : Dialect) (steps : List Step) :
    installed d₀ (steps ++ [s]) = ⟨d, d.rules, d.className⟩ := by
  rw [installed, last?_concat, h, sinceDialect_concat_of_eq_some h]
  rfl

/-- A step that installs no dialect replaces what it installs, and nothing else. -/
theorem installed_concat_of_eq_none {s : Step} (h : s.dialect? = none) (d₀ : Dialect)
    (steps : List Step) : installed d₀ (steps ++ [s]) =
      { installed d₀ steps with
        rules := s.rules?.getD (installed d₀ steps).rules
        className := s.className?.getD (installed d₀ steps).className } := by
  rw [installed, last?_concat, h, sinceDialect_concat_of_eq_none h, last?_concat,
    last?_concat, installed]
  cases s.rules? <;> cases s.className? <;> rfl

/-- A step that installs nothing leaves everything as it was. -/
theorem installed_concat_of_installs_nothing {s : Step} (hd : s.dialect? = none)
    (hr : s.rules? = none) (hc : s.className? = none) (d₀ : Dialect) (steps : List Step) :
    installed d₀ (steps ++ [s]) = installed d₀ steps := by
  rw [installed_concat_of_eq_none hd, hr, hc]
  rfl

/-- **What a change installs**: what is installed afterwards is the engine after the
change. -/
theorem installed_change (d₀ : Dialect) (steps : List Step) (a : Engine.Adjustment) :
    installed d₀ (steps ++ [Step.change (.ok a)]) = (installed d₀ steps).adjusted a := by
  cases a with
  | dialect d =>
    cases h : d.check with
    | ok u =>
      rw [installed_concat_of_eq_some (d := d) (by rw [Step.dialect?, h]; rfl),
        Engine.adjusted, Engine.adjust, Engine.ofDialect, h]
      rfl
    | error e =>
      rw [installed_concat_of_installs_nothing (by rw [Step.dialect?, h]; rfl) rfl rfl,
        Engine.adjusted, Engine.adjust, Engine.ofDialect, h]
      rfl
  | rules rules =>
    rw [installed_concat_of_eq_none rfl]
    rfl
  | className name =>
    rw [installed_concat_of_eq_none rfl, Engine.adjusted, Engine.adjust,
      Engine.withClassName, Step.className?]
    split <;> rfl

/-- A change to the pipeline of an engine makes it the pipeline of the engine after the
change. -/
theorem step_change_pipeline (e : Engine) (a : Engine.Adjustment) :
    (e.pipeline.step (.change (.ok a))).2 = (e.adjusted a).pipeline := by
  have hbind : (Except.ok a >>= e.pipeline.adjust) = (e.adjust a).map Engine.pipeline :=
    e.adjust_pipeline a
  rw [Pipeline.step, hbind, Engine.adjusted]
  cases e.adjust a <;> rfl

/-- **One step of the pipeline** is one more step in what is installed. -/
theorem step_installed (d₀ : Dialect) (steps : List Step) (s : Step) :
    ((installed d₀ steps).pipeline.step s).2 =
      (installed d₀ (steps ++ [s])).pipeline := by
  match s with
  | .change (.ok a) => rw [step_change_pipeline, installed_change]
  | .change (.error e) =>
    rw [installed_concat_of_installs_nothing rfl rfl rfl]
    rfl
  | .ask q =>
    rw [installed_concat_of_installs_nothing rfl rfl rfl]
    rfl

/-! ### A whole session -/

/-- What comes after one more step. -/
theorem after_concat (p : Pipeline) (steps : List Step) (s : Step) :
    p.after (steps ++ [s]) = ((p.after steps).step s).2 := by
  rw [Pipeline.after, Pipeline.after, List.foldl_append]
  rfl

/-- **The pipeline in use** after some steps is that of what they leave installed. -/
theorem after_eq_pipeline (h₀ : Pipeline.ofDialect d₀ = .ok p₀) (steps : List Step) :
    p₀.after steps = (installed d₀ steps).pipeline := by
  induction steps using List.reverseRecOn with
  | nil =>
    rw [installed_nil]
    exact (Pipeline.Obtained.ofDialect h₀).eq_pipeline
  | append_singleton steps s ih => rw [after_concat, ih, step_installed]

/-- Each step has one reply. -/
theorem length_replies (p : Pipeline) (steps : List Step) :
    (p.replies steps).length = steps.length := by
  induction steps generalizing p with
  | nil => rfl
  | cons s steps ih => rw [Pipeline.replies, List.length_cons, List.length_cons, ih]

/-- A session goes on from the pipeline that its first part has left.  The replies to
the first part are not changed by what comes later. -/
theorem replies_append (p : Pipeline) (before after : List Step) :
    p.replies (before ++ after) = p.replies before ++ (p.after before).replies after := by
  induction before generalizing p with
  | nil => rfl
  | cons s steps ih =>
    rw [List.cons_append, Pipeline.replies, Pipeline.replies, List.cons_append, ih]
    rfl

/-- The reply to a query is the answer of the pipeline in use. -/
theorem getElem?_replies_ask (p : Pipeline) (before after : List Step) (q : Query) :
    (p.replies (before ++ Step.ask q :: after))[before.length]? =
      some (.answer ((p.after before).answer q)) := by
  rw [replies_append, List.getElem?_append_right (length_replies p before).le,
    length_replies, Nat.sub_self]
  rfl

/-! What is installed can be installed: no step of a session gets a dialect or a name
past its check. -/

/-- What has been installed last has been installed by one of the steps. -/
theorem exists_mem_of_last? {f : Step → Option α} {steps : List Step} {a : α}
    (h : last? f steps = some a) : ∃ s ∈ steps, f s = some a := by
  have hmem : a ∈ steps.filterMap f := List.mem_of_getLast? h
  rwa [List.mem_filterMap] at hmem

/-- A dialect that a step installs has passed its check; a step with another one is
refused. -/
theorem check_of_dialect? {s : Step} {d : Dialect} (h : s.dialect? = some d) :
    d.check = .ok () := by
  match s, h with
  | .change (.ok (.dialect d')), h =>
    rw [Step.dialect?, Option.ite_none_right_eq_some] at h
    obtain ⟨hcheck, hd⟩ := h
    obtain rfl := Option.some.inj hd
    cases hc : d'.check with
    | ok u => rfl
    | error e =>
      rw [hc] at hcheck
      cases hcheck

/-- A class name that a step installs is a name, for the same reason. -/
theorem isName_of_className? {s : Step} {name : Text} (h : s.className? = some name) :
    name.isName = true := by
  match s, h with
  | .change (.ok (.className name')), h =>
    rw [Step.className?, Option.ite_none_right_eq_some] at h
    obtain ⟨hname, hn⟩ := h
    obtain rfl := Option.some.inj hn
    exact hname

/-- The dialect that is installed passes its check, being the first one or one from a
step. -/
theorem check_installed (h₀ : d₀.check = .ok ()) (steps : List Step) :
    (installed d₀ steps).dialect.check = .ok () := by
  show ((last? Step.dialect? steps).getD d₀).check = .ok ()
  cases h : last? Step.dialect? steps with
  | none => exact h₀
  | some d =>
    obtain ⟨s, _, hs⟩ := exists_mem_of_last? h
    exact check_of_dialect? hs

/-- The class name that is installed is a name: one from a step, or that of the
dialect. -/
theorem isName_installed (h₀ : d₀.check = .ok ()) (steps : List Step) :
    (installed d₀ steps).className.isName = true := by
  show ((last? Step.className? (sinceDialect steps)).getD
    (installed d₀ steps).dialect.className).isName = true
  cases h : last? Step.className? (sinceDialect steps) with
  | none => exact (Dialect.check_eq_ok_iff.mp (check_installed h₀ steps)).className
  | some name =>
    obtain ⟨s, _, hs⟩ := exists_mem_of_last? h
    exact isName_of_className? hs

/-- What is installed can be built anew, from nothing but the dialect, the rules and the
class name. -/
theorem rebuilt_installed (h₀ : d₀.check = .ok ()) (steps : List Step) :
    rebuilt (installed d₀ steps) = .ok (installed d₀ steps).pipeline := by
  rw [rebuilt, Engine.pipeline_ofDialect, Engine.ofDialect, check_installed h₀]
  show ((Engine.pipeline _).withRules _).withClassName _ = _
  rw [Engine.pipeline_withRules, Engine.pipeline_withClassName, Engine.withClassName,
    if_pos (isName_installed h₀ steps)]
  rfl

/-! What the order of changes does to what they leave. -/

/-- A step that is refused leaves the pipeline as it was. -/
theorem step_of_refused {p : Pipeline} {s : Step} {e : DialectError}
    (h : (p.step s).1 = .refused e) : (p.step s).2 = p := by
  match s with
  | .ask q => rfl
  | .change a =>
    rw [Pipeline.step] at h ⊢
    cases hp : a >>= p.adjust with
    | ok p' =>
      rw [hp] at h
      cases h
    | error e' => rfl

/-- A name that is no name leaves the engine as it was. -/
theorem adjusted_className (e : Engine) (name : Text) :
    e.adjusted (.className name) = if name.isName
    then { e with className := name } else e := by
  rw [Engine.adjusted, Engine.adjust, Engine.withClassName]
  cases name.isName <;> rfl

/-- New rules and a new class name do not get in each other's way. -/
theorem adjusted_className_rules (e : Engine) (rules : List Rule) (name : Text) :
    (e.adjusted (.className name)).adjusted (.rules rules) =
      (e.adjusted (.rules rules)).adjusted (.className name) := by
  rw [adjusted_className, adjusted_className]
  split <;> rfl

/-- Two changes in a row are made one after the other. -/
theorem installed_change_change (d₀ : Dialect) (steps : List Step)
    (a b : Engine.Adjustment) :
    installed d₀ (steps ++ [Step.change (.ok a), .change (.ok b)]) =
      ((installed d₀ steps).adjusted a).adjusted b := by
  rw [List.append_cons, installed_change, installed_change]

/-- **Every query of a session** is answered by the pipeline that is built anew for the
last dialect that was installed, with the rules and the class name installed since.  In
particular a step that is refused might as well be left out, rules and class name can be
installed in either order, a dialect drops both, and the dialect that is reported is the
one that was installed, whatever the class name. -/
theorem answers_rebuilt (h₀ : Pipeline.ofDialect d₀ = .ok p₀) (before : List Step) :
    ∃ p, rebuilt (installed d₀ before) = .ok p ∧ p₀.after before = p ∧
      (∀ (q : Query) (after : List Step),
        (p₀.replies (before ++ Step.ask q :: after))[before.length]? =
          some (.answer (p.answer q))) ∧
      p.answer .dialect = .dialect ((last? Step.dialect? before).getD d₀) ∧
      (∀ (s : Step) (e : DialectError), (p.step s).1 = .refused e →
        ∀ after, p₀.after (before ++ s :: after) = p₀.after (before ++ after)) ∧
      (∀ (rules : List Rule) (name : Text),
        p₀.after (before ++ [Step.change (.ok (.rules rules)),
          .change (.ok (.className name))]) =
          p₀.after (before ++ [Step.change (.ok (.className name)),
            .change (.ok (.rules rules))])) ∧
      ∀ (d : Dialect) (fresh : Pipeline), Pipeline.ofDialect d = .ok fresh →
        p₀.after (before ++ [Step.change (.ok (.dialect d))]) = fresh := by
  have hcheck : d₀.check = .ok () := by
    rw [Engine.pipeline_ofDialect] at h₀
    cases he : Engine.ofDialect d₀ with
    | ok e => exact (Engine.ofDialect_eq_ok_iff.mp he).1
    | error e =>
      rw [he] at h₀
      cases h₀
  -- All parts are read off the pipeline of what is installed.
  have hafter : p₀.after before = (installed d₀ before).pipeline :=
    after_eq_pipeline h₀ before
  refine ⟨_, rebuilt_installed hcheck before, hafter, ?answers, rfl, ?refused,
    ?commute, ?fresh⟩
  case answers =>
    intro q after
    rw [getElem?_replies_ask, hafter]
  case refused =>
    intro s e hs after
    rw [← hafter] at hs
    rw [Pipeline.after, Pipeline.after, List.foldl_append, List.foldl_append,
      List.foldl_cons]
    exact congrArg (List.foldl _ · after) (step_of_refused hs)
  case commute =>
    intro rules name
    rw [after_eq_pipeline h₀, after_eq_pipeline h₀, installed_change_change,
      installed_change_change, adjusted_className_rules]
  case fresh =>
    intro d fresh hd
    have hbind : (Except.ok (Engine.Adjustment.dialect d) >>= (p₀.after before).adjust) =
        .ok fresh := hd
    rw [after_concat, Pipeline.step, hbind]

/-- A session in which a name and a dialect are refused, and in which a dialect drops
the name that was installed before it: what is left are the dialect and the rules that
came after it. -/
theorem answers_rebuilt_refusedChanges :
    let night : Dialect :=
      { Dialect.powerLanguage with className := "NightStrategy".toList }
    let noSleep :=
      Rule.lacking "no_sleep".toList "Strategy must not sleep".toList "Sleep(".toList
    let before : List Step :=
      [Step.change (.ok (.className "Day".toList)), .change (.ok (.dialect night)),
        .change (.ok (.rules [noSleep])), .change (.ok (.className "no name".toList)),
        .change (.ok (.dialect { night with baseType := [] }))]
    ∃ p₀, Pipeline.ofDialect .powerLanguage = .ok p₀ ∧
      (p₀.replies (before ++ [Step.ask .ruleNames]))[5]? =
        some (.answer (.ruleNames ["no_sleep".toList])) ∧
      (p₀.replies (before ++ [Step.ask .dialect]))[5]? = some (.answer (.dialect night)) ∧
      ∃ c, (p₀.replies (before ++ [Step.ask (.convert "int x;".toList)]))[5]? =
        some (.answer (.conversion c)) ∧
        c.className = "NightStrategy".toList := by
  intro night noSleep before
  have hnew : Pipeline.ofDialect .powerLanguage = .ok Engine.powerLanguage.pipeline := by
    rw [Engine.pipeline_ofDialect, Engine.ofDialect_powerLanguage]
    rfl
  have hinstalled : installed .powerLanguage before =
      ⟨night, [noSleep], night.className⟩ := by rfl
  obtain ⟨p, hp, -, hanswers, -⟩ := answers_rebuilt hnew before
  rw [hinstalled] at hp
  have hp : Engine.pipeline ⟨night, [noSleep], night.className⟩ = p := Except.ok.inj hp
  subst hp
  exact ⟨_, hnew, hanswers .ruleNames [], hanswers .dialect [], _,
    hanswers (.convert _) [], by decide +kernel⟩

end Session

end StrategyDialect
