import StrategyDialect.Proofs.Engine
import StrategyDialect.Proofs.Strategy.Frame
import StrategyDialect.Proofs.Strategy.Validation

/-!
# Class headers

The search for a class and the base type rule both look for a derivation `: B`.  The
rule is content with it; the search also wants a header in front: the word `class`, a
name that starts with an ASCII letter or the low line, and nothing between the name and
the colon but blanks and type parameters.  This module says in terms of stretches what
such a header is (`Dialect.IsClassHeader`), and that the search succeeds on the
strategies that have one (`Dialect.derivedClass?_eq_none_iff`).

A valid strategy has a derivation, but need not have a header.  So there are valid
strategies that are taken for bare members and put into a second class inside a second
namespace.  `Dialect.convert_valid_iff` draws the line: what keeps a valid strategy from
being wrapped again is a class header, and nothing else does.

## Main definitions

* `Text.IsTypeParameters`: what may stand in angle brackets behind the name of a class
* `Dialect.IsClassHeader`, `Dialect.DeclaresClass`: the header of a derived class, and a
  strategy with one

## Main statements

* `Dialect.matches_derivedClassPattern_iff`: the pattern of a derived class reads class
  headers
* `Dialect.exists_isClassHeader_of_derivedClass?`: the name that is found is that of a
  header
* `Dialect.convert_valid_iff`: the valid strategies that conversion keeps
-/

namespace StrategyDialect

/-- Type parameters behind the name of a class, if there are any.  The first closing
bracket ends them. -/
def Text.IsTypeParameters (t : Text) : Prop :=
  t = [] ∨ ∃ u, '>' ∉ u ∧ t = ['<'] ++ u ++ ['>']

namespace Dialect

open Text Cursor Pattern

/-- The header of a class with the given name, as far as the base type of the dialect. -/
def IsClassHeader (d : Dialect) (name t : Text) : Prop :=
  ∃ w w₁ params w₂ w₃ q : Text, w ≠ [] ∧ w.IsBlank ∧ name.IsIdentifier ∧ w₁.IsBlank ∧
    params.IsTypeParameters ∧ w₂.IsBlank ∧ w₃.IsBlank ∧ Repeats IsQualifier q ∧
    t = "class".toList ++ w ++ name
      ++ (w₁ ++ params ++ w₂ ++ ([':'] ++ w₃ ++ q ++ d.baseType))

/-- A strategy with the header of a derived class in it.  No word character stands
before the keyword, and a word boundary behind the base type. -/
def DeclaresClass (d : Dialect) (source : Text) : Prop :=
  ∃ before t after name, source = before ++ t ++ after ∧ d.IsClassHeader name t ∧
    isWordAt before.getLast? = false ∧ isWordAt d.baseType.getLast? ≠ isWordAt after.head?

variable {d : Dialect} {c e : Cursor} {name source t : Text}

/-! ## The pattern -/

/-- The group for type parameters reads them if there are any, and nothing otherwise.
The pattern does not balance angle brackets: the first one that closes ends the
group. -/
theorem matches_typeParameters_iff {Label : Type} :
    Matches (Pattern.optional
      (Pattern.sequence [char '<', run (.noneOf ">".toList), char '>']) :
      Pattern Label) c e ↔ ∃ params : Text,
        params.IsTypeParameters ∧ c.Reads params e := by
  simp only [matches_optional_iff, matches_sequence_cons_iff, matches_sequence_nil_iff,
    matches_char_iff, matches_run_iff, CharClass.contains_noneOf]
  constructor
  · rintro (⟨f, hf, g, ⟨u, hu, hg⟩, h, hh, rfl⟩ | rfl)
    · refine ⟨_, .inr ⟨u, fun hmem => hu _ hmem (by decide), rfl⟩, (hf.trans hg).trans hh⟩
    · exact ⟨[], .inl rfl, reads_nil_iff.mpr rfl⟩
  · rintro ⟨_, rfl | ⟨u, hu, rfl⟩, hreads⟩
    · exact .inr (reads_nil_iff.mp hreads)
    · obtain ⟨g, hfg, hh⟩ := reads_append_iff.mp hreads
      obtain ⟨f, hf, hg⟩ := reads_append_iff.mp hfg
      refine .inl ⟨f, hf, g, ⟨u, fun x hx hmem => hu ?_, hg⟩, e, hh, rfl⟩
      obtain rfl : x = '>' := by simpa using hmem
      exact hx

/-- What the pattern of a derived class reads behind the name, piece by piece: type
parameters, a colon, the qualifiers of the base type and the base type, with blanks
between them, and no word character behind it all. -/
theorem matches_classTail_iff :
    Matches (Pattern.sequence d.classTail) c e ↔
      (∃ w₁ params w₂ w₃ q : Text, w₁.IsBlank ∧ params.IsTypeParameters ∧
        w₂.IsBlank ∧ w₃.IsBlank ∧
        Repeats IsQualifier q ∧
        c.Reads (w₁ ++ params ++ w₂ ++ ([':'] ++ w₃ ++ q ++ d.baseType)) e) ∧
      e.meets .wordBoundary = true := by
  simp only [classTail, matches_sequence_cons_iff, matches_blanks_iff,
    matches_typeParameters_iff, matches_derivation_iff]
  constructor
  · rintro ⟨f, ⟨w₁, hw₁, hf⟩, g, ⟨params, hparams, hg⟩, h, ⟨w₂, hw₂, hh⟩,
      ⟨w₃, q, hw₃, hq, hreads⟩, he⟩
    exact ⟨⟨w₁, params, w₂, w₃, q, hw₁, hparams, hw₂, hw₃, hq,
      ((hf.trans hg).trans hh).trans hreads⟩, he⟩
  · rintro ⟨⟨w₁, params, w₂, w₃, q, hw₁, hparams, hw₂, hw₃, hq, hreads⟩, he⟩
    obtain ⟨h, hhead, hrest⟩ := reads_append_iff.mp hreads
    obtain ⟨g, hfg, hh⟩ := reads_append_iff.mp hhead
    obtain ⟨f, hf, hg⟩ := reads_append_iff.mp hfg
    exact ⟨f, ⟨w₁, hw₁, hf⟩, g, ⟨params, hparams, hg⟩, h, ⟨w₂, hw₂, hh⟩,
      ⟨w₃, q, hw₃, hq, hrest⟩, he⟩

/-- **A derived class** stretches from a word boundary over a class header to another
word boundary. -/
theorem matches_derivedClassPattern_iff :
    Matches d.derivedClassPattern c e ↔
      c.meets .wordBoundary = true ∧ (∃ name t, d.IsClassHeader name t ∧ c.Reads t e) ∧
        e.meets .wordBoundary = true := by
  rw [← exists_mem_outcomes_iff []]
  simp only [mem_outcomes_derivedClassPattern_iff, matches_classTail_iff]
  constructor
  · rintro ⟨-, hc, w, n, f, g, hne, hw, hf, hn, hg,
      ⟨⟨w₁, params, w₂, w₃, q, hw₁, hparams, hw₂, hw₃, hq, hreads⟩, he⟩, -⟩
    exact ⟨hc,
      ⟨n, _, ⟨w, w₁, params, w₂, w₃, q, hne, hw, hn, hw₁, hparams, hw₂, hw₃, hq, rfl⟩,
        (hf.trans hg).trans hreads⟩, he⟩
  · rintro ⟨hc,
      ⟨n, _, ⟨w, w₁, params, w₂, w₃, q, hne, hw, hn, hw₁, hparams, hw₂, hw₃, hq, rfl⟩,
        hreads⟩, he⟩
    obtain ⟨g, hhead, hrest⟩ := reads_append_iff.mp hreads
    obtain ⟨f, hf, hg⟩ := reads_append_iff.mp hhead
    exact ⟨_, hc, w, n, f, g, hne, hw, hf, hn, hg,
      ⟨⟨w₁, params, w₂, w₃, q, hw₁, hparams, hw₂, hw₃, hq, hrest⟩, he⟩, rfl⟩

/-- The name that is found is that of a class header of the strategy, and no derived
class starts before it. -/
theorem exists_isClassHeader_of_derivedClass? (h : d.derivedClass? source = some name) :
    ∃ (c e : Cursor) (t : Text), c.text = source ∧ c.meets .wordBoundary = true ∧
      d.IsClassHeader name t ∧ c.Reads t e ∧ e.meets .wordBoundary = true ∧
      ∀ f g, f.text = source → Matches d.derivedClassPattern f g →
        c.offset ≤ f.offset := by
  obtain ⟨m, hm, hname⟩ := Option.bind_eq_some_iff.mp h
  obtain ⟨htext, hat⟩ := matchAt_of_find_eq_some hm
  obtain ⟨-, hmem⟩ := mem_outcomes_of_matchAt_eq_some hat
  obtain ⟨hc, w, n, f, g, hne, hw, hf, hn, hg, htail, hgroups⟩ :=
    mem_outcomes_derivedClassPattern_iff.mp hmem
  obtain ⟨⟨w₁, params, w₂, w₃, q, hw₁, hparams, hw₂, hw₃, hq, hreads⟩, he⟩ :=
    matches_classTail_iff.mp htail
  obtain rfl : n = name := by
    rw [Match.groupText?, Match.group?, show m.groups = [((), f, g)] from hgroups]
      at hname
    have hgroup : f.textTo g = name := by simpa using hname
    rw [← hgroup, hg.textTo_eq]
  exact ⟨m.start, m.stop, _, htext, hc,
    ⟨w, w₁, params, w₂, w₃, q, hne, hw, hn, hw₁, hparams, hw₂, hw₃, hq, rfl⟩,
      (hf.trans hg).trans hreads, he,
    fun _ _ => offset_le_of_find_eq_some hm⟩

/-- The search for a class fails only where nothing matches, since a match has a name. -/
theorem derivedClass?_eq_none_iff_find :
    d.derivedClass? source = none ↔ d.derivedClassPattern.find source = none := by
  cases hfind : d.derivedClassPattern.find source with
  | none => simp [derivedClass?, hfind]
  | some m =>
    obtain ⟨-, hat⟩ := matchAt_of_find_eq_some hfind
    obtain ⟨-, hmem⟩ := mem_outcomes_of_matchAt_eq_some hat
    obtain ⟨-, w, n, f, g, -, -, -, -, -, -, hgroups⟩ :=
      mem_outcomes_derivedClassPattern_iff.mp hmem
    simp [derivedClass?, hfind, Match.groupText?, Match.group?,
      show m.groups = [((), f, g)] from hgroups]

/-! ## The edges of a header -/

/-- A header starts with its keyword and ends with the base type. -/
theorem IsClassHeader.exists_eq (h : d.IsClassHeader name t) :
    ∃ u, t = 'c' :: u ++ d.baseType := by
  obtain ⟨w, w₁, params, w₂, w₃, q, -, -, -, -, -, -, -, -, rfl⟩ := h
  refine ⟨"lass".toList ++ w ++ name ++ (w₁ ++ params ++ w₂ ++ ([':'] ++ w₃ ++ q)), ?_⟩
  simp only [List.cons_append, List.append_assoc]
  rfl

/-- A class header ends with the base type, so the last character of both is the
same. -/
theorem IsClassHeader.getLast?_eq (h : d.IsClassHeader name t) (hbase : d.baseType ≠ []) :
    t.getLast? = d.baseType.getLast? := by
  obtain ⟨u, rfl⟩ := h.exists_eq
  exact List.getLast?_append_of_ne_nil _ hbase

/-- The name of a class header is an identifier: an ASCII letter or the low line, and
word characters behind it. -/
theorem IsClassHeader.isIdentifier (h : d.IsClassHeader name t) : name.IsIdentifier := by
  obtain ⟨w, w₁, params, w₂, w₃, q, -, -, hname, -⟩ := h
  exact hname

/-- The word boundaries around a header, in terms of what stands next to it. -/
theorem IsClassHeader.edges_iff (h : d.IsClassHeader name t) (hbase : d.baseType ≠ [])
    (hreads : c.Reads t e) : c.meets .wordBoundary = true ∧ e.meets .wordBoundary = true ↔
      isWordAt c.before.head? = false ∧
      isWordAt d.baseType.getLast? ≠ isWordAt e.rest.head? := by
  obtain ⟨u, rfl⟩ := h.exists_eq
  have hfirst : isWordAt c.rest.head? = true := by
    rw [hreads.rest_eq]
    exact (by decide : isWord 'c' = true)
  rw [meets_wordBoundary_start_iff hfirst, meets_wordBoundary_stop_iff hbase hreads]

/-- **A class is found in a strategy if the strategy has a class header.** -/
theorem derivedClass?_eq_none_iff (hd : d.Accepted) :
    d.derivedClass? source = none ↔ ¬d.DeclaresClass source := by
  have hbase : d.baseType ≠ [] := ne_nil_of_isName hd.baseType
  constructor
  · rintro hnone ⟨before, t, after, name, rfl, hheader, hstart, hstop⟩
    have hreads := reads_mk before.reverse t after
    obtain ⟨hc, he⟩ :=
      (hheader.edges_iff hbase hreads).mpr ⟨by rwa [List.head?_reverse], hstop⟩
    refine find_eq_none_iff.mp (derivedClass?_eq_none_iff_find.mp hnone) _ _ ?_
      (matches_derivedClassPattern_iff.mpr ⟨hc, ⟨name, t, hheader, hreads⟩, he⟩)
    simp [text]
  · intro hnot
    cases hclass : d.derivedClass? source with
    | none => rfl
    | some name =>
      obtain ⟨c, e, t, rfl, hc, hheader, hreads, he, -⟩ :=
        exists_isClassHeader_of_derivedClass? hclass
      obtain ⟨hstart, hstop⟩ := (hheader.edges_iff hbase hreads).mp ⟨hc, he⟩
      refine absurd ⟨c.before.reverse, t, e.rest, name, ?_, hheader,
        by rwa [List.getLast?_reverse], hstop⟩ hnot
      rw [text_eq_append, hreads.rest_eq, List.append_assoc]

/-! ## Valid strategies -/

/-- A strategy is complete if it has a class and lies in the namespace, and it has the
name of the class that is found. -/
theorem shape_eq_completeUnit_iff :
    d.shape source = (.completeUnit, some name) ↔
      d.derivedClass? source = some name ∧ d.namespaceRule.isSatisfied source = true := by
  rw [shape]
  cases d.derivedClass? source with
  | none => simp
  | some found =>
    by_cases hrule : d.namespaceRule.isSatisfied source = true <;> simp [hrule]

/-- A valid strategy lies in the namespace, since that is one of the rules. -/
theorem isSatisfied_namespaceRule_of_isValid
    (h : (Validation.ofRules d.rules source).isValid = true) :
    d.namespaceRule.isSatisfied source = true :=
  (Validation.isValid_ofRules.mp h).2 _ (by simp [rules])

/-- A text in the namespace is kept as it is, the usings apart, if it has a class
header. -/
theorem isKept_iff (hd : d.Accepted) (hrule : d.namespaceRule.isSatisfied source = true)
    (configured requested : Text) :
    (d.convert configured requested source).shape = .completeUnit ∧
        (d.convert configured requested source).generatedCode =
          d.usingsHeader source ++ source ↔
      d.DeclaresClass source := by
  constructor
  · rintro ⟨hshape, -⟩
    have hclass : (d.shape source).1 ≠ .members := by
      rw [show (d.shape source).1 = .completeUnit from hshape]
      simp
    obtain ⟨name, hname, -⟩ := exists_derivedClass?_of_shape hclass
    by_contra hnot
    rw [(derivedClass?_eq_none_iff hd).mpr hnot] at hname
    cases hname
  · intro hclass
    cases hname : d.derivedClass? source with
    | none => exact absurd hclass ((derivedClass?_eq_none_iff hd).mp hname)
    | some name =>
      have hshape := shape_eq_completeUnit_iff.mpr ⟨hname, hrule⟩
      refine ⟨congrArg Prod.fst hshape, ?_⟩
      rw [generatedCode_eq, hshape]
      exact List.append_nil _

/-- **The valid strategies that conversion keeps** are those with a class header: of
these, and of no others, nothing but the missing usings is added.  The same holds of
what an engine that requires validity converts. -/
theorem convert_valid_iff {e : Engine} (he : Engine.ofDialect d = .ok e)
    (hvalid : (e.validate source).isValid = true) :
    ((e.convert source).shape = .completeUnit ∧
        (e.convert source).generatedCode = d.usingsHeader source ++ source ↔
          d.DeclaresClass source) ∧
      ∀ requested, ∃ c, (e.run source .requireValid requested).conversion = some c ∧
        (c.shape = .completeUnit ∧ c.generatedCode = d.usingsHeader source ++ source ↔
          d.DeclaresClass source) := by
  obtain ⟨hcheck, rfl⟩ := Engine.ofDialect_eq_ok_iff.mp he
  have hd : d.Accepted := check_eq_ok_iff.mp hcheck
  have hrule := isSatisfied_namespaceRule_of_isValid hvalid
  refine ⟨isKept_iff hd hrule _ _, fun requested =>
    ⟨_, ?_, isKept_iff hd hrule d.className (requested.getD d.className)⟩⟩
  rw [Engine.conversion_run, if_pos (.inl hvalid)]
  rfl

/-- A PowerLanguage strategy with a class of the given name. -/
def strategyOfClass (name : Text) : Text :=
  "namespace PowerLanguage.Strategy \x7b class ".toList ++ name
    ++ " : SignalObject \x7b void CalcBar() \x7b \x7d \x7d \x7d".toList

/-- A class with an ASCII name is kept: its header is found, so the strategy is complete
and conversion gives it back. -/
theorem convert_valid_asciiName :
    Engine.ofDialect powerLanguage = .ok .powerLanguage ∧
      (Engine.powerLanguage.validate (strategyOfClass "Uber".toList)).isValid = true ∧
      (Engine.powerLanguage.convert (strategyOfClass "Uber".toList)).shape =
        .completeUnit := by
  have hvalid :
      (Engine.powerLanguage.validate (strategyOfClass "Uber".toList)).isValid = true := by
    decide +kernel
  have hname : IsIdentifier "Uber".toList :=
    ⟨'U', "ber".toList, by decide, by decide, by decide⟩
  have hclass : powerLanguage.DeclaresClass (strategyOfClass "Uber".toList) := by
    refine ⟨"namespace PowerLanguage.Strategy \x7b ".toList,
      "class Uber : SignalObject".toList,
      " \x7b void CalcBar() \x7b \x7d \x7d \x7d".toList, "Uber".toList, by
        decide, ?_, by decide, by decide⟩
    exact ⟨[' '], [' '], [], [], [' '], [], by decide, isBlank_space, hname,
      isBlank_space, .inl rfl, isBlank_nil, isBlank_space, .nil, by decide⟩
  exact ⟨Engine.ofDialect_powerLanguage, hvalid,
    ((convert_valid_iff Engine.ofDialect_powerLanguage hvalid).1.mpr hclass).1⟩

/-- A class whose name starts with another letter is not kept: the valid strategy is
taken for bare members. -/
theorem convert_valid_otherLetter :
    Engine.ofDialect powerLanguage = .ok .powerLanguage ∧
      (Engine.powerLanguage.validate (strategyOfClass "Über".toList)).isValid = true ∧
      (Engine.powerLanguage.convert (strategyOfClass "Über".toList)).shape = .members :=
  ⟨Engine.ofDialect_powerLanguage, by decide +kernel, by decide +kernel⟩

end Dialect

end StrategyDialect
