import StrategyDialect.Proofs.Dialect.Accepted
import StrategyDialect.Proofs.Pattern.Occurrence
import StrategyDialect.Proofs.Text.Lines
import StrategyDialect.Strategy.Shape

/-!
# What the patterns of a dialect read

The patterns that the rules and the search for a class look for are assembled from the
names of a dialect.  This module says once which stretches of text each of them reads;
the later modules work with these stretches and open no pattern.

Rules and classes share the derivation `: B`.  Their patterns have different labels, so
the inclusion of one in the other (`Dialect.isSatisfied_baseTypeRule_of_derivedClass?`)
goes through the stretch that both read.

## Main definitions

* `Text.IsIdentifier`: an ASCII letter or low line and then word characters
* `Text.IsBlank`: nothing but blanks
* `Text.IsQualifier`: a word and a dot, blanks aside

## Main statements

* `Dialect.matches_namespacePattern_iff`, `Dialect.matches_derivation_iff`,
  `Dialect.matches_entryMethodPattern_iff`: what the rules look for
* `Dialect.mem_outcomes_derivedClassPattern_iff`: a class header, and the name that it
  records
-/

namespace StrategyDialect

/-- A name as patterns read it: an ASCII letter or low line, and then word characters. -/
def Text.IsIdentifier (t : Text) : Prop :=
  ∃ x u, t = x :: u ∧ CharClass.asciiNameStart.contains x = true ∧ ∀ y ∈ u,
    isWord y = true

/-- A text of blanks. -/
def Text.IsBlank (t : Text) : Prop :=
  ∀ x ∈ t, isBlank x = true

/-- A qualifier of a type name: a word and a dot, with blanks around the dot. -/
def Text.IsQualifier (t : Text) : Prop :=
  ∃ word gap gap' : Text, word ≠ [] ∧ (∀ x ∈ word, isWord x = true) ∧ gap.IsBlank ∧
    gap'.IsBlank ∧
    t = word ++ gap ++ ['.'] ++ gap'

namespace Text

/-- The empty text is blank. -/
theorem isBlank_nil : IsBlank [] := by
  simp [IsBlank]

/-- A single character is a blank text if it is a blank. -/
theorem isBlank_singleton {x : Char} (hx : isBlank x = true) : IsBlank [x] := by
  intro y hy
  obtain rfl := List.mem_singleton.mp hy
  exact hx

/-- A single space is blank. -/
theorem isBlank_space : IsBlank [' '] :=
  isBlank_singleton (by decide)

/-- A newline is blank. -/
theorem isBlank_newline : IsBlank ['\n'] :=
  isBlank_singleton (by decide)

/-- Blank texts together are blank. -/
theorem IsBlank.append {v w : Text} (hv : IsBlank v) (hw : IsBlank w) :
    IsBlank (v ++ w) := by
  intro x hx
  exact (List.mem_append.mp hx).elim (hv x) (hw x)

/-- All characters of an identifier are word characters, so an identifier ends where a
word ends. -/
theorem IsIdentifier.isWord {t : Text} (h : IsIdentifier t) {x : Char} (hx : x ∈ t) :
    isWord x = true := by
  obtain ⟨y, u, rfl, hy, hu⟩ := h
  rcases List.mem_cons.mp hx with rfl | hx
  · exact isWord_of_asciiNameStart hy
  · exact hu x hx

end Text

namespace Pattern

open Cursor

variable {Label : Type} {c d : Cursor}

/-- The pattern of a name reads the identifiers. -/
theorem matches_namePattern_iff :
    Matches (Dialect.namePattern : Pattern Label) c d ↔
      ∃ n : Text, n.IsIdentifier ∧ c.Reads n d := by
  rw [Dialect.namePattern, matches_seq_iff]
  constructor
  · rintro ⟨e, hfirst, hrest⟩
    obtain ⟨x, hx, hreads⟩ := matches_one_iff.mp hfirst
    obtain ⟨u, hu, hreads'⟩ := matches_run_iff.mp hrest
    exact ⟨[x] ++ u, ⟨x, u, rfl, hx, hu⟩, hreads.trans hreads'⟩
  · rintro ⟨_, ⟨x, u, rfl, hx, hu⟩, hreads⟩
    obtain ⟨e, hfirst, hrest⟩ := reads_append_iff (u := [x]).mp hreads
    exact ⟨e, matches_one_iff.mpr ⟨x, hx, hfirst⟩, matches_run_iff.mpr ⟨u, hu, hrest⟩⟩

/-- The qualifiers are names with a dot each, and with blanks around the dot. -/
theorem matches_qualifiers_iff :
    Matches (qualifiers : Pattern Label) c d ↔
      ∃ q, Repeats Text.IsQualifier q ∧ c.Reads q d := by
  refine matches_star_iff_repeats fun {c d} => ?_
  simp only [matches_sequence_cons_iff, matches_sequence_nil_iff, matches_run1_iff,
    matches_blanks_iff, matches_char_iff]
  constructor
  · rintro ⟨e, ⟨word, hne, hword, he⟩, f, ⟨gap, hgap, hf⟩, g, hg, h,
      ⟨gap', hgap', hh⟩, rfl⟩
    exact ⟨_, ⟨word, gap, gap', hne, hword, hgap, hgap', rfl⟩,
      ((he.trans hf).trans hg).trans hh⟩
  · rintro ⟨_, ⟨word, gap, gap', hne, hword, hgap, hgap', rfl⟩, hreads⟩
    simp only [reads_append_iff] at hreads
    obtain ⟨g, ⟨f, ⟨e, he, hf⟩, hg⟩, hh⟩ := hreads
    exact ⟨e, ⟨word, hne, hword, he⟩, f, ⟨gap, hgap, hf⟩, g, hg, d,
      ⟨gap', hgap', hh⟩, rfl⟩

/-- The qualifiers look at no end of the text. -/
theorem isRegular_qualifiers : (qualifiers : Pattern Label).isRegular = true :=
  rfl

end Pattern

namespace Dialect

open Cursor Pattern

variable {Label : Type} {d : Dialect} {c e : Cursor}

/-! ## Rules -/

/-- The namespace is the keyword, blanks and the name, between two word boundaries. -/
theorem matches_namespacePattern_iff :
    Matches (d.namespacePattern : Pattern Label) c e ↔
      c.meets .wordBoundary = true ∧
        (∃ w : Text, w ≠ [] ∧ w.IsBlank ∧
          c.Reads ("namespace".toList ++ w ++ d.namespaceName) e) ∧
        e.meets .wordBoundary = true := by
  simp only [namespacePattern, matches_sequence_cons_iff, matches_sequence_nil_iff,
    matches_boundary_iff, matches_literal_iff, matches_blanks1_iff, reads_append_iff]
  constructor
  · rintro ⟨_, ⟨rfl, hc⟩, f, hf, g, ⟨w, hne, hw, hg⟩, h, hh, _, ⟨rfl, he⟩, rfl⟩
    exact ⟨hc, ⟨w, hne, hw, g, ⟨f, hf, hg⟩, hh⟩, he⟩
  · rintro ⟨hc, ⟨w, hne, hw, g, ⟨f, hf, hg⟩, hh⟩, he⟩
    exact ⟨c, ⟨rfl, hc⟩, f, hf, g, ⟨w, hne, hw, hg⟩, e, hh, e, ⟨rfl, he⟩, rfl⟩

/-- A derivation is a colon, qualifiers and the base type, with a word boundary behind
it. -/
theorem matches_derivation_iff :
    Matches (Pattern.sequence d.derivation : Pattern Label) c e ↔
      (∃ w q : Text, w.IsBlank ∧ Repeats Text.IsQualifier q ∧
        c.Reads ([':'] ++ w ++ q ++ d.baseType) e) ∧
        e.meets .wordBoundary = true := by
  simp only [derivation, matches_sequence_cons_iff, matches_sequence_nil_iff,
    matches_boundary_iff, matches_literal_iff, matches_blanks_iff, matches_char_iff,
    matches_qualifiers_iff, reads_append_iff]
  constructor
  · rintro ⟨f, hf, g, ⟨w, hw, hg⟩, h, ⟨q, hq, hh⟩, i, hi, _, ⟨rfl, he⟩, rfl⟩
    exact ⟨⟨w, q, hw, hq, h, ⟨g, ⟨f, hf, hg⟩, hh⟩, hi⟩, he⟩
  · rintro ⟨⟨w, q, hw, hq, h, ⟨g, ⟨f, hf, hg⟩, hh⟩, hi⟩, he⟩
    exact ⟨f, hf, g, ⟨w, hw, hg⟩, h, ⟨q, hq, hh⟩, e, hi, e, ⟨rfl, he⟩, rfl⟩

/-- The entry method is the keyword, blanks, the name and a parenthesis.  Only in front
is a word boundary asked for, since a parenthesis ends the name by itself. -/
theorem matches_entryMethodPattern_iff :
    Matches (d.entryMethodPattern : Pattern Label) c e ↔
      c.meets .wordBoundary = true ∧
        ∃ w w' : Text, w ≠ [] ∧ w.IsBlank ∧ w'.IsBlank ∧
          c.Reads ("void".toList ++ w ++ d.entryMethod ++ w' ++ ['(']) e := by
  simp only [entryMethodPattern, matches_sequence_cons_iff, matches_sequence_nil_iff,
    matches_boundary_iff, matches_literal_iff, matches_blanks1_iff, matches_blanks_iff,
    matches_char_iff, reads_append_iff]
  constructor
  · rintro ⟨_, ⟨rfl, hc⟩, f, hf, g, ⟨w, hne, hw, hg⟩, h, hh, i, ⟨w', hw', hi⟩, j, hj, rfl⟩
    exact ⟨hc, w, w', hne, hw, hw', i, ⟨h, ⟨g, ⟨f, hf, hg⟩, hh⟩, hi⟩, hj⟩
  · rintro ⟨hc, w, w', hne, hw, hw', i, ⟨h, ⟨g, ⟨f, hf, hg⟩, hh⟩, hi⟩, hj⟩
    exact ⟨c, ⟨rfl, hc⟩, f, hf, g, ⟨w, hne, hw, hg⟩, h, hh, i, ⟨w', hw', hi⟩, e, hj, rfl⟩

/-- A word boundary before a word character: no word character stands in front. -/
theorem meets_wordBoundary_start_iff (hfirst : isWordAt c.rest.head? = true) :
    c.meets .wordBoundary = true ↔ isWordAt c.before.head? = false := by
  simp [meets, Edge.holds, hfirst]

/-- A word boundary behind a stretch, in terms of the characters next to it. -/
theorem meets_wordBoundary_stop_iff {u v : Text} (hv : v ≠ []) (hu : c.Reads (u ++ v) e) :
    e.meets .wordBoundary = true ↔ isWordAt v.getLast? ≠ isWordAt e.rest.head? := by
  simp [meets, Edge.holds, hu.head?_before hv]

/-- A word boundary lies between a stretch that ends with a word character and another
character. -/
theorem meets_wordBoundary_of_reads {u v : Text} (hu : c.Reads (u ++ v) e)
    (hlast : isWordAt v.getLast? = true) (hnext : isWordAt e.rest.head? = false) :
    e.meets .wordBoundary = true := by
  have hv : v ≠ [] := by
    rintro rfl
    cases hlast
  rw [meets_wordBoundary_stop_iff hv hu, hlast, hnext]
  simp

/-- The derivation as it is usually written matches, if the base type ends with a word
character: otherwise there is no word boundary before the newline. -/
theorem exists_matches_derivation (hbase : isWordAt d.baseType.getLast? = true) {r : Text}
    (hc : c.rest = [':', ' '] ++ d.baseType ++ '\n' :: r) :
    ∃ f, Matches (Pattern.sequence d.derivation : Pattern Label) c f := by
  have hreads : c.Reads ([':'] ++ [' '] ++ [] ++ d.baseType)
      ⟨([':', ' '] ++ d.baseType).reverse ++ c.before, '\n' :: r⟩ :=
    ⟨by simpa using hc, by simp⟩
  have hnewline : isWordAt (some '\n') = false := by decide
  exact ⟨_, matches_derivation_iff.mpr ⟨⟨[' '], [], Text.isBlank_space, .nil, hreads⟩,
    meets_wordBoundary_of_reads hreads hbase hnewline⟩⟩

/-- The namespace as it is usually written matches, under the same condition on its
name. -/
theorem exists_matches_namespacePattern
    (hname : isWordAt d.namespaceName.getLast? = true) {r : Text}
    (hbefore : isWordAt c.before.head? = false)
    (hc : c.rest = "namespace".toList ++ [' '] ++ d.namespaceName ++ '\n' :: r) :
    ∃ f, Matches (d.namespacePattern : Pattern Label) c f := by
  have hreads : c.Reads ("namespace".toList ++ [' '] ++ d.namespaceName)
      ⟨("namespace".toList ++ [' '] ++ d.namespaceName).reverse ++ c.before, '\n' :: r⟩ :=
    ⟨hc, rfl⟩
  have hnewline : isWordAt (some '\n') = false := by decide
  refine ⟨_, matches_namespacePattern_iff.mpr
    ⟨?_, ⟨[' '], by simp, Text.isBlank_space, hreads⟩, ?_⟩⟩
  · have hkeyword : "namespace".toList = 'n' :: "amespace".toList := by decide
    have hnext : isWordAt (some 'n') = true := by decide
    have hhead : c.rest.head? = some 'n' := by
      rw [hc, hkeyword]
      rfl
    simp [meets, Edge.holds, hhead, hnext, hbefore]
  · exact meets_wordBoundary_of_reads hreads hname hnewline

/-- The pattern of the namespace looks at no end of the text. -/
theorem isRegular_namespacePattern :
    (d.namespacePattern : Pattern Label).isRegular = true := by
  simp [namespacePattern, isRegular_sequence, boundary, blanks1, run1, isRegular]

/-- Nor does the pattern of the base type. -/
theorem isRegular_baseTypePattern :
    (d.baseTypePattern : Pattern Label).isRegular = true := by
  simp [baseTypePattern, derivation, isRegular_sequence, boundary, blanks, char,
    isRegular, isRegular_qualifiers]

/-- Nor does the pattern of the entry method, so the rules come out alike for a strategy
with a frame around it. -/
theorem isRegular_entryMethodPattern :
    (d.entryMethodPattern : Pattern Label).isRegular = true := by
  simp [entryMethodPattern, isRegular_sequence, boundary, blanks1, blanks, run1,
    char, isRegular]

/-! ## Classes -/

/-- What follows the name of a derived class: type parameters, if there are any, and the
derivation. -/
def classTail (d : Dialect) : List (Pattern Unit) :=
  blanks :: optional (Pattern.sequence [char '<', run (.noneOf ">".toList), char '>'])
    :: blanks :: d.derivation

/-- **A derived class** is the keyword, a name, which is recorded, and what follows the
name. -/
theorem mem_outcomes_derivedClassPattern_iff {o : Outcome Unit} :
    o ∈ d.derivedClassPattern.outcomes c [] ↔
      c.meets .wordBoundary = true ∧
        ∃ (w n : Text) (f g : Cursor),
          w ≠ [] ∧ w.IsBlank ∧ c.Reads ("class".toList ++ w) f ∧
          n.IsIdentifier ∧ f.Reads n g ∧ Matches (Pattern.sequence d.classTail) g o.1 ∧
          o.2 = [((), f, g)] := by
  have hsplit : d.derivedClassPattern =
      Pattern.sequence ([boundary, literal "class".toList, blanks1]
        ++ group () namePattern :: d.classTail) :=
    rfl
  have hfree : (Pattern.sequence d.classTail).groupFree = true := by
    simp [classTail, derivation, blanks, Pattern.optional, qualifiers, Pattern.sequence,
      char, run1, boundary, groupFree]
  rw [hsplit, mem_outcomes_sequence_group_iff rfl rfl]
  simp only [mem_outcomes_iff_of_groupFree hfree, matches_sequence_cons_iff,
    matches_sequence_nil_iff, matches_boundary_iff, matches_literal_iff,
      matches_blanks1_iff,
    matches_namePattern_iff, reads_append_iff]
  constructor
  · rintro ⟨f, g, ⟨_, ⟨rfl, hc⟩, e, he, _, ⟨w, hne, hw, hf⟩, rfl⟩, ⟨n, hn, hg⟩, htail, ho⟩
    exact ⟨hc, w, n, _, g, hne, hw, ⟨e, he, hf⟩, hn, hg, htail, ho⟩
  · rintro ⟨hc, w, n, f, g, hne, hw, ⟨e, he, hf⟩, hn, hg, htail, ho⟩
    exact ⟨f, g, ⟨c, ⟨rfl, hc⟩, e, he, f, ⟨w, hne, hw, hf⟩, rfl⟩, ⟨n, hn, hg⟩, htail, ho⟩

/-- A derived class starts with its keyword, blanks and a name. -/
theorem exists_phrase_of_matches_derivedClassPattern
    (h : Matches d.derivedClassPattern c e) :
    ∃ (w y : Text) (x : Char), w ≠ [] ∧ w.IsBlank ∧ isNameStart x = true ∧
      c.Reads ("class".toList ++ w ++ x :: y) e := by
  obtain ⟨g, hg⟩ := h.exists_mem_outcomes []
  obtain ⟨-, w, n, f, k, hne, hw, hf, ⟨x, u, rfl, hx, -⟩, hk, htail, -⟩ :=
    mem_outcomes_derivedClassPattern_iff.mp hg
  obtain ⟨v, hv⟩ := htail.exists_reads
  exact ⟨w, u ++ v, x, hne, hw, isNameStart_of_asciiNameStart hx,
    by simpa using (hf.trans hk).trans hv⟩

/-- A derived class ends with a derivation, so it satisfies the rule for the base
type. -/
theorem exists_derivation_of_matches_derivedClassPattern
    (h : Matches d.derivedClassPattern c e) :
    ∃ f, f.text = c.text ∧
      Matches (Pattern.sequence d.derivation : Pattern Unit) f e := by
  obtain ⟨g, hg⟩ := h.exists_mem_outcomes []
  obtain ⟨-, w, n, f, k, -, -, hf, -, hk, htail, -⟩ :=
    mem_outcomes_derivedClassPattern_iff.mp hg
  obtain ⟨i, -, htail'⟩ := matches_sequence_cons_iff.mp htail
  obtain ⟨j, -, htail''⟩ := matches_sequence_cons_iff.mp htail'
  obtain ⟨l, -, hderivation⟩ := matches_sequence_cons_iff.mp htail''
  refine ⟨l, ?_, hderivation⟩
  rw [← hderivation.text_eq, htail.text_eq, hk.text_eq, hf.text_eq]

/-- What follows the name of a derived class does not continue the name. -/
theorem isWord_eq_false_of_matches_classTail
    (h : Matches (Pattern.sequence d.classTail) c e) :
    ∀ x ∈ c.rest.head?, isWord x = false := by
  have hblank : ∀ {w : Text} {c f : Cursor}, w.IsBlank → c.Reads w f →
      (∀ x ∈ f.rest.head?, isWord x = false) → ∀ x ∈ c.rest.head?, isWord x = false := by
    intro w c f hw hf hnext
    rw [hf.rest_eq]
    cases w with
    | nil => exact hnext
    | cons y w =>
      exact Text.forall_mem_head?_cons
        (isWord_eq_false_of_isBlank (hw y (by simp))) (w ++ f.rest)
  have hchar : ∀ {y : Char} {u : Text} {c f : Cursor}, isWord y = false →
      c.Reads ([y] ++ u) f →
      ∀ x ∈ c.rest.head?, isWord x = false := by
    intro y u c f hy hf
    rw [hf.rest_eq]
    exact Text.forall_mem_head?_cons hy (u ++ f.rest)
  -- After the blanks stands the bracket of the type parameters or, with blanks again,
  -- the colon.
  obtain ⟨f, hf, hafter⟩ := matches_sequence_cons_iff.mp h
  obtain ⟨w, hw, hwf⟩ := matches_blanks_iff.mp hf
  refine hblank hw hwf ?_
  obtain ⟨g, hg, hlast⟩ := matches_sequence_cons_iff.mp hafter
  rcases matches_optional_iff.mp hg with hparams | rfl
  · obtain ⟨k, hk, hmore⟩ := matches_sequence_cons_iff.mp hparams
    obtain ⟨u, hu⟩ := hmore.exists_reads
    exact hchar (by decide) ((matches_char_iff.mp hk).trans hu)
  · obtain ⟨k, hk, hderivation⟩ := matches_sequence_cons_iff.mp hlast
    obtain ⟨w', hw', hwk⟩ := matches_blanks_iff.mp hk
    refine hblank hw' hwk ?_
    obtain ⟨⟨v, q, -, -, hreads⟩, -⟩ := matches_derivation_iff.mp hderivation
    have hreads' : k.Reads ([':'] ++ (v ++ q ++ d.baseType)) e := by simpa using hreads
    exact hchar (by decide) hreads'

/-- The pattern of a derived class looks at no end of the text. -/
theorem isRegular_derivedClassPattern : d.derivedClassPattern.isRegular = true := by
  simp [derivedClassPattern, derivation, namePattern, Pattern.optional, Pattern.sequence,
    boundary, blanks1, blanks, run1, char, isRegular, isRegular_qualifiers]

/-- **A derived class brings along what the base type rule looks for.** -/
theorem isSatisfied_baseTypeRule_of_derivedClass? {source name : Text}
    (h : d.derivedClass? source = some name) :
    d.baseTypeRule.isSatisfied source = true := by
  obtain ⟨m, hm, -⟩ := Option.bind_eq_some_iff.mp h
  obtain ⟨htext, hat⟩ := matchAt_of_find_eq_some hm
  obtain ⟨f, hf, hderivation⟩ :=
    exists_derivation_of_matches_derivedClassPattern (matches_of_matchAt_eq_some hat)
  exact occursIn_iff.mpr ⟨f, m.stop, hf.trans htext,
    matches_derivation_iff.mpr (matches_derivation_iff.mp hderivation)⟩

end Dialect

end StrategyDialect
