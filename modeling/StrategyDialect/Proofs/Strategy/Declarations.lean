import StrategyDialect.Proofs.Strategy.Readings

/-!
# What a declaration reads

The pattern of a declaration records three groups, and the pieces between them record
nothing, so an outcome of the search is a tuple of stretches.  This module takes the
pattern apart once (`Dialect.exists_of_matchAt_declarationPattern`); what a declaration
declares is then a question about texts.

## Main definitions

* `Text.IsType`: the texts that are types
* `Text.IsModifier`, `Text.IsAttribute`: modifiers and attributes, with the blanks after
  them
* `Dialect.tails`: what the body of a member starts with
* `Dialect.IsDeclaration`: a declaration with its type, its name and its tail

## Main statements

* `Dialect.matches_typePattern_iff`, `Dialect.matches_modifiersPattern_iff`,
  `Dialect.matches_attributesPattern_iff`: the pieces of a declaration
* `Dialect.exists_of_matchAt_declarationPattern`: the stretches of a declaration with
  its groups
* `Dialect.parameterOf_eq`: the parameter that is declared, by the texts of the groups
-/

namespace StrategyDialect

namespace Text

/-- Characters of a class in brackets, with blanks before the opening bracket, or
nothing. -/
inductive IsBracketed (opening closing : Char) (k : CharClass) : Text → Prop where
  | absent : IsBracketed opening closing k []
  | present {gap inner : Text} (hgap : gap.IsBlank)
      (hinner : ∀ x ∈ inner, k.contains x = true) :
      IsBracketed opening closing k (gap ++ [opening] ++ inner ++ [closing])

/-- The characters of type arguments. -/
def argumentClass : CharClass :=
  .noneOf "<>;\x7b\x7d".toList

/-- The characters of the name of a type: word characters and dots. -/
def typeClass : CharClass :=
  .union .word (.single '.')

/-- The name of a type: a letter or low line, and then word characters and dots. -/
def IsTypeName (t : Text) : Prop :=
  ∃ x u, t = x :: u ∧ CharClass.asciiNameStart.contains x = true ∧
    ∀ y ∈ u, typeClass.contains y = true

/-- A type: a name, type arguments, the brackets of an array and a question mark. -/
def IsType (t : Text) : Prop :=
  ∃ name arguments array mark, IsTypeName name ∧
    IsBracketed '<' '>' argumentClass arguments ∧
    IsBracketed '[' ']' .blank array ∧ (mark = ['?'] ∨ mark = []) ∧
    t = name ++ arguments ++ array ++ mark

/-- A modifier with the blanks after it. -/
def IsModifier (t : Text) : Prop :=
  ∃ m ∈ Dialect.modifiers, ∃ gap : Text, gap ≠ [] ∧ gap.IsBlank ∧ t = m ++ gap

/-- An attribute in brackets with the blanks after it. -/
def IsAttribute (t : Text) : Prop :=
  ∃ inner gap : Text, ']' ∉ inner ∧ gap.IsBlank ∧ t = ['['] ++ inner ++ [']'] ++ gap

end Text

namespace Dialect

open Text Cursor Pattern

variable {d : Dialect} {c e : Cursor}

/-- What the body of a member may start with. -/
def tails : List Text :=
  [['{'], ['=', '>'], ['='], [';']]

/-! ## The pieces -/

/-- Something in brackets that may be missing: the arguments of a type and the bracket
of an array are both of this form. -/
private theorem matches_bracketed_iff {opening closing : Char} {k : CharClass} :
    Matches
      (Pattern.optional (Pattern.sequence [blanks, char opening, run k, char closing])
      :
      Pattern DeclarationPart) c e ↔
        ∃ t, IsBracketed opening closing k t ∧ c.Reads t e := by
  rw [matches_optional_iff]
  simp only [matches_sequence_cons_iff, matches_sequence_nil_iff, matches_blanks_iff,
    matches_char_iff, matches_run_iff]
  constructor
  · rintro (⟨f, ⟨gap, hgap, hf⟩, g, hg, h, ⟨inner, hinner, hh⟩, i, hi, rfl⟩ | rfl)
    · exact ⟨_, .present hgap hinner, ((hf.trans hg).trans hh).trans hi⟩
    · exact ⟨[], .absent, reads_nil_iff.mpr rfl⟩
  · rintro ⟨_, hnone | ⟨hgap, hinner⟩, hreads⟩
    · exact .inr (reads_nil_iff.mp hreads)
    · simp only [reads_append_iff] at hreads
      obtain ⟨h, ⟨g, ⟨f, hf, hg⟩, hh⟩, hi⟩ := hreads
      exact .inl ⟨f, ⟨_, hgap, hf⟩, g, hg, h, ⟨_, hinner, hh⟩, e, hi, rfl⟩

/-- A type reads a name, type arguments, the brackets of an array and a question mark. -/
theorem matches_typePattern_iff :
    Matches typePattern c e ↔ ∃ t, IsType t ∧ c.Reads t e := by
  constructor
  · intro h
    obtain ⟨f, hfirst, h⟩ := matches_sequence_cons_iff.mp h
    obtain ⟨g, hrun, h⟩ := matches_sequence_cons_iff.mp h
    obtain ⟨i, hangle, h⟩ := matches_sequence_cons_iff.mp h
    obtain ⟨j, hbracket, h⟩ := matches_sequence_cons_iff.mp h
    obtain ⟨k, hmark, h⟩ := matches_sequence_cons_iff.mp h
    obtain rfl := matches_sequence_nil_iff.mp h
    obtain ⟨x, hx, hf⟩ := matches_one_iff.mp hfirst
    obtain ⟨u, hu, hg⟩ := matches_run_iff.mp hrun
    obtain ⟨arguments, harguments, hi⟩ := matches_bracketed_iff.mp hangle
    obtain ⟨array, harray, hj⟩ := matches_bracketed_iff.mp hbracket
    have hname : IsTypeName ([x] ++ u) := ⟨x, u, rfl, hx, hu⟩
    have hreads := ((hf.trans hg).trans hi).trans hj
    rcases matches_optional_iff.mp hmark with hmark | rfl
    · exact ⟨_, ⟨_, _, _, _, hname, harguments, harray, .inl rfl, rfl⟩,
        hreads.trans (matches_char_iff.mp hmark)⟩
    · exact ⟨_, ⟨_, _, _, _, hname, harguments, harray, .inr rfl, rfl⟩,
        hreads.trans (reads_nil_iff.mpr rfl)⟩
  · rintro ⟨_, ⟨_, arguments, array, mark, ⟨x, u, rfl, hx, hu⟩, harguments, harray,
      hmark, rfl⟩, hreads⟩
    simp only [reads_append_iff] at hreads
    obtain ⟨j, ⟨i, ⟨g, hname, hi⟩, hj⟩, he⟩ := hreads
    obtain ⟨f, hf, hg⟩ := reads_append_iff (u := [x]).mp hname
    refine matches_sequence_cons_iff.mpr ⟨f, matches_one_iff.mpr ⟨x, hx, hf⟩, ?_⟩
    refine matches_sequence_cons_iff.mpr ⟨g, matches_run_iff.mpr ⟨u, hu, hg⟩, ?_⟩
    refine matches_sequence_cons_iff.mpr
      ⟨i, matches_bracketed_iff.mpr ⟨arguments, harguments, hi⟩, ?_⟩
    refine matches_sequence_cons_iff.mpr
      ⟨j, matches_bracketed_iff.mpr ⟨array, harray, hj⟩, ?_⟩
    refine matches_sequence_cons_iff.mpr
      ⟨e, matches_optional_iff.mpr ?_, matches_sequence_nil_iff.mpr rfl⟩
    rcases hmark with rfl | rfl
    · exact .inl (matches_char_iff.mpr he)
    · exact .inr (reads_nil_iff.mp he)

/-- The types are the language of their pattern: those texts that it matches from their
start to their end. -/
theorem matches_typePattern_start_iff {t : Text} :
    Matches typePattern (start t) ⟨t.reverse, []⟩ ↔ IsType t := by
  have hwhole : (start t).Reads t ⟨t.reverse, []⟩ := by
    have hreads := reads_mk [] t []
    rwa [List.append_nil, List.append_nil] at hreads
  rw [matches_typePattern_iff]
  constructor
  · rintro ⟨u, hu, hreads⟩
    have hrest : t = u ++ [] := hreads.rest_eq
    rwa [hrest, List.append_nil]
  · intro h
    exact ⟨t, h, hwhole⟩

/-- The modifiers are words of a list, each with blanks behind it. -/
theorem matches_modifiersPattern_iff :
    Matches modifiersPattern c e ↔ ∃ t, Repeats IsModifier t ∧ c.Reads t e := by
  refine matches_star_iff_repeats fun {c e} => ?_
  simp only [matches_seq_iff, matches_choice_iff, List.mem_map, matches_blanks1_iff]
  constructor
  · rintro ⟨f, ⟨_, ⟨m, hm, rfl⟩, hf⟩, gap, hne, hgap, he⟩
    exact ⟨_, ⟨m, hm, gap, hne, hgap, rfl⟩, (matches_literal_iff.mp hf).trans he⟩
  · rintro ⟨_, ⟨m, hm, gap, hne, hgap, rfl⟩, hreads⟩
    obtain ⟨f, hf, he⟩ := reads_append_iff.mp hreads
    exact ⟨f, ⟨_, ⟨m, hm, rfl⟩, matches_literal_iff.mpr hf⟩, gap, hne, hgap, he⟩

/-- The further attributes are brackets with anything but a bracket in them. -/
theorem matches_attributesPattern_iff :
    Matches attributesPattern c e ↔ ∃ t, Repeats IsAttribute t ∧ c.Reads t e := by
  refine matches_star_iff_repeats fun {c e} => ?_
  have hclass : "]".toList = [']'] := by decide
  simp only [matches_sequence_cons_iff, matches_sequence_nil_iff, matches_char_iff,
    matches_run_iff, matches_blanks_iff, hclass, CharClass.contains_noneOf,
    List.mem_singleton]
  constructor
  · rintro ⟨f, hf, g, ⟨inner, hinner, hg⟩, h, hh, i, ⟨gap, hgap, hi⟩, rfl⟩
    exact ⟨_, ⟨inner, gap, fun hmem => hinner _ hmem rfl, hgap, rfl⟩,
      ((hf.trans hg).trans hh).trans hi⟩
  · rintro ⟨_, ⟨inner, gap, hinner, hgap, rfl⟩, hreads⟩
    simp only [reads_append_iff] at hreads
    obtain ⟨h, ⟨g, ⟨f, hf, hg⟩, hh⟩, he⟩ := hreads
    refine ⟨f, hf, g, ⟨inner, ?_, hg⟩, h, hh, e, ⟨gap, hgap, he⟩, rfl⟩
    rintro x hx rfl
    exact hinner hx

/-- The tail is the brace, the semicolon or the sign that the body of a member starts
with. -/
theorem matches_tailPattern_iff : Matches tailPattern c e ↔ ∃ t ∈ tails, c.Reads t e := by
  have harrow : "=>".toList = ['=', '>'] := by decide
  rw [tailPattern, matches_choice_iff]
  simp [tails, harrow]

/-- The attribute of the dialect is an attribute, and no bracket closes before its end. -/
theorem exists_of_matches_attributePattern (hd : d.Accepted)
    (h : Matches d.attributePattern c e) :
    ∃ inner, ']' ∉ inner ∧ c.Reads (['['] ++ inner ++ [']']) e := by
  have hclass : "]".toList = [']'] := by decide
  have hblank : ∀ {w : Text}, w.IsBlank → ']' ∉ w :=
    fun hw hmem => absurd (hw _ hmem) (by decide)
  have hname : ']' ∉ d.inputAttribute := fun hmem =>
    absurd (isNameChar_of_mem hd.inputAttribute hmem) (by decide)
  obtain ⟨f, hopen, h⟩ := matches_sequence_cons_iff.mp h
  obtain ⟨g, hg, h⟩ := matches_sequence_cons_iff.mp h
  obtain ⟨i, hi, h⟩ := matches_sequence_cons_iff.mp h
  obtain ⟨j, hj, h⟩ := matches_sequence_cons_iff.mp h
  obtain ⟨k, hk, h⟩ := matches_sequence_cons_iff.mp h
  obtain ⟨l, hl, h⟩ := matches_sequence_cons_iff.mp h
  obtain ⟨n, hclose, h⟩ := matches_sequence_cons_iff.mp h
  obtain rfl := matches_sequence_nil_iff.mp h
  obtain ⟨w, hw, hg⟩ := matches_blanks_iff.mp hg
  obtain ⟨w', hw', hj⟩ := matches_blanks_iff.mp hj
  obtain ⟨w'', hw'', hl⟩ := matches_blanks_iff.mp hl
  -- The arguments may hold parentheses, but the pattern stops at a closing bracket.
  obtain ⟨arguments, harguments, hreads⟩ : ∃ u, ']' ∉ u ∧ j.Reads u k := by
    rcases matches_optional_iff.mp hk with hk | rfl
    · simp only [matches_sequence_cons_iff, matches_sequence_nil_iff, matches_char_iff,
        matches_run_iff, hclass, CharClass.contains_noneOf, List.mem_singleton] at hk
      obtain ⟨p, hp, q, ⟨u, hu, hq⟩, r, hr, rfl⟩ := hk
      refine ⟨_, ?_, (hp.trans hq).trans hr⟩
      have hinner : ']' ∉ u := fun hmem => hu _ hmem rfl
      simp [hinner]
    · exact ⟨[], by simp, reads_nil_iff.mpr rfl⟩
  have hinside :=
    (((hg.trans (matches_literal_iff.mp hi)).trans hj).trans hreads).trans hl
  refine ⟨_, ?_, ((matches_char_iff.mp hopen).trans hinside).trans
    (matches_char_iff.mp hclose)⟩
  simp [hblank hw, hblank hw', hblank hw'', hname, harguments]

/-- The attribute of the dialect as it is usually written. -/
theorem matches_attributePattern_of_reads
    (h : c.Reads (['['] ++ d.inputAttribute ++ [']']) e) :
    Matches d.attributePattern c e := by
  obtain ⟨g, hg, he⟩ := reads_append_iff.mp h
  obtain ⟨f, hf, hg⟩ := reads_append_iff.mp hg
  have hnone : ∀ c, Matches (blanks : Pattern DeclarationPart) c c := fun c =>
    matches_blanks_iff.mpr ⟨[], by simp, reads_nil_iff.mpr rfl⟩
  refine matches_sequence_cons_iff.mpr ⟨f, matches_char_iff.mpr hf, ?_⟩
  refine matches_sequence_cons_iff.mpr ⟨f, hnone f, ?_⟩
  refine matches_sequence_cons_iff.mpr ⟨g, matches_literal_iff.mpr hg, ?_⟩
  refine matches_sequence_cons_iff.mpr ⟨g, hnone g, ?_⟩
  refine matches_sequence_cons_iff.mpr ⟨g, matches_optional_iff.mpr (.inr rfl), ?_⟩
  refine matches_sequence_cons_iff.mpr ⟨g, hnone g, ?_⟩
  exact matches_sequence_cons_iff.mpr
    ⟨e, matches_char_iff.mpr he, matches_sequence_nil_iff.mpr rfl⟩

/-! ## The whole -/

/-- What stands before the type of a declaration. -/
def beforeType (d : Dialect) : List (Pattern DeclarationPart) :=
  [d.attributePattern, blanks, attributesPattern, modifiersPattern]

/-- What stands before the tail of a declaration. -/
def beforeTail (d : Dialect) : List (Pattern DeclarationPart) :=
  d.beforeType ++ group .type typePattern
    :: ([blanks1] ++ group .name namePattern :: [blanks])

/-- A declaration of a name with a type, up to and including its tail. -/
inductive IsDeclaration : (t type name tail : Text) → Prop where
  | mk {attributes modifiers type gap name gap' tail : Text}
      (hattributes : Repeats IsAttribute attributes)
      (hmodifiers : Repeats IsModifier modifiers) (htype : IsType type) (hne : gap ≠ [])
      (hgap : gap.IsBlank) (hname : name.IsIdentifier) (hgap' : gap'.IsBlank)
      (htail : tail ∈ tails) :
      IsDeclaration (attributes ++ modifiers ++ type ++ gap ++ name ++ gap' ++ tail)
      type name tail

/-- A declared name is an identifier, by the pattern alone: the dialect has no say in
it. -/
theorem IsDeclaration.isIdentifier {t type name tail : Text}
    (h : IsDeclaration t type name tail) : name.IsIdentifier := by
  obtain ⟨-, -, -, -, -, hname, -, -⟩ := h
  exact hname

/-- What stands before the type of a declaration: attributes, of which the first is that
of the dialect, and modifiers. -/
theorem exists_of_matches_beforeType (hd : d.Accepted)
    (h : Matches (Pattern.sequence d.beforeType) c e) :
    ∃ attributes modifiers, Repeats IsAttribute attributes ∧
      Repeats IsModifier modifiers ∧
      attributes.head? = some '[' ∧ c.Reads (attributes ++ modifiers) e := by
  obtain ⟨f, hf, h⟩ := matches_sequence_cons_iff.mp h
  obtain ⟨g, hg, h⟩ := matches_sequence_cons_iff.mp h
  obtain ⟨i, hi, h⟩ := matches_sequence_cons_iff.mp h
  obtain ⟨j, hj, h⟩ := matches_sequence_cons_iff.mp h
  obtain rfl := matches_sequence_nil_iff.mp h
  obtain ⟨inner, hinner, hf⟩ := exists_of_matches_attributePattern hd hf
  obtain ⟨gap, hgap, hg⟩ := matches_blanks_iff.mp hg
  obtain ⟨attributes, hattributes, hi⟩ := matches_attributesPattern_iff.mp hi
  obtain ⟨modifiers, hmodifiers, hj⟩ := matches_modifiersPattern_iff.mp hj
  exact ⟨_, modifiers, .cons ⟨inner, gap, hinner, hgap, rfl⟩ hattributes,
    hmodifiers, by simp, ((hf.trans hg).trans hi).trans hj⟩

/-- The pattern of a declaration looks at no end of the text. -/
theorem isRegular_declarationPattern : d.declarationPattern.isRegular = true := by
  simp [declarationPattern, attributePattern, attributesPattern, modifiersPattern,
    modifiers, choice, typePattern, namePattern, tailPattern, blanks, blanks1, run1,
    Pattern.optional, Pattern.sequence, char, isRegular, canBeEmpty, literal]
  exact isRegular_literal d.inputAttribute

/-- Nor does the pattern for the head of the entry method. -/
theorem isRegular_entryHeadPattern : d.entryHeadPattern.isRegular = true := by
  simp [entryHeadPattern, blanks, blanks1, run1, boundary, Pattern.sequence,
    char, isRegular]

/-- The head of an entry method is not empty. -/
theorem canBeEmpty_entryHeadPattern : d.entryHeadPattern.canBeEmpty = false := by
  simp [entryHeadPattern, Pattern.sequence, char, canBeEmpty]

/-- The stretches before the tail, with the places that have been recorded there. -/
theorem exists_of_mem_outcomes_beforeTail {o : Outcome DeclarationPart}
    (h : o ∈ (Pattern.sequence d.beforeTail).outcomes c []) :
    ∃ f g h i, Matches (Pattern.sequence d.beforeType) c f ∧ Matches typePattern f g ∧
      Matches (blanks1 : Pattern DeclarationPart) g h ∧
      Matches (namePattern : Pattern DeclarationPart) h i ∧
      Matches (blanks : Pattern DeclarationPart) i o.1 ∧
      o.2 = [(.name, h, i), (.type, f, g)] := by
  have hbefore : (Pattern.sequence d.beforeType).groupFree = true := by
    simp [beforeType, attributePattern, attributesPattern, modifiersPattern, modifiers,
      choice, blanks, blanks1, run1, Pattern.optional, Pattern.sequence, char, groupFree]
  obtain ⟨f, g, hf, hg, ho⟩ := (mem_outcomes_sequence_group_iff hbefore (by rfl)).mp h
  obtain ⟨h, i, hh, hi, ho⟩ := (mem_outcomes_sequence_group_iff (by rfl) (by rfl)).mp ho
  obtain ⟨hj, hgroups⟩ := (mem_outcomes_iff_of_groupFree (by rfl)).mp ho
  obtain ⟨k, hk, hnil⟩ := matches_sequence_cons_iff.mp hh
  obtain ⟨l, hl, hnil'⟩ := matches_sequence_cons_iff.mp hj
  obtain rfl := matches_sequence_nil_iff.mp hnil
  rw [matches_sequence_nil_iff] at hnil'
  rw [hnil']
  exact ⟨f, g, h, i, hf, hg, hk, hi, hl, hgroups⟩

/-- The place of a tail is recorded in front of the others. -/
theorem outcomes_sequence_tail (c : Cursor) (g : Groups DeclarationPart) :
    (Pattern.sequence [group .tail tailPattern]).outcomes c g =
      (tailPattern.outcomes c g).map fun o => (o.1, (.tail, c, o.1) :: o.2) := by
  rw [List.map_eq_flatMap]
  simp [Pattern.sequence, outcomes, List.flatMap_map]

/-- Every match ends with its tail, so the text behind the match is the text behind the
tail. -/
theorem exists_tail_of_matchAt_eq_some {m : Match DeclarationPart}
    (h : d.declarationPattern.matchAt c = some m) :
    ∃ f, ∃ t ∈ tails, m.group? .tail = some (f, m.stop) ∧ f.Reads t m.stop := by
  obtain ⟨-, hmem⟩ := mem_outcomes_of_matchAt_eq_some h
  have hsplit : d.declarationPattern =
      Pattern.sequence (d.beforeTail ++ [group .tail tailPattern]) := rfl
  rw [hsplit, outcomes_sequence_append, List.mem_flatMap] at hmem
  obtain ⟨o, -, hmem⟩ := hmem
  rw [outcomes_sequence_tail, List.mem_map] at hmem
  obtain ⟨o', ho', heq⟩ := hmem
  obtain ⟨hstop, hgroups⟩ := Prod.mk.inj heq
  obtain ⟨t, ht, hreads⟩ := matches_tailPattern_iff.mp (matches_of_mem_outcomes ho')
  refine ⟨o.1, t, ht, ?_, hstop ▸ hreads⟩
  rw [Match.group?, ← hgroups, hstop]
  rfl

/-- The preferred tail is an arrow, where there is one. -/
theorem exists_tail_of_head? {g : Groups DeclarationPart} {o : Outcome DeclarationPart}
    (h : (tailPattern.outcomes c g).head? = some o) :
    ∃ t ∈ tails, c.Reads t o.1 ∧ (t = ['='] → o.1.rest.head? ≠ some '>') ∧ o.2 = g := by
  have hmem := List.mem_of_mem_head? h
  obtain ⟨t, ht, hreads⟩ := matches_tailPattern_iff.mp (matches_of_mem_outcomes hmem)
  refine ⟨t, ht, hreads, ?_, eq_of_mem_outcomes (by rfl) hmem⟩
  -- If a `>` followed, the arrow would have been tried first, and its end is another one.
  rintro rfl harrow
  obtain ⟨r, hr⟩ : ∃ r, o.1.rest = '>' :: r := by
    cases hrest : o.1.rest with
    | nil => simp [hrest] at harrow
    | cons y r =>
      obtain rfl : y = '>' := by simpa [hrest] using harrow
      exact ⟨r, rfl⟩
  have hliteral : "=>".toList = ['=', '>'] := by decide
  have hc : c.rest = '=' :: '>' :: r := by
    rw [hreads.rest_eq, hr]
    rfl
  rw [tailPattern, hliteral] at h
  simp [choice, char, literal, outcomes, hc, CharClass.contains] at h
  rw [← h] at hr
  simpa using congrArg List.length hr

/-- **The preferred match of a declaration** reads a declaration and records its parts.
Of the tails `=>` and `=` it reads the longer. -/
theorem exists_of_matchAt_declarationPattern (hd : d.Accepted) {m : Match DeclarationPart}
    (h : d.declarationPattern.matchAt c = some m) :
    ∃ t type name tail, IsDeclaration t type name tail ∧ t.head? = some '[' ∧
      c.Reads t m.stop ∧
      (tail = ['='] → m.stop.rest.head? ≠ some '>') ∧ m.groupText? .type = some type ∧
      m.groupText? .name = some name ∧ m.groupText? .tail = some tail := by
  rw [matchAt_eq, Option.map_eq_some_iff] at h
  obtain ⟨o, ho, rfl⟩ := h
  have hsplit : d.declarationPattern =
      Pattern.sequence (d.beforeTail ++ [group .tail tailPattern]) := rfl
  -- The preferred outcome comes from the first way of reading what stands before the
  -- tail.
  rw [hsplit, outcomes_sequence_append, List.head?_flatMap] at ho
  obtain ⟨o', ho', htail⟩ := List.exists_of_findSome?_eq_some ho
  obtain ⟨f, g, k, i, hf, hg, hk, hi, hj, hgroups⟩ :=
    exists_of_mem_outcomes_beforeTail ho'
  rw [outcomes_sequence_tail, List.head?_map, Option.map_eq_some_iff] at htail
  obtain ⟨o'', ho'', rfl⟩ := htail
  obtain ⟨tail, htail, hreads, hlonger, hkept⟩ := exists_tail_of_head? ho''
  obtain ⟨attributes, modifiers, hattributes, hmodifiers, hbracket, hcf⟩ :=
    exists_of_matches_beforeType hd hf
  obtain ⟨type, htype, hfg⟩ := matches_typePattern_iff.mp hg
  obtain ⟨gap, hne, hgap, hgk⟩ := matches_blanks1_iff.mp hk
  obtain ⟨name, hname, hki⟩ := matches_namePattern_iff.mp hi
  obtain ⟨gap', hgap', hij⟩ := matches_blanks_iff.mp hj
  refine ⟨_, type, name, tail,
    .mk hattributes hmodifiers htype hne hgap hname hgap' htail, ?_,
    ((((hcf.trans hfg).trans hgk).trans hki).trans hij).trans hreads, hlonger, ?_, ?_, ?_⟩
  · simp [hbracket]
  all_goals
    rw [Match.groupText?, Match.group?, hkept, hgroups]
  · exact congrArg some hfg.textTo_eq
  · exact congrArg some hki.textTo_eq
  · exact congrArg some hreads.textTo_eq

/-- **The parameter of a declaration**: the default is the one that the declaration
gives, and if there is none, the value that the strategy assigns to the name. -/
theorem parameterOf_eq {m : Match DeclarationPart} {type name tail : Text}
    (htype : m.groupText? .type = some type) (hname : m.groupText? .name = some name)
    (htail : m.groupText? .tail = some tail) (source : Text) (bodies : List Span) :
    parameterOf source bodies m =
      some ⟨name, normalizeType type,
        (inlineDefault? tail m.stop.rest).or (Assignment.find name bodies source)⟩ := by
  cases hinline : inlineDefault? tail m.stop.rest with
  | none => simp [parameterOf, htype, hname, htail, hinline]
  | some value => simp [parameterOf, htype, hname, htail, hinline]

end Dialect

end StrategyDialect
