import StrategyDialect.Proofs.Strategy.Assignments
import StrategyDialect.Proofs.Strategy.Unambiguity

/-!
# Well-formed parameters

A parameter that is read from a strategy is well formed, and every part of it comes from
the text (`Dialect.parameters_wellFormed`).  The strategy may look like anything:
declarations may be cut off, and blocks may be left open.

The matches of a search do not overlap, so each declaration has a stretch of the text to
itself, and the declarations keep their order.  A type is a type before it is
normalized, and normalization removes blanks and puts one space behind each comma, which
it would remove and put there again.  A default comes from one of three places: the
initializer of a field, the initializer behind a block of accessors, and an assignment
somewhere in the text.  In all of them it is what `Assignment.valueBeforeSemicolon?`
reads behind a sign.

## Main definitions

* `Text.IsSpaced`: texts in which blanks are single spaces behind commas
* `Dialect.IsDefaultIn`: values as they stand in a text
* `Dialect.IsWellFormed`: what holds of each parameter of a strategy
* `Dialect.IsDeclaredAt`: the stretch of a text that declares a parameter

## Main statements

* `Dialect.normalizeType_normalizeType`: a normalized type is left alone
* `Dialect.parameters_wellFormed`: the parameters of a strategy are well formed
-/

namespace StrategyDialect

namespace Text

/-! ### Blanks behind commas -/

/-- A text whose blanks are spaces that stand behind a comma.  No comma lacks its
space. -/
def IsSpaced (t : Text) : Prop :=
  ∀ (before : Text) (c : Char) (after : Text), t = before ++ c :: after →
    (isBlank c = true → c = ' ' ∧ before.getLast? = some ',') ∧
    (c = ',' → after.head? = some ' ')

variable {t : Text} {c x : Char}

/-- The empty text has no blanks. -/
theorem isSpaced_nil : IsSpaced [] := by
  intro before c after h
  simp at h

/-- A visible character that is no comma may stand anywhere. -/
theorem IsSpaced.cons (h : IsSpaced t) (hblank : isBlank c = false) (hcomma : c ≠ ',') :
    IsSpaced (c :: t) := by
  intro before x after ht
  cases before with
  | nil =>
    obtain ⟨rfl, -⟩ := List.cons.inj ht
    exact ⟨fun hx => by simp [hblank] at hx, fun hx => absurd hx hcomma⟩
  | cons y before =>
    obtain ⟨hspace, hnext⟩ := h before x after (List.cons.inj ht).2
    refine ⟨fun hx => ?_, hnext⟩
    obtain ⟨rfl, hlast⟩ := hspace hx
    exact ⟨rfl, by rw [List.getLast?_cons, hlast]; rfl⟩

/-- A comma comes with one space behind it. -/
theorem IsSpaced.comma_cons (h : IsSpaced t) : IsSpaced (',' :: ' ' :: t) := by
  intro before x after ht
  match before with
  | [] =>
    obtain ⟨rfl, rfl⟩ := List.cons.inj ht
    exact ⟨fun hx => absurd hx (by decide), fun _ => rfl⟩
  | [y] =>
    obtain ⟨rfl, hspace⟩ := List.cons.inj ht
    obtain ⟨rfl, -⟩ := List.cons.inj hspace
    exact ⟨fun _ => ⟨rfl, rfl⟩, fun hx => absurd hx (by decide)⟩
  | y :: z :: before =>
    obtain ⟨hspace, hnext⟩ := h before x after (List.cons.inj (List.cons.inj ht).2).2
    refine ⟨fun hx => ?_, hnext⟩
    obtain ⟨rfl, hlast⟩ := hspace hx
    exact ⟨rfl, by rw [List.getLast?_cons, List.getLast?_cons, hlast]; rfl⟩

/-! ### Characters of types -/

/-- A visible character is in a group in brackets only if it is one of the brackets or
allowed between them. -/
theorem IsBracketed.not_mem {opening closing : Char} {k : CharClass}
    (h : IsBracketed opening closing k t) (hblank : isBlank x = false)
    (hk : k.contains x = false) (hopening : x ≠ opening) (hclosing : x ≠ closing) :
    x ∉ t := by
  cases h with
  | absent => simp
  | @present gap inner hgap hinner =>
    have hgap' : x ∉ gap := fun hx => by simp [hgap x hx] at hblank
    have hinner' : x ∉ inner := fun hx => by simp [hinner x hx] at hk
    simp [hgap', hinner', hopening, hclosing]

/-- No type holds a semicolon or a brace: names have word characters, and the groups of
a type have brackets of other kinds. -/
theorem IsType.not_mem (h : IsType t) (hx : x ∈ [';', '{', '}']) : x ∉ t := by
  have hmarks : ∀ x ∈ [';', '{', '}'], isBlank x = false ∧ typeClass.contains x = false ∧
      argumentClass.contains x = false ∧ CharClass.blank.contains x = false ∧
      x ∉ ['<', '>', '[', ']', '?'] := by
    decide
  obtain ⟨hblank, hclass, hargument, hspace, hother⟩ := hmarks x hx
  simp only [List.mem_cons, List.not_mem_nil, or_false, not_or] at hother
  obtain ⟨name, arguments, array, mark, hname, harguments, harray, hmark, rfl⟩ := h
  have hname' : x ∉ name := fun hmem => by simp [hname.contains hmem] at hclass
  have harguments' := harguments.not_mem hblank hargument hother.1 hother.2.1
  have harray' := harray.not_mem hblank hspace hother.2.2.1 hother.2.2.2.1
  have hmark' : x ∉ mark := by
    rcases hmark with rfl | rfl <;> simp [hother]
  simp [hname', harguments', harray', hmark']

end Text

namespace Dialect

open Text Cursor Pattern

variable {d : Dialect} {t u v source tail rest : Text} {c x : Char}

/-! ### Normalized types -/

/-- Normalization drops a blank. -/
theorem normalizeType_cons_of_isBlank (hc : isBlank c = true) :
    normalizeType (c :: t) = normalizeType t := by
  simp [normalizeType, hc]

/-- Normalization puts a space behind a comma. -/
theorem normalizeType_comma_cons :
    normalizeType (',' :: t) = ',' :: ' ' :: normalizeType t := by
  have hcomma : isBlank ',' = false := by decide
  have hpair : ", ".toList = [',', ' '] := by decide
  simp [normalizeType, hcomma, hpair]

/-- Normalization keeps a visible character that is no comma. -/
theorem normalizeType_cons (hblank : isBlank c = false) (hcomma : c ≠ ',') :
    normalizeType (c :: t) = c :: normalizeType t := by
  simp [normalizeType, hblank, hcomma]

/-- Normalization goes through a text character by character: what holds of the empty
text and is kept by the three cases of a character holds of each text and its normal
form. -/
@[elab_as_elim]
theorem normalizeType_induction {motive : Text → Text → Prop} (nil : motive [] [])
    (blank : ∀ c t, isBlank c = true → motive t (normalizeType t) → motive (c :: t)
      (normalizeType t))
    (comma : ∀ t, motive t (normalizeType t) → motive (',' :: t)
      (',' :: ' ' :: normalizeType t))
    (other : ∀ c t, isBlank c = false → c ≠ ',' → motive t (normalizeType t) →
      motive (c :: t) (c :: normalizeType t))
    (t : Text) : motive t (normalizeType t) := by
  induction t with
  | nil => exact nil
  | cons c t ih =>
    cases hblank : isBlank c with
    | true =>
      rw [normalizeType_cons_of_isBlank hblank]
      exact blank c t hblank ih
    | false =>
      by_cases hcomma : c = ','
      · subst hcomma
        rw [normalizeType_comma_cons]
        exact comma t ih
      · rw [normalizeType_cons hblank hcomma]
        exact other c t hblank hcomma ih

/-- In a normalized type, blanks are single spaces behind commas. -/
theorem isSpaced_normalizeType (t : Text) : IsSpaced (normalizeType t) := by
  induction t using normalizeType_induction with
  | nil => exact isSpaced_nil
  | blank c t _ ih => exact ih
  | comma t ih => exact ih.comma_cons
  | other c t hblank hcomma ih => exact ih.cons hblank hcomma

/-- **A normalized type** is left alone: what is removed is put there again. -/
theorem normalizeType_normalizeType (t : Text) :
    normalizeType (normalizeType t) = normalizeType t := by
  induction t using normalizeType_induction with
  | nil => rfl
  | blank c t _ ih => exact ih
  | comma t ih =>
    rw [normalizeType_comma_cons, normalizeType_cons_of_isBlank (by decide), ih]
  | other c t hblank hcomma ih => rw [normalizeType_cons hblank hcomma, ih]

/-- Normalization adds spaces and nothing else. -/
theorem mem_or_eq_of_mem_normalizeType (h : x ∈ normalizeType t) : x ∈ t ∨ x = ' ' := by
  rw [normalizeType, List.mem_flatMap] at h
  obtain ⟨y, hy, hx⟩ := h
  have hmem := List.mem_of_mem_filter hy
  split at hx
  next hcomma =>
    have hpair : ", ".toList = [',', ' '] := by decide
    rw [hpair] at hx
    rcases List.mem_cons.mp hx with rfl | hx
    · exact .inl (hcomma ▸ hmem)
    · exact .inr (List.mem_singleton.mp hx)
  next =>
    obtain rfl := List.mem_singleton.mp hx
    exact .inl hmem

/-- A normalized type starts as the type did, with a letter or the low line. -/
theorem exists_normalizeType_eq (h : IsType t) :
    ∃ x u, normalizeType t = x :: u ∧ CharClass.asciiNameStart.contains x = true := by
  obtain ⟨_, arguments, array, mark, ⟨x, u, rfl, hx, -⟩, -, -, -, rfl⟩ := h
  have hcomma : x ≠ ',' := by
    rintro rfl
    exact absurd hx (by decide)
  exact ⟨x, _, normalizeType_cons (isBlank_eq_false_of_asciiNameStart hx) hcomma, hx⟩

/-! ### Defaults -/

/-- A default as it stands in a text: something visible, without blanks at its ends and
without a semicolon, between an equals sign or an arrow and a semicolon, blanks
aside. -/
structure IsDefaultIn (source v : Text) : Prop where
  ne_nil : v ≠ []
  trim_eq : trim v = v
  semicolon_not_mem : ';' ∉ v
  stands : ∃ before sign w w' after : Text,
    sign ∈ ["=".toList, "=>".toList] ∧ w.IsBlank ∧ w'.IsBlank ∧
    source = before ++ sign ++ w ++ v ++ w' ++ ';' :: after

/-- Each default is read up to a semicolon, behind a sign. -/
theorem isDefaultIn_of_valueBeforeSemicolon? {before sign : Text}
    (hsign : sign ∈ ["=".toList, "=>".toList]) (hsource : source = before ++ sign ++ rest)
    (h : Assignment.valueBeforeSemicolon? rest = some v) : IsDefaultIn source v := by
  obtain ⟨written, after, rfl, hsemicolon, hvisible, rfl⟩ :=
    Assignment.valueBeforeSemicolon?_eq_some_iff.mp h
  obtain ⟨w, w', hw, hw', hwritten⟩ := exists_eq_append_trim written
  refine ⟨fun hnil => hvisible (trim_eq_nil_iff.mp hnil), trim_trim written,
    fun hmem => hsemicolon ?_, ?_⟩
  · rw [hwritten]
    simp [hmem]
  · refine ⟨before, sign, w, w', after, hsign, hw, hw', ?_⟩
    calc source
        = before ++ sign ++ (w ++ trim written ++ w' ++ ';' :: after) := by
          rw [hsource, ← hwritten]
      _ = before ++ sign ++ w ++ trim written ++ w' ++ ';' :: after := by
        simp only [List.append_assoc]

/-- A value that is assigned stands in the text behind an equals sign. -/
theorem isDefaultIn_of_assigns {before : Text} (hsource : source = before ++ rest)
    (h : Assignment.Assigns rest v) : IsDefaultIn source v := by
  obtain ⟨gap, written, after, rfl, -, -, -, hsemicolon, hvisible, rfl⟩ := h
  refine isDefaultIn_of_valueBeforeSemicolon? (List.mem_cons_self ..)
    (?_ : source = before ++ gap ++ "=".toList ++ _)
    (Assignment.valueBeforeSemicolon?_eq_some_iff.mpr
      ⟨written, after, rfl, hsemicolon, hvisible, rfl⟩)
  have hequals : "=".toList = ['='] := by decide
  simp [hsource, hequals]

/-- A default in a declaration stands behind its arrow or equals sign, or behind its
accessors. -/
theorem isDefaultIn_of_inlineDefault? {before : Text} (htail : tail ∈ tails)
    (hsource : source = before ++ tail ++ rest) (h : inlineDefault? tail rest = some v) :
    IsDefaultIn source v := by
  rw [inlineDefault?] at h
  split at h
  next =>
    obtain ⟨n, -, hvalue⟩ := Option.bind_eq_some_iff.mp h
    refine isDefaultIn_of_assigns (?_ : source = before ++ (tail ++ rest).take n ++ _)
      (Assignment.value?_eq_some_iff.mp hvalue)
    rw [hsource, List.append_assoc, List.append_assoc, List.take_append_drop]
  next hbrace =>
    split at h
    next => cases h
    next hsemicolon =>
      -- The tails that are left are the two signs.
      have hsign : tail ∈ ["=".toList, "=>".toList] := by
        have hcases : ∀ tail ∈ tails, tail ≠ ['{'] → tail ≠ [';'] →
            tail ∈ ["=".toList, "=>".toList] := by decide
        exact hcases tail htail hbrace hsemicolon
      exact isDefaultIn_of_valueBeforeSemicolon? hsign hsource h

/-- A default from the search is assigned where it stands. -/
theorem isDefaultIn_of_find {name : Text} {spans : List Span}
    (h : Assignment.find name spans source = some v) : IsDefaultIn source v := by
  rw [Assignment.find_eq] at h
  obtain ⟨⟨before, after⟩, hsite, hassigned⟩ := Option.bind_eq_some_iff.mp h
  obtain ⟨-, -, -, -, hassigns⟩ := Assignment.assignedAt?_eq_some_iff.mp hassigned
  exact isDefaultIn_of_assigns (Assignment.eq_append_of_site? hsite) hassigns

/-! ### Parameters -/

/-- What holds of each parameter of a strategy: its name is a name, its type is
normalized and starts like a name, and its default stands in the text. -/
structure IsWellFormed (source : Text) (p : Parameter) : Prop where
  name : p.name.IsIdentifier
  typeStart : ∃ x u, p.declaredType = x :: u ∧ CharClass.asciiNameStart.contains x = true
  typePlain : ∀ x ∈ [';', '{', '}'], x ∉ p.declaredType
  typeSpaced : p.declaredType.IsSpaced
  typeNormal : normalizeType p.declaredType = p.declaredType
  default : ∀ v ∈ p.defaultValue, IsDefaultIn source v

/-- A stretch of a text that declares a parameter.  It starts with a bracket, blanks and
the attribute of the dialect. -/
def IsDeclaredAt (d : Dialect) (source : Text) (s : Span) (p : Parameter) : Prop :=
  ∃ before t after type tail : Text,
    source = before ++ t ++ after ∧ s = ⟨before.length, before.length + t.length⟩ ∧
    (∃ w u : Text, w.IsBlank ∧ t = '[' :: (w ++ d.inputAttribute ++ u)) ∧
    IsDeclaration t type p.name tail ∧
    p.declaredType = normalizeType type

/-- A declaration starts with the attribute of the dialect. -/
theorem exists_inputAttribute_of_matches {c e : Cursor}
    (h : Matches d.declarationPattern c e) :
    ∃ w u : Text, w.IsBlank ∧ c.Reads ('[' :: (w ++ d.inputAttribute ++ u)) e := by
  obtain ⟨f, hattribute, hafter⟩ := matches_sequence_cons_iff.mp h
  obtain ⟨g, hopen, hattribute⟩ := matches_sequence_cons_iff.mp hattribute
  obtain ⟨i, hgap, hattribute⟩ := matches_sequence_cons_iff.mp hattribute
  obtain ⟨j, hname, hclose⟩ := matches_sequence_cons_iff.mp hattribute
  obtain ⟨w, hw, hwi⟩ := matches_blanks_iff.mp hgap
  obtain ⟨u, hu⟩ := hclose.exists_reads
  obtain ⟨u', hu'⟩ := hafter.exists_reads
  refine ⟨w, u ++ u', hw, ?_⟩
  have hreads :=
    ((((matches_char_iff.mp hopen).trans hwi).trans (matches_literal_iff.mp hname)).trans
      hu).trans hu'
  simpa using hreads

/-- **Each declaration** declares a parameter, which is well formed. -/
theorem exists_parameterOf_eq_some (hd : d.Accepted) {m : Match DeclarationPart}
    (hm : m ∈ d.declarationPattern.matchesIn source) (bodies : List Span) :
    ∃ p, parameterOf source bodies m = some p ∧
      d.IsDeclaredAt source ⟨m.start.offset, m.stop.offset⟩ p ∧
      IsWellFormed source p := by
  obtain ⟨htext, hat⟩ := matchAt_of_mem_matchesIn hm
  obtain ⟨t, type, name, tail, hdeclaration, -, hreads, -, htype, hname, htail⟩ :=
    exists_of_matchAt_declarationPattern hd hat
  -- What is matched starts with the bracket of the attribute, so it is the same stretch.
  obtain ⟨w, u, hw, hreads'⟩ :=
    exists_inputAttribute_of_matches (matches_of_matchAt_eq_some hat)
  have ht : t = '[' :: (w ++ d.inputAttribute ++ u) :=
    hreads.textTo_eq.symm.trans hreads'.textTo_eq
  have hsource : source = m.start.before.reverse ++ t ++ m.stop.rest := by
    rw [← htext, text_eq_append, hreads.rest_eq, List.append_assoc]
  obtain ⟨front, hfront, htypes, hidentifier, htails⟩ :
      ∃ front, t = front ++ tail ∧ IsType type ∧ name.IsIdentifier ∧ tail ∈ tails := by
    obtain ⟨-, -, htypes, -, -, hidentifier, -, htails⟩ := hdeclaration
    exact ⟨_, rfl, htypes, hidentifier, htails⟩
  -- The default is in the declaration, or it is assigned somewhere in the source.
  have hdefault :
      ∀ v ∈ (inlineDefault? tail m.stop.rest).or (Assignment.find name bodies source),
      IsDefaultIn source v := by
    intro v hv
    rcases Option.or_eq_some_iff.mp hv with hinline | ⟨-, hfind⟩
    · refine isDefaultIn_of_inlineDefault? htails
        (?_ : source = m.start.before.reverse ++ front ++ tail ++ _) hinline
      rw [hsource, hfront, List.append_assoc, List.append_assoc, List.append_assoc,
        List.append_assoc]
    · exact isDefaultIn_of_find hfind
  refine ⟨_, parameterOf_eq htype hname htail source bodies, ?_, hidentifier,
    exists_normalizeType_eq htypes, ?_, isSpaced_normalizeType type,
    normalizeType_normalizeType type, hdefault⟩
  · refine ⟨_, t, _, type, tail, hsource, ?_, ⟨w, u, hw, ht⟩, hdeclaration, rfl⟩
    rw [hreads.offset_eq, List.length_reverse]
    rfl
  · intro x hx hmem
    rcases mem_or_eq_of_mem_normalizeType hmem with hmem | rfl
    · exact htypes.not_mem hx hmem
    · exact absurd hx (by decide)

/-- A relation between what is read from the items of a list and the items that a
function finds there. -/
private theorem forall₂_filterMap {α β γ : Type} {R : γ → β → Prop} {f : α → Option β}
    {g : α → γ} {l : List α} (h : ∀ a ∈ l, ∃ b, f a = some b ∧ R (g a) b) :
    List.Forall₂ R (l.map g) (l.filterMap f) := by
  induction l with
  | nil => exact .nil
  | cons a l ih =>
    obtain ⟨b, hb, hR⟩ := h a List.mem_cons_self
    rw [List.map_cons, List.filterMap_cons, hb]
    exact .cons hR (ih fun a ha => h a (List.mem_cons_of_mem _ ha))

/-- **The parameters of a strategy** are well formed and come from the text: each has a
stretch of the text to itself, in the order of the parameters.  So no declaration is
read twice, and no name, type or default is one that the strategy does not hold. -/
theorem parameters_wellFormed (hcheck : d.check = .ok ()) (source : Text) :
    (∃ spans : List Span, List.Forall₂ (d.IsDeclaredAt source) spans
      (d.parameters source) ∧
        spans.Pairwise fun s s' => s.stop ≤ s'.start) ∧
      ∀ p ∈ d.parameters source, IsWellFormed source p := by
  have hd : d.Accepted := check_eq_ok_iff.mp hcheck
  have heach : ∀ m ∈ d.declarationPattern.matchesIn source, ∃ p,
      parameterOf source (d.entryBodies source) m = some p ∧
        d.IsDeclaredAt source ⟨m.start.offset, m.stop.offset⟩ p ∧ IsWellFormed source p :=
    fun m hm => exists_parameterOf_eq_some hd hm (d.entryBodies source)
  refine ⟨⟨(d.declarationPattern.matchesIn source).map fun m =>
    ⟨m.start.offset, m.stop.offset⟩, ?_, ?_⟩, ?_⟩
  · refine forall₂_filterMap fun m hm => ?_
    obtain ⟨p, hp, hdeclared, -⟩ := heach m hm
    exact ⟨p, hp, hdeclared⟩
  · exact List.pairwise_map.mpr (pairwise_matchesIn _ source)
  · intro p hp
    obtain ⟨m, hm, hparameter⟩ := List.mem_filterMap.mp hp
    obtain ⟨p', hp', -, hwell⟩ := heach m hm
    obtain rfl := Option.some.inj (hp'.symm.trans hparameter)
    exact hwell

/-- A strategy with a block that is left open, a type over two lines and defaults of
each kind. -/
theorem parameters_wellFormed_openBlock :
    let source : Text :=
      ("[ Input ] Map< string\n,int > Table =\n null ;[Input(1)] [Group] public int Size \x7b get; \x7d = 3;\n" ++
        "[Input]double? Level \x7b get; void Setup() \x7b this.Level = 2.5 ;").toList
    powerLanguage.check = .ok () ∧
      (∃ spans : List Span, List.Forall₂ (powerLanguage.IsDeclaredAt source) spans
          [⟨"Table".toList, "Map<string, int>".toList, some "null".toList⟩,
           ⟨"Size".toList, "int".toList, some "3".toList⟩,
             ⟨"Level".toList, "double?".toList, some "2.5".toList⟩] ∧
        spans.Pairwise fun s s' => s.stop ≤ s'.start) ∧
      IsWellFormed source ⟨"Level".toList, "double?".toList, some "2.5".toList⟩ := by
  intro source
  have hcheck : powerLanguage.check = .ok () := by decide
  have hparameters : powerLanguage.parameters source =
      [⟨"Table".toList, "Map<string, int>".toList, some "null".toList⟩,
       ⟨"Size".toList, "int".toList, some "3".toList⟩,
         ⟨"Level".toList, "double?".toList, some "2.5".toList⟩] := by
    decide +kernel
  obtain ⟨hspans, hwell⟩ := parameters_wellFormed hcheck source
  rw [hparameters] at hspans hwell
  exact ⟨hcheck, hspans, hwell _ (by simp)⟩

end Dialect

end StrategyDialect
