import StrategyDialect.Proofs.Strategy.Extraction
import StrategyDialect.Proofs.Strategy.Repair

/-!
# Conversion has nothing to do twice

A converted strategy is complete: its class is found, the namespace and all the usings
are there.  A complete strategy is a fixed point of conversion
(`Dialect.convert_of_isComplete`), so the argument is about completeness only.

What has to be found again is the class, and it has to be found under the same name.  A
class that the strategy declares is the leftmost match before and after, because the
header lacks classes.  A class that conversion generates stands ahead of the strategy,
and it is the leftmost match because the text before its keyword lacks classes; its name
is read in full, since the pattern lets no word character follow it
(`Dialect.derivedClass?_of_classHead`).  Here the name has to be one that the pattern
can read: a configured name may start with any letter, the pattern asks for an ASCII
letter.

## Main definitions

* `Dialect.IsComplete`: a text that lacks no part of the frame

## Main statements

* `Dialect.isComplete_convert`: a converted strategy is complete
* `Dialect.convert_convert`: conversion is a fixed point on its results
-/

namespace StrategyDialect

namespace Dialect

open Text Cursor Pattern Wrapper

variable {d : Dialect} {a b s name source configured : Text}

/-- A text that lacks nothing: its class has the given name, the namespace is there, and
all usings are. -/
structure IsComplete (d : Dialect) (name source : Text) : Prop where
  derivedClass : d.derivedClass? source = some name
  isSatisfied : d.namespaceRule.isSatisfied source = true
  directives : d.missingDirectives source = []

/-- **A complete strategy** is kept as it is, under its own name and with its
parameters, whatever names are configured and requested. -/
theorem convert_of_isComplete (h : d.IsComplete name source)
    (configured requested : Text) :
    d.convert configured requested source =
      ⟨source, name, .completeUnit, d.parameters source⟩ := by
  have hshape : d.shape source = (.completeUnit, some name) := by
    rw [shape, h.derivedClass]
    exact if_pos h.isSatisfied
  have hnames : d.usingsHeader source = [] := by
    rw [usingsHeader, h.directives]
  rw [convert, hshape, hnames]
  rfl

/-! ## The class -/

/-- A class of the strategy is found again in a frame whose header declares none. -/
theorem derivedClass?_embed (hbase : isWordAt d.baseType.getLast? = true) (ha : Header a)
    (hclass : LacksPhrase "class".toList a) (hb : Trailer b) :
    d.derivedClass? (a ++ s ++ b) = d.derivedClass? s := by
  have hfind := find_embed (seams ha hb) isRegular_derivedClassPattern
    (confined_derivedClassPattern (s := s) hbase hclass hb)
  rw [derivedClass?, derivedClass?, hfind]
  cases hm : d.derivedClassPattern.find s with
  | none => rfl
  | some m =>
    obtain ⟨-, hat⟩ := matchAt_of_find_eq_some hm
    exact Match.groupText?_widen (stretchesOnly_of_matchAt_eq_some hat) ()

/-- What follows the name in a generated class is read as the tail of a class header,
with no type parameters and no qualifiers. -/
private theorem exists_matches_classTail (hbase : isWordAt d.baseType.getLast? = true)
    {r : Text} {c : Cursor}
    (hc : c.rest = [' '] ++ ([':', ' '] ++ d.baseType ++ '\n' :: r)) :
    ∃ e, Matches (Pattern.sequence d.classTail) c e := by
  have hblank : c.Reads [' '] ⟨' ' :: c.before, [':', ' '] ++ d.baseType ++ '\n' :: r⟩ :=
    ⟨hc, rfl⟩
  obtain ⟨e, he⟩ := exists_matches_derivation hbase
    (c := ⟨' ' :: c.before, [':', ' '] ++ d.baseType ++ '\n' :: r⟩) rfl
  refine ⟨e, matches_sequence_cons_iff.mpr
    ⟨_, matches_blanks_iff.mpr ⟨[' '], isBlank_space, hblank⟩, ?_⟩⟩
  refine matches_sequence_cons_iff.mpr ⟨_, matches_optional_iff.mpr (.inr rfl), ?_⟩
  exact matches_sequence_cons_iff.mpr
    ⟨_, matches_blanks_iff.mpr ⟨[], isBlank_nil, reads_nil_iff.mpr rfl⟩, he⟩

/-- Wherever a class is read at a keyword with one name behind it, that is the name. -/
private theorem name_eq_of_reads {c f g : Cursor} {w n r : Text}
    (hname : name.IsIdentifier) (hc : c.rest = "class ".toList ++ name ++ ' ' :: r)
    (hw : w.IsBlank) (hf : c.Reads ("class".toList ++ w) f) (hn : n.IsIdentifier)
    (hg : f.Reads n g) (hnext : ∀ x ∈ g.rest.head?, isWord x = false) : n = name := by
  have hkeyword : "class ".toList = "class".toList ++ [' '] := by decide
  have hstart : ∀ {n r : Text}, n.IsIdentifier →
      ∀ x ∈ (n ++ r).head?, isBlank x = false := by
    rintro _ r ⟨y, u, rfl, hy, -⟩
    exact forall_mem_head?_cons
      (isBlank_eq_false_of_isWord (isWord_of_asciiNameStart hy)) (u ++ r)
  rw [hf.rest_eq, hg.rest_eq, hkeyword] at hc
  generalize "class".toList = keyword at hc
  have hafter : w ++ (n ++ g.rest) = [' '] ++ (name ++ ' ' :: r) := by simpa using hc
  obtain ⟨-, hnames⟩ :=
    append_inj_of_class hafter hw isBlank_space (hstart hn) (hstart hname)
  have hspace' : ∀ x ∈ (' ' :: r).head?, isWord x = false :=
    forall_mem_head?_cons (by decide) r
  exact (append_inj_of_class hnames (fun x hx => hn.isWord hx)
    (fun x hx => hname.isWord hx) hnext hspace').1

/-- A generated class is matched at its keyword, wherever the header of the class
stands, as long as no word character precedes it. -/
private theorem exists_matches_classHead (hbase : isWordAt d.baseType.getLast? = true)
    (hname : name.IsIdentifier) {t r : Text} (hedge : isWordAt t.getLast? = false) :
    ∃ e, Matches d.derivedClassPattern ⟨t.reverse, "class ".toList ++ name ++
      ' ' :: (':' :: ' ' :: d.baseType ++ '\n' :: r)⟩ e := by
  have hkeyword : "class ".toList = "class".toList ++ [' '] := by decide
  have hhead : "class ".toList = 'c' :: "lass ".toList := by decide
  generalize hrest : ' ' :: (':' :: ' ' :: d.baseType ++ '\n' :: r) = rest
  have hf : Cursor.Reads ⟨t.reverse, "class ".toList ++ name ++ rest⟩
      ("class".toList ++ [' ']) ⟨("class ".toList).reverse ++ t.reverse,
        name ++ rest⟩ := by
    rw [hkeyword]
    generalize "class".toList = keyword
    exact ⟨by simp, by simp⟩
  have hg := reads_mk (("class ".toList).reverse ++ t.reverse) name rest
  -- Behind the name comes what a generated class always has.
  obtain ⟨e, he⟩ := exists_matches_classTail hbase (r := r)
    (c := ⟨name.reverse ++ (("class ".toList).reverse ++ t.reverse), rest⟩) hrest.symm
  refine ⟨e, matches_of_mem_outcomes (o := (e, [((), _, _)]))
    (mem_outcomes_derivedClassPattern_iff.mpr
      ⟨?_, [' '], name, _, _, by simp, isBlank_space, hf, hname, hg, he, rfl⟩)⟩
  · have hword : isWordAt (some 'c') = true := by decide
    have hnext : ("class ".toList ++ name ++ rest).head? = some 'c' := by
      rw [hhead]
      rfl
    simp only [meets, Edge.holds, List.head?_reverse, hedge, hnext, hword]
    rfl

/-- **A generated class is found under its own name.** -/
theorem derivedClass?_of_classHead (hbase : isWordAt d.baseType.getLast? = true)
    (hname : name.IsIdentifier) {t r : Text} (ht : LacksPhrase "class".toList t)
    (hedge : isWordAt t.getLast? = false) :
    d.derivedClass?
      (t ++ ("class ".toList ++ name ++ ' ' :: (':' :: ' ' :: d.baseType ++ '\n' :: r)))
      = some name := by
  obtain ⟨e, he⟩ := exists_matches_classHead hbase hname hedge (r := r)
  generalize hcode : "class ".toList ++ name ++ ' '
    :: (':' :: ' ' :: d.baseType ++ '\n' :: r) = code at he ⊢
  obtain ⟨m, hm⟩ : ∃ m, d.derivedClassPattern.matchAt ⟨t.reverse, code⟩ = some m := by
    cases hm : d.derivedClassPattern.matchAt ⟨t.reverse, code⟩ with
    | none => exact absurd he (matchAt_eq_none_iff.mp hm e)
    | some m => exact ⟨m, rfl⟩
  -- No class is matched before it, and the one that is preferred there has its name.
  have hfind : d.derivedClassPattern.find (t ++ code) = some m := by
    refine find_append hm fun c e hc hlt hmatch => ?_
    obtain ⟨w, y, x, hne, hw, hx, hphrase⟩ :=
      exists_phrase_of_matches_derivedClassPattern hmatch
    have hle := le_offset_of_phrase ht hc hphrase hne hw hx
    omega
  obtain ⟨-, hmem⟩ := mem_outcomes_of_matchAt_eq_some hm
  obtain ⟨-, w, n, f, g, -, hw, hf, hn, hg, htail, hgroups⟩ :=
    mem_outcomes_derivedClassPattern_iff.mp hmem
  have hsame : n = name :=
    name_eq_of_reads hname hcode.symm hw hf hn hg
      (isWord_eq_false_of_matches_classTail htail)
  have hgroup : m.groupText? () = some (f.textTo g) := by
    rw [Match.groupText?, Match.group?, show m.groups = [((), f, g)] from hgroups]
    rfl
  rw [derivedClass?, hfind, Option.bind_some, hgroup, hg.textTo_eq, hsame]

/-! ## The usings -/

/-- A directive is not empty, as it holds the keyword. -/
theorem usingDirective_ne_nil (name : Text) : usingDirective name ≠ [] := by
  rw [usingDirective_eq]
  simp

/-- A directive stands on a line if it is a stretch between newlines, blanks aside. -/
theorem hasLine_iff {directive : Text} (hne : directive ≠ []) :
    hasLine directive source = true ↔
      ∃ piece ∈ splitOn '\n' source, trim piece = directive := by
  rw [← exists_mem_lines_iff hne]
  simp [hasLine]

/-- Lines of a strategy are lines of the text that it is embedded in, if line ends
separate the two. -/
theorem hasLine_embed {directive : Text} (hne : directive ≠ [])
    (ha : a = [] ∨ a.getLast? = some '\n')
    (hb : b = [] ∨ b.head? = some '\n' ∨ s = [] ∨ s.getLast? = some '\n')
    (h : hasLine directive s = true) : hasLine directive (a ++ s ++ b) = true := by
  obtain ⟨piece, hpiece, htrim⟩ := (hasLine_iff hne).mp h
  have hpiece' : piece ≠ [] := by
    rintro rfl
    exact hne htrim.symm
  -- First what follows: it starts a line of its own, or the last piece is empty.
  have hright : ∃ piece ∈ splitOn '\n' (s ++ b), trim piece = directive := by
    rcases hb with rfl | hb | rfl | hs
    · exact ⟨piece, by simpa using hpiece, htrim⟩
    · cases b with
      | nil => simp at hb
      | cons x r =>
        obtain rfl : x = '\n' := by simpa using hb
        exact ⟨piece, by simp [splitOn_append, hpiece], htrim⟩
    · simp [splitOn, hpiece'] at hpiece
    · obtain ⟨u, rfl⟩ := List.getLast?_eq_some_iff.mp hs
      rw [splitOn_append] at hpiece
      have hu : piece ∈ splitOn '\n' u := by simpa [splitOn, hpiece'] using hpiece
      exact ⟨piece, by simp [splitOn_append, hu], htrim⟩
  rw [hasLine_iff hne, List.append_assoc]
  rcases ha with rfl | ha
  · exact hright
  · obtain ⟨u, rfl⟩ := List.getLast?_eq_some_iff.mp ha
    obtain ⟨piece, hpiece, htrim⟩ := hright
    exact ⟨piece, by simp [splitOn_append, hpiece], htrim⟩

/-- A directive for a qualified name is a single line. -/
theorem not_mem_usingDirective {name : Text} (h : name.isQualifiedName = true) :
    '\n' ∉ usingDirective name := by
  have hname : '\n' ∉ name :=
    fun hmem => absurd (isBlank_eq_false_of_mem h hmem) (by decide)
  rw [usingDirective_eq]
  simp [hname]

/-- A directive starts with a letter and ends with a semicolon, so it has no blanks at
its ends. -/
theorem trim_usingDirective (name : Text) :
    trim (usingDirective name) = usingDirective name := by
  have hfirst : "using ".toList = 'u' :: "sing ".toList := by decide
  rw [usingDirective_eq]
  refine trim_eq_self ?_ ?_
  · intro x hx
    rw [hfirst] at hx
    obtain rfl : 'u' = x := by simpa using hx
    decide
  · intro x hx
    rw [List.getLast?_concat] at hx
    obtain rfl : ';' = x := by simpa using hx
    decide

/-- The directives of the header stand on lines of their own. -/
theorem hasLine_of_mem_missingDirectives (hd : d.Accepted) {directive r : Text}
    (h : directive ∈ d.missingDirectives source) :
    hasLine directive (d.usingsHeader source ++ r) = true := by
  -- Each directive is a piece between newlines, whatever follows them all.
  have hpieces : ∀ (directives : List Text) (t : Text), directive ∈ directives →
      (∀ directive ∈ directives, '\n' ∉ directive) →
        directive ∈ splitOn '\n' (directives.flatMap (· ++ ['\n']) ++ t) := by
    intro directives t hmem hfree
    induction directives with
    | nil => cases hmem
    | cons first directives ih =>
      have hsplit : (first :: directives).flatMap (· ++ ['\n']) ++ t =
          first ++ '\n' :: (directives.flatMap (· ++ ['\n']) ++ t) := by simp
      rw [hsplit, splitOn_append, splitOn_of_not_mem (hfree first (by simp))]
      rcases List.mem_cons.mp hmem with rfl | hmem
      · simp
      · simp [ih hmem fun directive hdirective => hfree directive (by simp [hdirective])]
  obtain ⟨name, hname, rfl⟩ := exists_of_mem_missingDirectives h
  rcases usingsHeader_eq d source with ⟨hnil, -⟩ | ⟨-, hheader⟩
  · simp [hnil] at h
  · rw [hasLine_iff (usingDirective_ne_nil _), hheader, List.append_assoc]
    refine ⟨_, hpieces _ _ h fun directive hdirective => ?_, trim_usingDirective name⟩
    obtain ⟨name', hname', rfl⟩ := exists_of_mem_missingDirectives hdirective
    exact not_mem_usingDirective (hd.usings _ hname')

/-! ## Completeness -/

/-- The class that conversion generates is found, whatever stands behind its head. -/
theorem derivedClass?_header_members (hd : d.Accepted)
    (hbase : isWordAt d.baseType.getLast? = true) (hname : name.IsIdentifier)
    (source r : Text) :
    d.derivedClass? (d.header name source .members ++ r) = some name := by
  have hedge : isWordAt (d.usingsHeader source ++ d.namespaceHead
    ++ "    public ".toList).getLast? = false := by
    have hspace : "    public ".toList = "    public".toList ++ [' '] := by decide
    rw [hspace, ← List.append_assoc, List.getLast?_concat]
    decide
  obtain ⟨r', hr'⟩ := exists_classHead_eq d name
  have hfound :=
    derivedClass?_of_classHead hbase hname (lacksPhrase_beforeClass hd source) hedge
      (r := "    ".toList ++ '{' :: r' ++ r)
  rw [header, hr']
  generalize "class ".toList = keyword at hfound ⊢
  generalize "    public ".toList = modifier at hfound ⊢
  simpa using hfound

/-- The class of a converted strategy is found under the name that is reported. -/
theorem derivedClass?_convert (hd : d.Accepted)
    (hbase : isWordAt d.baseType.getLast? = true) (requested source : Text)
    (hclass : (d.shape source).1 ≠ .members ∨
      (d.convert configured requested source).className.IsIdentifier) :
    d.derivedClass? (d.convert configured requested source).generatedCode =
      some (d.convert configured requested source).className := by
  -- A class is generated for members only; otherwise the class of the strategy is found
  -- again.
  by_cases hshape : (d.shape source).1 = .members
  · have hname := hclass.resolve_left (fun hne => hne hshape)
    rw [generatedCode_eq, hshape, List.append_assoc]
    exact derivedClass?_header_members hd hbase hname source _
  · obtain ⟨name, hfound, hname⟩ := exists_derivedClass?_of_shape hshape
    have hreported : (d.convert configured requested source).className = name := by
      show chooseClassName (d.shape source).2 requested configured = name
      rw [hname, chooseClassName]
    have hheader : Header
        (d.header (d.convert configured requested source).className source
          (d.shape source).1) := isHeader_header hd source fun heq => absurd heq hshape
    have hkw : "class".toList ∈ keywords := .tail _ (.head _)
    have husings := lacksPhrase_usingsHeader hd hkw source
    have hlacks : LacksPhrase "class".toList
        (d.header (d.convert configured requested source).className source
          (d.shape source).1) := by
      cases hcase : (d.shape source).1 with
      | completeUnit => exact husings
      | classDeclaration =>
        exact husings.append (lacksPhrase_namespaceHead hd hkw (by decide))
      | members => exact absurd hcase hshape
    rw [generatedCode_eq, derivedClass?_embed hbase hheader hlacks
      (isTrailer_trailer source _), hfound, hreported]

/-- **A converted strategy is complete**: the directives and the namespace are there,
and the class that is found has the name that the conversion reports. -/
theorem isComplete_convert (hd : d.Accepted) (hends : d.EndsInWord)
    (hconfigured : configured.isName = true) (requested source : Text)
    (hclass : (d.shape source).1 ≠ .members ∨
      (d.convert configured requested source).className.IsIdentifier) :
    d.IsComplete (d.convert configured requested source).className
      (d.convert configured requested source).generatedCode where
  derivedClass := derivedClass?_convert hd hends.baseType requested source hclass
  isSatisfied := isSatisfied_namespaceRule_convert hd hends hconfigured requested source
  directives := by
    rw [missingDirectives, List.filter_eq_nil_iff]
    intro directive hdirective
    suffices hasLine directive (d.convert configured requested source).generatedCode =
        true by simp [this]
    obtain ⟨name, hname, rfl⟩ := List.mem_map.mp hdirective
    -- A directive is in the strategy, or the header supplies it.
    by_cases hsource : hasLine (usingDirective name) source = true
    · have hheader : ∀ a, Header a → a = [] ∨ a.getLast? = some '\n' := by
        intro a ha
        by_cases hne : a = []
        · exact .inl hne
        · exact .inr (ha.getLast? hne)
      rw [generatedCode_eq]
      exact hasLine_embed (usingDirective_ne_nil name)
        (hheader _ (isHeader_header hd source (isName_className requested hconfigured)))
        (trailer_eq source _) hsource
    · refine hasLine_of_mem_missingDirectives hd (List.mem_filter.mpr ⟨hdirective, ?_⟩)
      simpa using hsource

/-- **Conversion is a fixed point on its results**: a converted strategy is a complete
unit, to which nothing is added, with the same class and the same parameters.  A class
that the strategy brought along is found as it was before; one that was generated has to
have a name that the search can read.  The class name that is requested the second time
is of no importance. -/
theorem convert_convert (hcheck : d.check = .ok ()) (hends : d.EndsInWord)
    (hconfigured : configured.isName = true) (requested requested' source : Text)
    (hclass : (d.shape source).1 ≠ .members ∨
      (d.convert configured requested source).className.IsIdentifier) :
    d.convert configured requested'
      (d.convert configured requested source).generatedCode =
      { d.convert configured requested source with shape := .completeUnit } := by
  have hd : d.Accepted := check_eq_ok_iff.mp hcheck
  have hcomplete := isComplete_convert hd hends hconfigured requested source hclass
  obtain ⟨a, b, ha, hb, hcode⟩ := exists_frame hd requested source hconfigured
  have hparameters : d.parameters (d.convert configured requested source).generatedCode =
      (d.convert configured requested source).parameters := by
    rw [hcode]
    exact parameters_embed hd ha hb
  rw [convert_of_isComplete hcomplete, hparameters]

/-- A member without a class, to which a class is added once. -/
theorem convert_convert_member :
    powerLanguage.check = .ok () ∧ powerLanguage.EndsInWord ∧
      powerLanguage.className.isName = true ∧
      (powerLanguage.convert powerLanguage.className []
        "int x;".toList).className.IsIdentifier ∧
      powerLanguage.convert powerLanguage.className []
          (powerLanguage.convert powerLanguage.className []
            "int x;".toList).generatedCode =
        { powerLanguage.convert powerLanguage.className [] "int x;".toList with shape :=
          .completeUnit } := by
  have hcheck : powerLanguage.check = .ok () := by decide
  have hname : powerLanguage.className.isName = true := by decide
  have hclass : (powerLanguage.convert powerLanguage.className []
    "int x;".toList).className.IsIdentifier := by
    have hreported :
        (powerLanguage.convert powerLanguage.className [] "int x;".toList).className =
        "ConvertedStrategy".toList := by decide +kernel
    rw [hreported]
    exact ⟨'C', "onvertedStrategy".toList, by decide, by decide, by decide⟩
  exact ⟨hcheck, endsInWord_powerLanguage, hname, hclass,
    convert_convert hcheck endsInWord_powerLanguage hname [] [] "int x;".toList
      (.inr hclass)⟩

end Dialect

end StrategyDialect
