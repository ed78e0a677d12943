import StrategyDialect.Proofs.Strategy.ClassHeader
import StrategyDialect.Proofs.Strategy.Reconversion

/-!
# Which generated names are recognised

A dialect is accepted if its fields hold names, and a name may start with any letter and
hold numerals of any kind.  The patterns see less: a class has a name that starts with
an ASCII letter or the low line, and behind the namespace and the base type they ask for
a word boundary, which there is none behind a numeral such as `²`.  Not every accepted
name is therefore recognised once conversion has written it down, and
`Dialect.isRecognised_iff` says which are.

That the names in question are recognised was seen before
(`Dialect.isSatisfied_namespaceRule_of_head`, `Dialect.derivedClass?_of_classHead`).
The other half is about all places where a match could stand.  A match starts with a
keyword, blanks and a name.  The header holds this in one place only, and from there it
can be read in one way only, up to the line end behind the name; elsewhere a match lies
in the strategy (`Wrapper.offset_eq_or_le_of_phrase`).

## Main statements

* `Dialect.isSatisfied_namespaceRule_members_iff`: when members are in the namespace
  once converted
* `Dialect.derivedClass?_members_iff`: when the generated class is found
* `Dialect.isRecognised_iff`: the two together
-/

namespace StrategyDialect

namespace Text

/-- A qualified name starts as its first part does, which is a name. -/
theorem exists_cons_of_isQualifiedName {t : Text} (h : t.isQualifiedName = true) :
    ∃ x u, t = x :: u ∧ isNameStart x = true := by
  cases t with
  | nil => cases h
  | cons x u =>
    refine ⟨x, u, rfl, ?_⟩
    rw [isQualifiedName, splitOn] at h
    split at h
    · cases h
    · cases hsplit : splitOn '.' u with
      | nil => exact absurd hsplit (splitOn_ne_nil '.' u)
      | cons piece pieces =>
        rw [hsplit] at h
        simp only [List.all_cons, isName, Bool.and_eq_true] at h
        exact h.1.1

/-- A text that is not empty and holds no blank does not start with one. -/
theorem head?_of_visible {t : Text} (hne : t ≠ [])
    (ht : ∀ x ∈ t, isBlank x = false) (r : Text) :
    ∀ x ∈ (t ++ r).head?, isBlank x = false := by
  cases t with
  | nil => exact absurd rfl hne
  | cons x t => exact forall_mem_head?_cons (ht x (by simp)) (t ++ r)

/-- Qualifiers, and whatever does not start with a blank behind them, do not start with
a blank. -/
theorem head?_qualifiers {q r : Text} (hq : Pattern.Repeats IsQualifier q)
    (hr : ∀ x ∈ r.head?, isBlank x = false) :
    ∀ x ∈ (q ++ r).head?, isBlank x = false := by
  cases hq with
  | nil => exact hr
  | cons h more =>
    obtain ⟨word, gap, gap', hne, hword, -, -, rfl⟩ := h
    simp only [List.append_assoc]
    exact head?_of_visible hne (fun x hx => isBlank_eq_false_of_isWord (hword x hx)) _

/-- No qualifier can be read from a name that a brace follows, blanks aside. -/
theorem eq_nil_of_qualifiers {q r s name gap : Text} (hq : Pattern.Repeats IsQualifier q)
    (hname : name.isName = true) (hgap : gap.IsBlank)
    (h : q ++ s = name ++ (gap ++ '{' :: r)) : q = [] := by
  cases hq with
  | nil => rfl
  | @cons _ q' hqualifier more =>
    exfalso
    obtain ⟨word, gap', gap'', -, hword, hgap', -, rfl⟩ := hqualifier
    have hbrace : ∀ {v w : Text}, v.IsBlank → v ++ '.' :: w ≠ gap ++ '{' :: r := by
      intro v w hv heq
      obtain ⟨-, hrest⟩ :=
        append_inj_of_class heq hv hgap (forall_mem_head?_cons (by decide) w)
          (forall_mem_head?_cons (by decide) r)
      cases hrest
    have heq : word ++ (gap' ++ '.' :: (gap'' ++ q' ++ s)) =
        name ++ (gap ++ '{' :: r) := by simpa using h
    -- The word would end inside the name, at its end, or behind it.
    rcases List.append_eq_append_iff.mp heq with ⟨m, hm, hrest⟩ | ⟨m, hm, hrest⟩
    · cases m with
      | nil => exact hbrace hgap' hrest
      | cons x m =>
        have hx : isNameChar x = true := isNameChar_of_mem hname (by simp [hm])
        cases gap' with
        | nil =>
          obtain rfl : '.' = x := (List.cons.inj hrest).1
          exact absurd hx (by decide)
        | cons y gap' =>
          obtain rfl : y = x := (List.cons.inj hrest).1
          simp [isNameChar_eq_false_of_isBlank (hgap' y (by simp))] at hx
    · cases m with
      | nil => exact hbrace hgap' hrest.symm
      | cons x m =>
        have hx : isWord x = true := hword x (by simp [hm])
        cases gap with
        | nil =>
          obtain rfl : '{' = x := (List.cons.inj hrest).1
          exact absurd hx (by decide)
        | cons y gap =>
          obtain rfl : y = x := (List.cons.inj hrest).1
          simp [isWord_eq_false_of_isBlank (hgap y (by simp))] at hx

end Text

namespace Dialect

open Text Cursor Pattern Wrapper

variable {d : Dialect} {a b s name source : Text} {c e : Cursor}

/-- A match that starts and ends between the seams is one of the embedded text. -/
theorem exists_matches_of_between {Label : Type} {p : Pattern Label} (hseams : Seams a b)
    (hp : p.isRegular = true) (htext : c.text = a ++ s ++ b)
    (hstart : a.length ≤ c.offset) (hstop : e.offset ≤ a.length + s.length)
    (h : Matches p c e) : ∃ c' e', c'.text = s ∧ Matches p c' e' := by
  have hle := h.offset_le
  obtain ⟨c', hc', rfl⟩ := exists_widen htext hstart (by omega)
  obtain ⟨e', -, rfl⟩ := exists_widen (h.text_eq.trans htext) (by omega) hstop
  exact ⟨c', e', hc', (matches_widen_iff hseams hp).mp h⟩

/-- No part of a name comes in a trailer. -/
private theorem not_mem_trailer {z : Char} (hz : z = '.' ∨ isNameChar z = true)
    (source : Text) (shape : SourceShape) : z ∉ trailer source shape := by
  refine (isTrailer_trailer source shape).not_mem fun hmem => ?_
  have hmarks : ∀ z ∈ ['\n', ' ', '}'], z ≠ '.' ∧ isNameChar z = false := by decide
  obtain ⟨hdot, hchar⟩ := hmarks z hmem
  rcases hz with rfl | hz
  · exact hdot rfl
  · simp [hchar] at hz

/-! ## The namespace -/

/-- The namespace of the header, read at its keyword, ends at the end of its line. -/
private theorem isWordAt_of_reads_namespaceHead (hd : d.Accepted) {w r : Text}
    (hw : w.IsBlank) (hrest : c.rest = d.namespaceHead ++ r)
    (hreads : c.Reads ("namespace".toList ++ w ++ d.namespaceName) e)
    (he : e.meets .wordBoundary = true) : isWordAt d.namespaceName.getLast? = true := by
  have hne : d.namespaceName ≠ [] := by
    obtain ⟨x, u, hns, -⟩ := exists_cons_of_isQualifiedName hd.namespaceName
    simp [hns]
  have hvisible : ∀ r, ∀ y ∈ (d.namespaceName ++ r).head?, isBlank y = false :=
    head?_of_visible hne fun x hx => isBlank_eq_false_of_mem hd.namespaceName hx
  obtain ⟨r', hr'⟩ := exists_namespaceHead_eq d
  have hline : w ++ (d.namespaceName ++ e.rest) =
      [' '] ++ (d.namespaceName ++ '\n' :: (r' ++ r)) := by
    rw [hreads.rest_eq, hr'] at hrest
    generalize "namespace".toList = keyword at hrest
    simpa using hrest
  obtain ⟨-, hnames⟩ :=
    append_inj_of_class hline hw isBlank_space (hvisible _) (hvisible _)
  have hnext : e.rest = '\n' :: (r' ++ r) := List.append_cancel_left hnames
  have hlast : e.before.head? = d.namespaceName.getLast? := hreads.head?_before hne
  have hnewline : isWordAt (some '\n') = false := by decide
  simpa [meets, Edge.holds, hnext, hlast, hnewline] using he

/-- The header of members, cut at the keyword of the namespace. -/
private theorem exists_header_members_eq_namespace (hd : d.Accepted)
    (hname : name.isName = true) (source : Text) :
    ∃ line, LacksPhrase "namespace".toList line ∧
      d.header name source .members = d.usingsHeader source ++ 'n' :: line := by
  have hkw : "namespace".toList ∈ keywords := .tail _ (.tail _ (.head _))
  have hamespace : LacksPhrase "namespace".toList "amespace ".toList :=
    Clashes.lacksPhrase (by decide)
  refine ⟨_, (lacksPhrase_namespaceLine hd hkw hamespace).append
    (lacksPhrase_classHead hd hname hkw (by decide)), ?_⟩
  have hkeyword : "namespace ".toList = 'n' :: "amespace ".toList := by decide
  unfold header namespaceHead
  rw [hkeyword]
  generalize "amespace ".toList = keyword, "\n\x7b\n".toList = lineEnd
  simp

/-- **Converted members are in the namespace** if its name ends in a word character, or
if they brought the namespace along. -/
theorem isSatisfied_namespaceRule_members_iff (hd : d.Accepted)
    (hname : name.isName = true) :
    d.namespaceRule.isSatisfied (d.header name source .members ++ source
      ++ trailer source .members) = true ↔
      isWordAt d.namespaceName.getLast? = true ∨
      d.namespaceRule.isSatisfied source = true := by
  have hkw : "namespace".toList ∈ keywords := .tail _ (.tail _ (.head _))
  have hheader : Header (d.header name source .members) :=
    isHeader_header hd source fun _ => hname
  have hseams : Seams (d.header name source .members) (trailer source .members) :=
    seams hheader (isTrailer_trailer source .members)
  have husings : Header (d.usingsHeader source) := header_usingsHeader hd source
  constructor
  · intro h
    obtain ⟨c, e, htext, hmatch⟩ := occursIn_iff.mp h
    obtain ⟨-, ⟨w, hne, hw, hreads⟩, he⟩ := matches_namespacePattern_iff.mp hmatch
    obtain ⟨x, u, hns, hx⟩ := exists_cons_of_isQualifiedName hd.namespaceName
    have hphrase : c.Reads ("namespace".toList ++ w ++ x :: u) e := by rwa [hns] at hreads
    obtain ⟨line, hline, hsplit⟩ := exists_header_members_eq_namespace hd hname source
    have htext' := htext
    rw [hsplit, List.append_assoc] at htext'
    -- The match starts with the keyword, so it is at the generated namespace or in the
    -- strategy; there it ends in the strategy as well.
    rcases offset_eq_or_le_of_phrase (lacksPhrase_usingsHeader hd hkw source) hline htext'
      hphrase hne hw hx
      with hoffset | hle
    · left
      rw [header, List.append_assoc, List.append_assoc, List.append_assoc] at htext
      obtain ⟨-, hrest⟩ := before_eq_of_offset htext hoffset
      exact isWordAt_of_reads_namespaceHead hd hw hrest hreads he
    · right
      rw [← hsplit] at hle
      obtain ⟨v, z, hlast⟩ : ∃ v z, d.namespaceName = v ++ [z] :=
        ⟨_, _, (List.dropLast_concat_getLast (by simp [hns])).symm⟩
      have hz :=
        not_mem_trailer (eq_or_isNameChar_of_mem hd.namespaceName (c := z)
          (by simp [hlast])) source .members
      have hstop := offset_le_of_last htext (u := "namespace".toList ++ w ++ v)
        (by rwa [List.append_assoc, ← hlast]) hz
      exact occursIn_iff.mpr (exists_matches_of_between hseams isRegular_namespacePattern
        htext hle hstop hmatch)
  · rintro (hword | hsource)
    · rw [header, List.append_assoc, List.append_assoc]
      exact isSatisfied_namespaceRule_of_head hword
        (seams husings (isTrailer_trailer source .members)).left
    · exact occursIn_embed_of_occursIn hseams isRegular_namespacePattern hsource

/-! ## The class -/

/-- The base type on the line of the generated class is read in one way only, with no
qualifier before it. -/
private theorem rest_eq_of_bases (hd : d.Accepted) {w q rest r : Text} (hw : w.IsBlank)
    (hq : Repeats IsQualifier q)
    (h : w ++ (q ++ (d.baseType ++ rest)) =
      [' '] ++ (d.baseType ++ ('\n' :: "    ".toList ++ '{' :: r))) :
    rest = '\n' :: "    ".toList ++ '{' :: r := by
  have hvisible : ∀ r, ∀ y ∈ (d.baseType ++ r).head?, isBlank y = false :=
    head?_of_visible (ne_nil_of_isName hd.baseType) fun x hx =>
      isBlank_eq_false_of_isNameChar (isNameChar_of_mem hd.baseType hx)
  have hindent : IsBlank "    ".toList := by
    intro x hx
    revert x
    decide
  obtain ⟨-, hqualified⟩ :=
    append_inj_of_class h hw isBlank_space (head?_qualifiers hq (hvisible _)) (hvisible _)
  obtain rfl :=
    eq_nil_of_qualifiers hq hd.baseType (isBlank_newline.append hindent) hqualified
  exact List.append_cancel_left hqualified

/-- So is everything behind the name of the generated class, which has no type
parameters. -/
private theorem rest_eq_of_classTail (hd : d.Accepted) {w₁ params w₂ w₃ q rest r : Text}
    (hw₁ : w₁.IsBlank) (hparams : params.IsTypeParameters) (hw₂ : w₂.IsBlank)
    (hw₃ : w₃.IsBlank) (hq : Repeats IsQualifier q)
    (h : w₁ ++ params ++ w₂ ++ ([':'] ++ w₃ ++ q ++ d.baseType) ++ rest =
      [' '] ++ ([':', ' '] ++ d.baseType ++ '\n' :: ("    ".toList ++ '{' :: r))) :
    rest = '\n' :: "    ".toList ++ '{' :: r := by
  have hcolon : ∀ r, ∀ y ∈ (':' :: r).head?, isBlank y = false :=
    forall_mem_head?_cons (by decide)
  rcases hparams with rfl | ⟨v, -, rfl⟩
  · have hgap : (w₁ ++ w₂) ++ (':' :: (w₃ ++ q ++ d.baseType ++ rest)) =
        [' '] ++ (':' :: (' ' :: d.baseType ++ '\n' :: ("    ".toList ++ '{' :: r))) := by
      simpa using h
    obtain ⟨-, hderivation⟩ :=
      append_inj_of_class hgap (hw₁.append hw₂) isBlank_space (hcolon _) (hcolon _)
    exact rest_eq_of_bases hd hw₃ hq (by simpa using hderivation)
  · have hgap : w₁
        ++ ('<' :: (v ++ ['>'] ++ w₂ ++ ([':'] ++ w₃ ++ q ++ d.baseType) ++ rest)) =
        [' '] ++ (':' :: (' ' :: d.baseType ++ '\n' :: ("    ".toList ++ '{' :: r))) := by
      simpa using h
    obtain ⟨-, hbracket⟩ := append_inj_of_class hgap hw₁ isBlank_space
      (forall_mem_head?_cons (by decide) _) (hcolon _)
    exact absurd (List.cons.inj hbracket).1 (by decide)

/-- The generated class, read at its keyword, has the base type at the end of its line. -/
private theorem isWordAt_of_reads_classHead (hd : d.Accepted) {t r : Text}
    (hheader : d.IsClassHeader name t)
    (hrest : c.rest = "class ".toList ++ name ++ [' '] ++
      ([':', ' '] ++ d.baseType ++ '\n' :: ("    ".toList ++ '{' :: r)))
    (hc : c.meets .wordBoundary = true) (hreads : c.Reads t e)
    (he : e.meets .wordBoundary = true) : isWordAt d.baseType.getLast? = true := by
  have hedges := ((hheader.edges_iff (ne_nil_of_isName hd.baseType) hreads).mp ⟨hc, he⟩).2
  obtain ⟨w, w₁, params, w₂, w₃, q, -, hw, hname, hw₁, hparams, hw₂, hw₃, hq, rfl⟩ :=
    hheader
  have hkeyword : "class ".toList = "class".toList ++ [' '] := by decide
  have hne : name ≠ [] := by
    obtain ⟨x, u, rfl, -⟩ := hname
    simp
  have hstart : ∀ r, ∀ y ∈ (name ++ r).head?, isBlank y = false :=
    head?_of_visible hne fun x hx => isBlank_eq_false_of_isWord (hname.isWord hx)
  rw [hreads.rest_eq, hkeyword] at hrest
  generalize "class".toList = keyword at hrest
  have hline : w
      ++ (name ++ (w₁ ++ params ++ w₂ ++ ([':'] ++ w₃ ++ q ++ d.baseType) ++ e.rest)) =
      [' ']
        ++ (name ++ ([' ']
          ++ ([':', ' '] ++ d.baseType ++ '\n' :: ("    ".toList ++ '{' :: r)))) := by
    simpa using hrest
  -- The gap before the name and the name itself can be read in one way only.
  obtain ⟨-, hnames⟩ := append_inj_of_class hline hw isBlank_space (hstart _) (hstart _)
  have hnext :=
    rest_eq_of_classTail hd hw₁ hparams hw₂ hw₃ hq (List.append_cancel_left hnames)
  have hnewline : isWordAt (some '\n') = false := by decide
  rw [hnext] at hedges
  simpa [hnewline] using hedges

/-- The header of members, cut at the keyword of the class. -/
private theorem exists_header_members_eq_class (hd : d.Accepted)
    (hname : name.isName = true) (source : Text) :
    ∃ line, LacksPhrase "class".toList line ∧ d.header name source .members =
      d.usingsHeader source ++ d.namespaceHead ++ "    public ".toList
        ++ 'c' :: line := by
  have hlass : LacksPhrase "class".toList "lass ".toList :=
    Clashes.lacksPhrase (by decide)
  refine ⟨_, lacksPhrase_classLines hd hname (.tail _ (.head _)) hlass, ?_⟩
  have hkeyword : "    public class ".toList =
      "    public ".toList ++ 'c' :: "lass ".toList := by decide
  unfold header classHead
  rw [hkeyword]
  generalize "    public ".toList = modifier, "lass ".toList = keyword
  simp

/-- **The generated class is found** under its name if the name is one that the pattern
reads, and the base type ends in a word character. -/
theorem derivedClass?_members_iff (hd : d.Accepted) (hname : name.isName = true)
    (hmembers : d.derivedClass? source = none) :
    d.derivedClass? (d.header name source .members ++ source
      ++ trailer source .members) = some name ↔
      isWordAt d.baseType.getLast? = true ∧ name.IsIdentifier := by
  have hseams : Seams (d.header name source .members) (trailer source .members) :=
    seams (isHeader_header hd source fun _ => hname) (isTrailer_trailer source .members)
  constructor
  · intro h
    obtain ⟨c, e, t, htext, hc, hheader, hreads, he, -⟩ :=
      exists_isClassHeader_of_derivedClass? h
    have hmatch : Matches d.derivedClassPattern c e :=
      matches_derivedClassPattern_iff.mpr ⟨hc, ⟨name, t, hheader, hreads⟩, he⟩
    obtain ⟨w, y, x, hne, hw, hx, hphrase⟩ :=
      exists_phrase_of_matches_derivedClassPattern hmatch
    refine ⟨?_, hheader.isIdentifier⟩
    obtain ⟨line, hline, hsplit⟩ := exists_header_members_eq_class hd hname source
    have htext' := htext
    rw [hsplit, List.append_assoc] at htext'
    -- The match starts with the keyword: it is the generated class or in the strategy.
    rcases offset_eq_or_le_of_phrase (lacksPhrase_beforeClass hd source) hline htext'
      hphrase hne hw hx
      with hoffset | hle
    · obtain ⟨r, hr⟩ := exists_classHead_eq d name
      have hcode : c.text = d.usingsHeader source ++ d.namespaceHead
          ++ "    public ".toList
          ++ ("class ".toList ++ name ++ [' ']
            ++ ([':', ' '] ++ d.baseType ++ '\n'
              :: ("    ".toList ++ '{'
                :: (r ++ source ++ trailer source .members)))) := by
        rw [htext, header, hr]
        generalize "    public ".toList = modifier, "class ".toList = keyword
        simp
      exact isWordAt_of_reads_classHead hd hheader
        (before_eq_of_offset hcode hoffset).2 hc hreads he
    · -- The match lies in the strategy, where there is none.
      exfalso
      obtain ⟨v, z, hlast⟩ : ∃ v z, d.baseType = v ++ [z] :=
        ⟨_, _, (List.dropLast_concat_getLast (ne_nil_of_isName hd.baseType)).symm⟩
      have hz :=
        not_mem_trailer (.inr (isNameChar_of_mem hd.baseType (c := z) (by simp [hlast])))
          source .members
      obtain ⟨u, rfl⟩ : ∃ u, t = u ++ [z] := by
        rw [← List.getLast?_eq_some_iff, hheader.getLast?_eq (by simp [hlast]), hlast,
          List.getLast?_concat]
      rw [← hsplit] at hle
      obtain ⟨c', e', hc', hmatch'⟩ :=
        exists_matches_of_between hseams isRegular_derivedClassPattern htext hle
          (offset_le_of_last htext hreads hz) hmatch
      exact find_eq_none_iff.mp (derivedClass?_eq_none_iff_find.mp hmembers) c'
        e' hc' hmatch'
  · rintro ⟨hbase, hidentifier⟩
    rw [List.append_assoc]
    exact derivedClass?_header_members hd hbase hidentifier source _

/-! ## Generated code -/

/-- **The generated names that are recognised.**  An engine that has taken a class name
converts members into a unit that is found to be complete, under that name, in the
namespace and derived from the base type, if the name is one that the pattern reads, the
base type ends in a word character, and so does the namespace, unless the members
brought it along. -/
theorem isRecognised_iff {engine named : Engine}
    (hengine : Engine.ofDialect d = .ok engine)
    (hnamed : engine.withClassName name = .ok named)
    (hmembers : (named.shape source).1 = .members) :
    d.namespaceRule.isSatisfied (named.convert source).generatedCode = true ∧
        d.baseTypeRule.isSatisfied (named.convert source).generatedCode = true ∧
        named.shape (named.convert source).generatedCode = (.completeUnit, some name) ↔
      isWordAt d.baseType.getLast? = true ∧ name.IsIdentifier ∧
        (isWordAt d.namespaceName.getLast? = true ∨
          d.namespaceRule.isSatisfied source = true) := by
  obtain ⟨hcheck, rfl⟩ := Engine.ofDialect_eq_ok_iff.mp hengine
  have hd : d.Accepted := check_eq_ok_iff.mp hcheck
  obtain ⟨hname, rfl⟩ := Engine.withClassName_eq_ok_iff.mp hnamed
  replace hmembers : (d.shape source).1 = .members := hmembers
  have hnone := derivedClass?_eq_none_of_shape hmembers
  have hclassName : (d.convert name name source).className = name := by
    show chooseClassName (d.shape source).2 name name = name
    rw [shape_of_derivedClass?_eq_none hnone, chooseClassName, if_pos hname]
  have hcode : (d.convert name name source).generatedCode =
      d.header name source .members ++ source ++ trailer source .members := by
    rw [generatedCode_eq, hclassName, hmembers]
  show d.namespaceRule.isSatisfied (d.convert name name source).generatedCode = true ∧
    d.baseTypeRule.isSatisfied (d.convert name name source).generatedCode = true ∧
      d.shape (d.convert name name source).generatedCode = (.completeUnit, some name) ↔ _
  rw [hcode, shape_eq_completeUnit_iff, derivedClass?_members_iff hd hname hnone,
    isSatisfied_namespaceRule_members_iff hd hname]
  constructor
  · rintro ⟨hnamespace, -, ⟨hbase, hidentifier⟩, -⟩
    exact ⟨hbase, hidentifier, hnamespace⟩
  · rintro ⟨hbase, hidentifier, hnamespace⟩
    have hclass := (derivedClass?_members_iff hd hname hnone).mpr ⟨hbase, hidentifier⟩
    exact ⟨hnamespace, isSatisfied_baseTypeRule_of_derivedClass? hclass,
      ⟨hbase, hidentifier⟩, hnamespace⟩

/-- A class that is given an ASCII name is recognised. -/
theorem isRecognised_asciiName :
    Engine.ofDialect powerLanguage = .ok .powerLanguage ∧
      Engine.powerLanguage.withClassName "Uber".toList =
        .ok ⟨powerLanguage, powerLanguage.rules, "Uber".toList⟩ ∧
      Engine.powerLanguage.shape
          (Engine.convert ⟨powerLanguage, powerLanguage.rules, "Uber".toList⟩
            "int x;".toList).generatedCode =
        (.completeUnit, some "Uber".toList) := by
  have hname : IsIdentifier "Uber".toList :=
    ⟨'U', "ber".toList, by decide, by decide, by decide⟩
  have hnamed : Engine.powerLanguage.withClassName "Uber".toList =
      .ok ⟨powerLanguage, powerLanguage.rules, "Uber".toList⟩ := rfl
  exact ⟨Engine.ofDialect_powerLanguage, hnamed,
    ((isRecognised_iff Engine.ofDialect_powerLanguage hnamed (by decide +kernel)).mpr
      ⟨by decide, hname, .inl (by decide)⟩).2.2⟩

/-- A class whose name starts with another letter is not recognised: the generated code
is taken for bare members. -/
theorem isRecognised_otherLetter :
    Engine.ofDialect powerLanguage = .ok .powerLanguage ∧
      Engine.powerLanguage.withClassName "Über".toList =
        .ok ⟨powerLanguage, powerLanguage.rules, "Über".toList⟩ ∧
      (Engine.powerLanguage.shape "int x;".toList).1 = .members ∧
      Engine.powerLanguage.shape
          (Engine.convert ⟨powerLanguage, powerLanguage.rules, "Über".toList⟩
            "int x;".toList).generatedCode =
        (.members, none) :=
  ⟨Engine.ofDialect_powerLanguage, by rfl, by decide +kernel, by decide +kernel⟩

end Dialect

end StrategyDialect
