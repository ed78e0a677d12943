import StrategyDialect.Proofs.Strategy.Nesting
import StrategyDialect.Proofs.Strategy.Repair

/-!
# What a converted strategy contains

A converted strategy is the strategy itself with one text before it and one after it.
The two texts are determined by little: `Dialect.opening` and `Dialect.closing` have as
arguments all that they depend on, and the strategy is not among them.

The names of the dialect are found in the result for two different reasons.  Of a
strategy without the namespace or without a class, they stand in the heads that are put
before it.  Of a complete unit nothing is written; there the searches that made it one
have found them (`Dialect.isInfix_namespaceName_of_isSatisfied`,
`Dialect.isInfix_baseType_of_isSatisfied`).

Around a balanced strategy the braces stay balanced, because the opening leaves as many
blocks open as the closing closes (`Dialect.nesting?_opening`,
`Dialect.nesting?_closing`).  Names hold no braces, so this does not depend on them; and
a line end more or less does not matter to it either.

## Main definitions

* `Dialect.opening`, `Dialect.closing`: the texts before and after a strategy
* `SourceShape.openBlocks`: the number of blocks around a strategy

## Main statements

* `Dialect.convert_contains`: what a converted strategy contains, and where its blocks
  are closed
-/

namespace StrategyDialect

/-- The number of blocks that are put around a strategy: the namespace, and the class. -/
def SourceShape.openBlocks : SourceShape → Nat
  | completeUnit => 0
  | classDeclaration => 1
  | members => 2

namespace Dialect

open Text Cursor Pattern

/-- Directives, one on a line, with a blank line after them. -/
def directiveLines : List Text → Text
  | [] => []
  | directives => directives.flatMap (· ++ ['\n']) ++ ['\n']

/-- The text before a strategy of a given shape that lacks the given directives. -/
def opening (d : Dialect) (className : Text) (missing : List Text) : SourceShape → Text
  | .completeUnit => directiveLines missing
  | .classDeclaration => directiveLines missing ++ d.namespaceHead
  | .members => directiveLines missing ++ d.namespaceHead ++ d.classHead className

/-- Whether a text needs no newline before something else starts on a line of its own. -/
def endsLine (source : Text) : Bool :=
  source.isEmpty || source.getLast? == some '\n'

/-- The text after a strategy of a given shape, whose last line is closed or not. -/
def closing (isClosed : Bool) : SourceShape → Text
  | .completeUnit => []
  | .classDeclaration => (if isClosed then [] else ['\n']) ++ "\x7d\n".toList
  | .members => (if isClosed then [] else ['\n']) ++ "    \x7d\n\x7d\n".toList

variable {d : Dialect} {className configured source : Text} {n : Nat}

/-- The text before a strategy depends on the strategy by its shape and its missing
directives only. -/
theorem header_eq_opening (d : Dialect) (className source : Text) (shape : SourceShape) :
    d.header className source shape =
      d.opening className (d.missingDirectives source) shape := by
  cases shape <;> rfl

/-- The text after it depends on the shape, and on whether the strategy ends its last
line. -/
theorem trailer_eq_closing (source : Text) (shape : SourceShape) :
    trailer source shape = closing (endsLine source) shape := by
  have hnewline : missingNewline source = if endsLine source then [] else ['\n'] := by
    simp [missingNewline, endsLine]
  cases shape with
  | completeUnit => rfl
  | classDeclaration => rw [trailer, closing, hnewline]
  | members => rw [trailer, closing, hnewline]

/-! ## Names -/

/-- Where the rule for the namespace is satisfied, the name of the namespace stands in
the strategy. -/
theorem isInfix_namespaceName_of_isSatisfied
    (h : d.namespaceRule.isSatisfied source = true) : d.namespaceName <:+: source := by
  obtain ⟨c, e, rfl, hmatch⟩ := occursIn_iff.mp h
  obtain ⟨-, ⟨w, -, -, hreads⟩, -⟩ := matches_namespacePattern_iff.mp hmatch
  refine ⟨c.before.reverse ++ ("namespace".toList ++ w), e.rest, ?_⟩
  rw [text_eq_append, hreads.rest_eq]
  simp only [List.append_assoc]

/-- Where the rule for the base type is satisfied, the base type stands in the
strategy. -/
theorem isInfix_baseType_of_isSatisfied (h : d.baseTypeRule.isSatisfied source = true) :
    d.baseType <:+: source := by
  obtain ⟨c, e, rfl, hmatch⟩ := occursIn_iff.mp h
  obtain ⟨⟨w, q, -, -, hreads⟩, -⟩ := matches_derivation_iff.mp hmatch
  refine ⟨c.before.reverse ++ ([':'] ++ w ++ q), e.rest, ?_⟩
  rw [text_eq_append, hreads.rest_eq]
  simp only [List.append_assoc]

/-- The head of a namespace has the name of the dialect in it. -/
theorem isInfix_namespaceName_namespaceHead (d : Dialect) :
    d.namespaceName <:+: d.namespaceHead :=
  ⟨_, _, rfl⟩

/-- The head of a class has the base type of the dialect in it. -/
theorem isInfix_baseType_classHead (d : Dialect) (className : Text) :
    d.baseType <:+: d.classHead className := by
  obtain ⟨r, hr⟩ := exists_classHead_eq d className
  rw [hr]
  generalize "    public ".toList = modifier
  generalize "class ".toList = keyword
  exact ⟨modifier ++ (keyword ++ className ++ [' '] ++ [':', ' ']),
    '\n' :: ("    ".toList ++ '{' :: r), by simp⟩

/-- **The namespace stands in a converted strategy** of any shape. -/
theorem isInfix_namespaceName_convert (d : Dialect) (configured requested source : Text) :
    d.namespaceName <:+: (d.convert configured requested source).generatedCode := by
  rw [generatedCode_eq]
  cases hshape : (d.shape source).1 with
  | completeUnit =>
    exact ((isInfix_namespaceName_of_isSatisfied
      (isSatisfied_namespaceRule_of_shape hshape)).trans (List.infix_append _ source _))
  | classDeclaration =>
    have hhead : d.namespaceName <:+: d.usingsHeader source ++ d.namespaceHead :=
      (isInfix_namespaceName_namespaceHead d).trans (List.suffix_append ..).isInfix
    rw [header, List.append_assoc]
    exact hhead.trans (List.prefix_append ..).isInfix
  | members =>
    have hhead : d.namespaceName <:+: d.usingsHeader source ++ d.namespaceHead :=
      (isInfix_namespaceName_namespaceHead d).trans (List.suffix_append ..).isInfix
    rw [header, List.append_assoc, List.append_assoc]
    exact hhead.trans (List.prefix_append ..).isInfix

/-- **The base type stands in a converted strategy** of any shape. -/
theorem isInfix_baseType_convert (d : Dialect) (configured requested source : Text) :
    d.baseType <:+: (d.convert configured requested source).generatedCode := by
  rw [generatedCode_eq]
  by_cases hshape : (d.shape source).1 = .members
  · rw [hshape, header, List.append_assoc]
    exact ((isInfix_baseType_classHead d _).trans (List.suffix_append ..).isInfix).trans
      (List.prefix_append ..).isInfix
  · obtain ⟨name, hname, -⟩ := exists_derivedClass?_of_shape hshape
    exact (isInfix_baseType_of_isSatisfied
      (isSatisfied_baseTypeRule_of_derivedClass? hname)).trans
      (List.infix_append _ source _)

/-! ## Blocks -/

/-- A name keeps the depth, as it has no braces. -/
theorem nesting?_of_isName {name : Text} (h : name.isName = true) :
    nesting? n name = some n := by
  have hbrace : ∀ x, isNameChar x = false → x ∉ name := by
    intro x hx hmem
    rw [isNameChar_of_mem h hmem] at hx
    cases hx
  exact nesting?_of_not_mem (hbrace '{' (by decide)) (hbrace '}' (by decide))

/-- A qualified name keeps the depth as well. -/
theorem nesting?_of_isQualifiedName {name : Text} (h : name.isQualifiedName = true) :
    nesting? n name = some n := by
  have hbrace : ∀ x ≠ '.', isNameChar x = false → x ∉ name := by
    intro x hdot hx hmem
    rcases eq_or_isNameChar_of_mem h hmem with rfl | hx'
    · exact hdot rfl
    · rw [hx'] at hx
      cases hx
  exact nesting?_of_not_mem (hbrace '{' (by decide) (by decide))
    (hbrace '}' (by decide) (by decide))

/-- A fixed text adds as many blocks at any depth. -/
private theorem nesting?_piece {t : Text} {k : Nat} (h : nesting? 0 t = some k) :
    nesting? n t = some (n + k) := by
  have hadd := nesting?_add h n
  rwa [Nat.zero_add, Nat.add_comm k n] at hadd

/-- Directives keep the depth, however many there are. -/
theorem nesting?_directiveLines (hd : d.Accepted) (source : Text) :
    nesting? n (directiveLines (d.missingDirectives source)) = some n := by
  have hnewline : nesting? n ['\n'] = some n := nesting?_piece (k := 0) (by decide)
  have hline : ∀ directive ∈ d.missingDirectives source,
      nesting? n (directive ++ ['\n']) = some n := by
    intro directive h
    obtain ⟨name, hname, rfl⟩ := exists_of_mem_missingDirectives h
    have hkeyword : nesting? n "using ".toList = some n :=
      nesting?_piece (k := 0) (by decide)
    have hend : nesting? n [';'] = some n := nesting?_piece (k := 0) (by decide)
    have hname' := nesting?_of_isQualifiedName (n := n) (hd.usings name hname)
    rw [usingDirective_eq, List.append_assoc, List.append_assoc,
      nesting?_append_of_some hkeyword, nesting?_append_of_some hname',
      nesting?_append_of_some hend, hnewline]
  cases hmissing : d.missingDirectives source with
  | nil => simp [directiveLines]
  | cons directive directives =>
    rw [directiveLines,
      nesting?_append_of_some (nesting?_flatMap (hmissing ▸ hline)), hnewline]
    simp

/-- The head of a namespace opens one block. -/
theorem nesting?_namespaceHead (hd : d.Accepted) :
    nesting? n d.namespaceHead = some (n + 1) := by
  have hkeyword : nesting? n "namespace ".toList = some n :=
    nesting?_piece (k := 0) (by decide)
  have hopen : nesting? n "\n\x7b\n".toList = some (n + 1) :=
    nesting?_piece (k := 1) (by decide)
  have hname := nesting?_of_isQualifiedName (n := n) hd.namespaceName
  unfold namespaceHead
  rw [List.append_assoc, nesting?_append_of_some hkeyword,
    nesting?_append_of_some hname, hopen]

/-- The head of a class opens one block.  The constructor in it is opened and closed
again. -/
theorem nesting?_classHead (hd : d.Accepted) (hname : className.isName = true) :
    nesting? n (d.classHead className) = some (n + 1) := by
  have hclass : nesting? n "    public class ".toList = some n :=
    nesting?_piece (k := 0) (by decide)
  have hcolon : nesting? n " : ".toList = some n := nesting?_piece (k := 0) (by decide)
  have hopen : nesting? n "\n    \x7b\n".toList = some (n + 1) :=
    nesting?_piece (k := 1) (by decide)
  have hpublic : nesting? (n + 1) "        public ".toList = some (n + 1) :=
    nesting?_piece (k := 0) (by decide)
  have hconstructor : nesting? (n + 1) "(object _ctx) : base(_ctx) \x7b \x7d\n\n".toList =
      some (n + 1) :=
    nesting?_piece (k := 0) (by decide)
  unfold classHead
  simp only [List.append_assoc]
  rw [nesting?_append_of_some hclass, nesting?_append_of_some (nesting?_of_isName hname),
    nesting?_append_of_some hcolon,
      nesting?_append_of_some (nesting?_of_isName hd.baseType),
    nesting?_append_of_some hopen, nesting?_append_of_some hpublic,
    nesting?_append_of_some (nesting?_of_isName hname), hconstructor]

/-- **The opening leaves the blocks of the frame open**, and no others. -/
theorem nesting?_opening (hd : d.Accepted) (source : Text) {shape : SourceShape}
    (hname : shape = .members → className.isName = true) :
    nesting? 0 (d.opening className (d.missingDirectives source) shape) =
      some shape.openBlocks := by
  have hlines := nesting?_directiveLines (n := 0) hd source
  cases shape with
  | completeUnit => exact hlines
  | classDeclaration =>
    rw [opening, nesting?_append_of_some hlines]
    exact nesting?_namespaceHead hd
  | members =>
    rw [opening, List.append_assoc, nesting?_append_of_some hlines,
      nesting?_append_of_some (nesting?_namespaceHead hd)]
    exact nesting?_classHead hd (hname rfl)

/-- **The closing closes the blocks of the frame**, and no others. -/
theorem nesting?_closing (isClosed : Bool) (shape : SourceShape) :
    nesting? shape.openBlocks (closing isClosed shape) = some 0 := by
  cases shape <;> cases isClosed <;> decide

/-! ## The whole -/

/-- **What a converted strategy contains**: the strategy, between two texts that depend
on its shape, the name of its class, the directives that it lacks and its line end only;
and the names of the dialect.  If the strategy is balanced, so is the result, and every
block that the text before the strategy leaves open is closed behind the strategy: the
namespace and the class, as the shape demands. -/
theorem convert_contains (hcheck : d.check = .ok ())
    (hconfigured : configured.isName = true) (requested source : Text) :
    ∃ p q, p = d.opening (d.convert configured requested source).className
      (d.missingDirectives source)
          (d.convert configured requested source).shape ∧
      q = closing (endsLine source) (d.convert configured requested source).shape ∧
      (d.convert configured requested source).generatedCode = p ++ source ++ q ∧
      d.namespaceName <:+: (d.convert configured requested source).generatedCode ∧
      d.baseType <:+: (d.convert configured requested source).generatedCode ∧
      (IsBalanced source →
        IsBalanced (d.convert configured requested source).generatedCode ∧
        nesting? 0 p = some (d.convert configured requested source).shape.openBlocks ∧
        ∀ u v, p = u ++ '{' :: v → Block.length? ('{' :: v) = none →
          ∃ n, Block.length? ('{' :: (v ++ source ++ q)) = some n ∧
            ('{' :: (v ++ source)).length < n) := by
  have hd : d.Accepted := check_eq_ok_iff.mp hcheck
  have hshape : (d.convert configured requested source).shape = (d.shape source).1 := rfl
  have hcode := generatedCode_eq d configured requested source
  rw [header_eq_opening, trailer_eq_closing] at hcode
  -- The text before the strategy opens as many blocks as the one behind it closes.
  have hopen : nesting? 0 (d.opening (d.convert configured requested source).className
      (d.missingDirectives source) (d.shape source).1) =
        some (d.shape source).1.openBlocks :=
    nesting?_opening hd source (isName_className requested hconfigured)
  have hclose : nesting? (d.shape source).1.openBlocks
      (closing (endsLine source) (d.shape source).1) = some 0 :=
    nesting?_closing ..
  rw [hshape]
  refine ⟨_, _, rfl, rfl, hcode, isInfix_namespaceName_convert ..,
    isInfix_baseType_convert .., fun hbalanced => ?_⟩
  have hs : nesting? 0 source = some 0 := isBalanced_iff.mp hbalanced
  have hinside : nesting? (d.shape source).1.openBlocks source =
      some (d.shape source).1.openBlocks := by
    simpa using nesting?_add hs (d.shape source).1.openBlocks
  refine ⟨isBalanced_iff.mpr ?_, hopen,
    fun u v => Block.exists_lt_of_length?_eq_none hopen hs hclose⟩
  rw [hcode, List.append_assoc, nesting?_append_of_some hopen,
    nesting?_append_of_some hinside, hclose]

/-- A method whose line is not closed, in a class with a name that is not ASCII. -/
theorem convert_contains_openLine :
    powerLanguage.check = .ok () ∧ powerLanguage.className.isName = true ∧
      endsLine "void CalcBar() \x7b \x7d".toList = false ∧
      IsBalanced "void CalcBar() \x7b \x7d".toList ∧
      IsBalanced (powerLanguage.convert powerLanguage.className "Über".toList
        "void CalcBar() \x7b \x7d".toList).generatedCode := by
  have hcheck : powerLanguage.check = .ok () := by decide
  have hname : powerLanguage.className.isName = true := by decide
  have hbalanced : IsBalanced "void CalcBar() \x7b \x7d".toList := by decide
  obtain ⟨p, q, -, -, -, -, -, hblocks⟩ :=
    convert_contains hcheck hname "Über".toList "void CalcBar() \x7b \x7d".toList
  exact ⟨hcheck, hname, by decide, hbalanced, (hblocks hbalanced).1⟩

end Dialect

end StrategyDialect
