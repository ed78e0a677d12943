import StrategyDialect.Proofs.Strategy.Confinement

/-!
# Conversion repairs a strategy

Whatever text is converted, the rules of the dialect find nothing to object to in the
result, except that the entry method is missing if it was missing before.  Each rule is
an occurrence of its pattern, so there are two arguments and no others.

* What the frame must supply, it supplies: the header of the namespace and the header of
  the class hold the occurrences that the rules look for
  (`Dialect.isSatisfied_namespaceRule_convert`,
  `Dialect.isSatisfied_baseTypeRule_convert`), or the strategy brought them along.
* What the frame must not touch, it does not touch: every occurrence of the entry method
  in the result lies inside the strategy (`Dialect.confined_entryMethodPattern`).

The names of a dialect have to end in word characters: the patterns ask for a word
boundary behind the namespace and the base type, and a name that ends with a numeral
such as `²` has none.  The configured name of a class needs no such condition; that it
is a name is what an engine checks (`Engine.withClassName`).

## Main definitions

* `Dialect.EndsInWord`: the namespace and the base type end in word characters

## Main statements

* `Dialect.errors_convert`: the verdict on a converted strategy
-/

namespace StrategyDialect

namespace Dialect

open Text Cursor Pattern Wrapper

/-- The namespace and the base type end in word characters, so that a word boundary can
follow them. -/
structure EndsInWord (d : Dialect) : Prop where
  namespaceName : isWordAt d.namespaceName.getLast? = true
  baseType : isWordAt d.baseType.getLast? = true

variable {d : Dialect} {className configured requested source a b s : Text}

/-! ## What the frame supplies -/

/-- A text with the head of the namespace in it satisfies the namespace rule. -/
theorem isSatisfied_namespaceRule_of_head
    (hname : isWordAt d.namespaceName.getLast? = true) {u v : Text}
    (hu : isWordAt u.getLast? = false) :
    d.namespaceRule.isSatisfied (u ++ d.namespaceHead ++ v) = true := by
  obtain ⟨r, hr⟩ := exists_namespaceHead_eq d
  have hbefore : isWordAt u.reverse.head? = false := by rwa [List.head?_reverse]
  have hrest : d.namespaceHead ++ v =
      "namespace".toList ++ [' '] ++ d.namespaceName ++ '\n' :: (r ++ v) := by
    rw [hr]
    generalize "namespace".toList = keyword
    simp
  obtain ⟨e, he⟩ :=
    exists_matches_namespacePattern (c := ⟨u.reverse, d.namespaceHead ++ v⟩)
      hname hbefore hrest
  exact occursIn_iff.mpr ⟨_, e, by simp [text], he⟩

/-- A text with the head of a class in it satisfies the base type rule. -/
theorem isSatisfied_baseTypeRule_of_head (hbase : isWordAt d.baseType.getLast? = true)
    {u v : Text} :
    d.baseTypeRule.isSatisfied (u ++ d.classHead className ++ v) = true := by
  obtain ⟨r, hr⟩ := exists_classHead_eq d className
  generalize "class ".toList = keyword at hr
  generalize "    public ".toList = modifier at hr
  obtain ⟨e, he⟩ := exists_matches_derivation hbase
    (c := ⟨(u ++ (modifier ++ (keyword ++ className ++ [' ']))).reverse,
      [':', ' '] ++ d.baseType ++ '\n' :: ("    ".toList ++ '{' :: r ++ v)⟩) rfl
  refine occursIn_iff.mpr ⟨_, e, ?_, he⟩
  rw [hr, text_eq_append]
  simp

/-- **A converted strategy lies in the namespace**: a complete strategy did so before,
and any other gets a header that says so. -/
theorem isSatisfied_namespaceRule_convert (hd : d.Accepted) (hends : d.EndsInWord)
    (hconfigured : configured.isName = true) (requested source : Text) :
    d.namespaceRule.isSatisfied (d.convert configured requested source).generatedCode =
      true := by
  have husings : isWordAt (d.usingsHeader source).getLast? = false :=
    (seams (header_usingsHeader hd source) (isTrailer_trailer source .completeUnit)).left
  have hhead : ∀ v, d.namespaceRule.isSatisfied (d.usingsHeader source ++ d.namespaceHead
    ++ v) = true :=
    fun v => isSatisfied_namespaceRule_of_head hends.namespaceName husings
  -- A complete strategy has brought the namespace along; for the others it is generated.
  cases hshape : (d.shape source).1 with
  | completeUnit =>
    obtain ⟨a, b, ha, hb, hcode⟩ := exists_frame hd requested source hconfigured
    rw [hcode]
    exact occursIn_embed_of_occursIn (seams ha hb) isRegular_namespacePattern
      (isSatisfied_namespaceRule_of_shape hshape)
  | classDeclaration =>
    rw [generatedCode_eq, hshape, header, List.append_assoc]
    exact hhead _
  | members =>
    rw [generatedCode_eq, hshape, header, List.append_assoc, List.append_assoc]
    exact hhead _

/-- **A converted strategy derives from the base type**: members get a class that does,
and any other strategy has brought one along. -/
theorem isSatisfied_baseTypeRule_convert (hd : d.Accepted) (hends : d.EndsInWord)
    (hconfigured : configured.isName = true) (requested source : Text) :
    d.baseTypeRule.isSatisfied (d.convert configured requested source).generatedCode =
      true := by
  by_cases hshape : (d.shape source).1 = .members
  · rw [generatedCode_eq, hshape, header, List.append_assoc]
    exact isSatisfied_baseTypeRule_of_head hends.baseType
  · obtain ⟨name, hname, -⟩ := exists_derivedClass?_of_shape hshape
    obtain ⟨a, b, ha, hb, hcode⟩ := exists_frame hd requested source hconfigured
    rw [hcode]
    exact occursIn_embed_of_occursIn (seams ha hb) isRegular_baseTypePattern
      (isSatisfied_baseTypeRule_of_derivedClass? hname)

/-! ## What the frame leaves alone -/

/-- Conversion neither adds an entry method nor hides one. -/
theorem isSatisfied_entryMethodRule_convert (hd : d.Accepted)
    (hconfigured : configured.isName = true) (requested source : Text) :
    d.entryMethodRule.isSatisfied (d.convert configured requested source).generatedCode =
      d.entryMethodRule.isSatisfied source := by
  obtain ⟨a, b, ha, hb, hcode⟩ := exists_frame hd requested source hconfigured
  rw [hcode]
  exact occursIn_embed (seams ha hb) isRegular_entryMethodPattern
    (confined_entryMethodPattern hd ha hb)

/-! ## The verdict -/

/-- A text in which the namespace occurs is not blank. -/
theorem isAllBlank_eq_false_of_isSatisfied
    (h : d.namespaceRule.isSatisfied source = true) : source.isAllBlank = false := by
  obtain ⟨c, e, rfl, hmatch⟩ := occursIn_iff.mp h
  obtain ⟨-, ⟨w, -, -, hreads⟩, -⟩ := matches_namespacePattern_iff.mp hmatch
  have hmem : 'n' ∈ c.text := by
    rw [text_eq_append, hreads.rest_eq]
    simp
  rw [isAllBlank, List.all_eq_false]
  exact ⟨'n', hmem, by decide⟩

/-- **The verdict on a converted strategy** of any shape: nothing, if the strategy has
the entry method, and otherwise only that it lacks it.  Moreover the occurrences of the
entry method in the result are those in the strategy, moved behind the header. -/
theorem errors_convert (hcheck : d.check = .ok ()) (hends : d.EndsInWord)
    (hconfigured : configured.isName = true) (requested source : Text) :
    (Validation.ofRules d.rules
      (d.convert configured requested source).generatedCode).errors =
        (if d.entryMethodRule.isSatisfied source then []
          else [d.entryMethodRule.message]) ∧
      ∃ a b, (d.convert configured requested source).generatedCode = a ++ source ++ b ∧
        ∀ c e, c.text = a ++ source ++ b →
          (Matches (d.entryMethodPattern : Pattern Empty) c e ↔
            ∃ c' e', c'.text = source ∧ c = c'.widen a b ∧ e = e'.widen a b ∧
              Matches (d.entryMethodPattern : Pattern Empty) c' e') := by
  have hd : d.Accepted := check_eq_ok_iff.mp hcheck
  constructor
  · have hnamespace :=
      isSatisfied_namespaceRule_convert hd hends hconfigured requested source
    have hbase := isSatisfied_baseTypeRule_convert hd hends hconfigured requested source
    have hentry := isSatisfied_entryMethodRule_convert hd hconfigured requested source
    have hvisible := isAllBlank_eq_false_of_isSatisfied hnamespace
    rw [Validation.ofRules, if_neg (by simp [hvisible])]
    -- Two rules are kept in any case, and the third as it was before.
    cases hcalled : d.entryMethodRule.isSatisfied source <;>
      simp [rules, Rule.check, hnamespace, hbase, hentry, hcalled]
  · obtain ⟨a, b, ha, hb, hcode⟩ := exists_frame hd requested source hconfigured
    exact ⟨a, b, hcode, fun c e hc =>
      matches_embed_iff (seams ha hb) isRegular_entryMethodPattern
        (confined_entryMethodPattern hd ha hb) hc⟩

/-- The names of the dialect in use end in letters. -/
theorem endsInWord_powerLanguage : powerLanguage.EndsInWord :=
  ⟨by decide, by decide⟩

/-- The entry method alone becomes a strategy without errors. -/
theorem errors_convert_entryMethod :
    powerLanguage.check = .ok () ∧ powerLanguage.EndsInWord ∧
      powerLanguage.className.isName = true ∧
      (Validation.ofRules powerLanguage.rules
        (powerLanguage.convert powerLanguage.className []
        "void CalcBar() \x7b \x7d".toList).generatedCode).errors = [] := by
  have hcheck : powerLanguage.check = .ok () := by decide
  have hname : powerLanguage.className.isName = true := by decide
  have hcalled : powerLanguage.entryMethodRule.isSatisfied
      "void CalcBar() \x7b \x7d".toList = true := by
    decide +kernel
  have herrors := (errors_convert hcheck endsInWord_powerLanguage hname []
    "void CalcBar() \x7b \x7d".toList).1
  rw [if_pos hcalled] at herrors
  exact ⟨hcheck, endsInWord_powerLanguage, hname, herrors⟩

end Dialect

end StrategyDialect
