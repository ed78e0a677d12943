import StrategyDialect.Proofs.Engine
import StrategyDialect.Proofs.Pattern.Occurrence
import StrategyDialect.Proofs.Pattern.Spelling
import StrategyDialect.Proofs.Strategy.Readings

/-!
# The grammar of the rules

The patterns of a dialect are written out with the names of the dialect in them.  This
module shows that they can be read for every dialect, whatever its names are, and what
the rules that are read accept.

* **No name makes a pattern malformed.**  The names are quoted, and everything around
  them is fixed, so each text is read piece by piece (`Dialect.writes_namespaceText` and
  its siblings).  The engine whose patterns are read from texts is the engine for the
  dialect (`Engine.fromTexts_eq`), and it is refused with the error of the dialect or
  not at all.
* **A rule accepts the strategies with a certain stretch in them.**  The stretches are
  those of the patterns, with word boundaries turned into conditions on the characters
  around (`Dialect.isSatisfied_namespaceRule_iff` and its siblings).

## Main definitions

* `Dialect.NamesNamespace`, `Dialect.NamesBaseType`, `Dialect.NamesEntryMethod`:
  strategies with a stretch of the form that a rule asks for

## Main statements

* `Engine.fromTexts_eq`: the engine from textual patterns
* `Engine.fromTexts_grammar`: when it is refused, and what its rules accept otherwise
-/

namespace StrategyDialect

open Pattern

namespace Pattern

variable {Label Label' : Type}

/-! ## Pieces of the textual form -/

/-- The piece for a word boundary. -/
theorem writes_boundary : Writes "\\b".toList [] [boundary] :=
  writes_atom (List.cons_ne_nil _ _) (by decide) fun _ => rfl

/-- The piece for a single blank. -/
theorem writes_blank : Writes "\\s".toList [] [one .blank] :=
  writes_atom (List.cons_ne_nil _ _) (by decide) fun _ => rfl

/-- The piece for a single word character. -/
theorem writes_word : Writes "\\w".toList [] [one .word] :=
  writes_atom (List.cons_ne_nil _ _) (by decide) fun _ => rfl

/-- Any number of blanks is a piece, made from the one for a single blank. -/
theorem writes_blanks : Writes "\\s*".toList [] [run .blank] :=
  writes_blank.star (by decide)

/-- What at least one character of a class is read as. -/
def readRun1 (k : CharClass) : Pattern Text :=
  seq (seq (one k) empty) (run k)

/-- At least one blank is a piece as well.  What the reader makes of it is not the
pattern that is used elsewhere, but matches the same stretches
(`matches_readRun1_iff`). -/
theorem writes_blanks1 : Writes "\\s+".toList [] [readRun1 .blank] :=
  writes_blank.plus

/-- What any number of qualifiers is read as. -/
def readQualifiers : Pattern Text :=
  star (sequence [readRun1 .word, run .blank, char '.', run .blank])

/-- The names in front of a qualified name, each with its dot.  The group opens no frame
that outlives it, so it is one item. -/
theorem writes_qualifiers : Writes "(?:\\w+\\s*\\.\\s*)*".toList [] [readQualifiers] :=
  have hword : Writes "\\w+".toList [] [readRun1 .word] := writes_word.plus
  have hqualifier :=
    hword.append (writes_blanks.append ((writes_quote ['.']).append writes_blanks))
  (hqualifier.choice.group "?:".toList none fun _ => rfl).star (by decide)

/-- The characters that a name starts with, as they are read. -/
def readNameStart : CharClass :=
  .union (.union (.union .none (.range 'A' 'Z')) (.range 'a' 'z')) (.single '_')

/-- The bracketed class of the characters that a name in a program may start with. -/
theorem writes_nameStart : Writes "[A-Za-z_]".toList [] [one readNameStart] :=
  writes_atom (List.cons_ne_nil _ _) (by decide) fun _ => rfl

/-- The name of a class, which is a group of its own: it is the one group that the
search reads out. -/
theorem writes_name :
    Writes "(?P<name>[A-Za-z_]\\w*)".toList ["name".toList]
      [group "name".toList (sequence [one readNameStart, run .word])] :=
  (writes_nameStart.append (writes_word.star (by decide))).choice.group "?P<name>".toList
    (some "name".toList)
    fun _ => rfl

/-- A class that lists the characters outside, any number of times. -/
theorem writes_outside (t : Text) {k : CharClass}
    (h : ∀ r, PatternToken.read ('[' :: '^' :: t ++ r) = .ok (.atom (one k), r)) :
    Writes ('[' :: '^' :: t ++ ['*']) [] [run k] :=
  (writes_atom (List.cons_ne_nil _ _) (by simp) h).star (show 1 ≤ largestSize by decide)

end Pattern

namespace Dialect
variable (d : Dialect)

/-- The text for the namespace, piece by piece.  The name of the namespace is whatever
text it is, because it is quoted. -/
theorem writes_namespaceText :
    Writes d.namespaceText []
      (boundary :: ("namespace".toList.map char ++ readRun1 .blank
        :: (d.namespaceName.map char ++ [boundary]))) :=
  writes_boundary.append <| (writes_quote "namespace".toList).append <|
    writes_blanks1.append <|
    (writes_quote d.namespaceName).append writes_boundary

/-- The text for the base type: a colon, the qualifiers, and the quoted name. -/
theorem writes_baseTypeText :
    Writes d.baseTypeText []
      (char ':' :: run .blank :: readQualifiers :: (d.baseType.map char ++ [boundary])) :=
  (writes_quote [':']).append <| writes_blanks.append <| writes_qualifiers.append <|
    (writes_quote d.baseType).append writes_boundary

/-- The text for the entry method: the keyword, the quoted name, and a parenthesis. -/
theorem writes_entryMethodText :
    Writes d.entryMethodText []
      (boundary :: ("void".toList.map char ++ readRun1 .blank
        :: (d.entryMethod.map char ++ [run .blank, char '(']))) :=
  writes_boundary.append <| (writes_quote "void".toList).append <|
    writes_blanks1.append <|
    (writes_quote d.entryMethod).append <| writes_blanks.append (writes_quote ['('])

/-- The text for a derived class is read.  Which items come of it is left open: of the
three texts that are searched with, it is only asked that they can be read. -/
theorem exists_writes_derivedClassText :
    ∃ ps, Writes d.derivedClassText ["name".toList] ps := by
  have houtside := writes_outside ">]".toList fun _ => rfl
  have hparams :=
    ((writes_quote ['<']).append (houtside.append (writes_quote ['>']))).choice
  exact ⟨_, writes_boundary.append <| (writes_quote "class".toList).append <|
    writes_blanks1.append <|
    writes_name.append <| writes_blanks.append <|
    (hparams.optionalGroup "?:".toList none (fun _ => rfl) (by decide)).append <|
      writes_blanks.append d.writes_baseTypeText⟩

/-- The text for the modifiers is read, as one item. -/
theorem exists_writes_modifiersText : ∃ p, Writes modifiersText [] [p] := by
  have hwords :=
    (writes_quote "public".toList).bar <| (writes_quote "private".toList).bar <|
    (writes_quote "protected".toList).bar <| (writes_quote "internal".toList).bar <|
    (writes_quote "static".toList).bar <| (writes_quote "readonly".toList).bar <|
    (writes_quote "new".toList).bar <|
      (writes_quote "virtual".toList).bar (writes_quote "override".toList).choice
  have hmodifier := (hwords.group "?:".toList none fun _ => rfl).append writes_blanks1
  exact ⟨_, (hmodifier.choice.group "?:".toList none fun _ => rfl).star (by decide)⟩

/-- The text for a type is read, with its three optional parts. -/
theorem exists_writes_typeText : ∃ ps, Writes typeText [] ps := by
  have hpart : Writes "[\\w.]".toList [] _ :=
    writes_atom (List.cons_ne_nil _ _) (by decide) fun _ => rfl
  have houtside := writes_outside "<>;\x7b\x7d]".toList fun _ => rfl
  have harguments :=
    (writes_blanks.append <| (writes_quote ['<']).append <|
      houtside.append (writes_quote ['>'])).choice
  have hsuffix :=
    (writes_blanks.append <| (writes_quote ['[']).append <|
      writes_blanks.append (writes_quote [']'])).choice
  have hread : ∀ r, PatternToken.read ("\\?".toList ++ r) = .ok (.atom (char '?'), r) :=
    fun _ => rfl
  have hmark := writes_optional_atom (List.cons_ne_nil _ _) (by decide) hread (by decide)
  exact ⟨_, writes_nameStart.append <| (hpart.star (by decide)).append <|
    (harguments.optionalGroup "?:".toList none (fun _ => rfl) (by decide)).append <|
    (hsuffix.optionalGroup "?:".toList none (fun _ => rfl) (by decide)).append hmark⟩

/-- The text for the rest of an attribute and for further attributes is read. -/
theorem exists_writes_attributeEndText : ∃ ps, Writes attributeEndText [] ps := by
  have houtside := writes_outside "\\]]".toList fun _ => rfl
  have hclose : Writes "\\]".toList [] _ := writes_quote [']']
  have harguments :=
    ((writes_quote ['(']).append <| houtside.append (writes_quote [')'])).choice
  have hattribute :=
    ((writes_quote ['[']).append <| houtside.append <| hclose.append writes_blanks).choice
  have hend := writes_blanks.append <|
    (harguments.optionalGroup "?:".toList none (fun _ => rfl) (by decide)).append <|
    writes_blanks.append <| hclose.append <| writes_blanks.append <|
    (hattribute.group "?:".toList none fun _ => rfl).star (by decide)
  exact ⟨_, hend⟩

/-- The text for a member is read.  It names three groups, and the names are
different. -/
theorem exists_writes_memberText :
    ∃ ps, Writes memberText ["ty".toList, "name".toList, "tail".toList] ps := by
  obtain ⟨ps, htype⟩ := exists_writes_typeText
  have htail := (writes_quote ['\x7b']).bar <| (writes_quote "=>".toList).bar <|
    (writes_quote ['=']).bar (writes_quote [';']).choice
  have hmember :=
    (htype.choice.group "?P<ty>".toList (some "ty".toList) fun _ => rfl).append <|
    writes_blanks1.append <| writes_name.append <| writes_blanks.append <|
    htail.group "?P<tail>".toList (some "tail".toList) fun _ => rfl
  exact ⟨_, hmember⟩

/-- The text for a declaration is read: the attribute of the dialect, and then a
member. -/
theorem exists_writes_declarationText :
    ∃ ps, Writes d.declarationText ["ty".toList, "name".toList, "tail".toList] ps := by
  have hopen : Writes "\\[\\s*".toList [] _ := (writes_quote ['[']).append writes_blanks
  obtain ⟨ps, hattribute⟩ := exists_writes_attributeEndText
  obtain ⟨p, hmodifiers⟩ := exists_writes_modifiersText
  obtain ⟨ps', hmember⟩ := exists_writes_memberText
  have hdeclaration := hopen.append <| (writes_quote d.inputAttribute).append <|
    hattribute.append <|
    hmodifiers.append hmember
  have htext : d.declarationText =
      "\\[\\s*".toList ++ (quote d.inputAttribute
        ++ (attributeEndText ++ (modifiersText ++ memberText))) := by
    unfold declarationText
    rw [List.append_assoc, List.append_assoc, List.append_assoc]
  rw [htext]
  exact ⟨_, hdeclaration⟩

/-- The text for the head of the entry method is read, up to its brace. -/
theorem exists_writes_entryHeadText : ∃ ps, Writes d.entryHeadText [] ps := by
  have houtside := writes_outside ")]".toList fun _ => rfl
  exact ⟨_, writes_boundary.append <| (writes_quote "void".toList).append <|
    writes_blanks1.append <|
    (writes_quote d.entryMethod).append <| writes_blanks.append <|
      (writes_quote ['(']).append <|
    houtside.append <| (writes_quote [')']).append <|
      writes_blanks.append (writes_quote ['\x7b'])⟩

end Dialect

/-! ## The patterns that are read -/

namespace Pattern

variable {Label Label' : Type} {c e : Cursor}

/-- The characters of a text in a row read this text, just as the literal does that the
library uses. -/
theorem matches_sequence_map_char_iff {t : Text} :
    Matches (sequence (t.map char) : Pattern Label) c e ↔ c.Reads t e := by
  have hliteral : (sequence (t.map char) : Pattern Label) = literal t := List.foldr_map
  rw [hliteral, matches_literal_iff]

/-- At least one character of a class, as the reader makes it of a class and a run,
matches what the library's own pattern for it matches. -/
theorem matches_readRun1_iff (Label : Type) {k : CharClass} :
    Matches (readRun1 k) c e ↔ Matches (run1 k : Pattern Label) c e := by
  simp [readRun1, run1, matches_seq_iff, matches_one_iff, matches_run_iff]

/-- Rounds with the same matches may take each other's place. -/
theorem Matches.star_of_imp {p : Pattern Label} {q : Pattern Label'}
    (h : ∀ c e, Matches p c e → Matches q c e) (hstar : Matches (star p) c e) :
    Matches (star q) c e := by
  generalize hp : star p = r at hstar
  induction hstar with
  | starStop c => exact .starStop c
  | starNext hfirst _ _ ih =>
    obtain rfl := star.inj hp
    exact .starNext (h _ _ hfirst) (ih hp)
  | _ => cases hp

/-- The qualifiers that are read from the text match what the library's own pattern
matches.  Both are repetitions, so it is enough to compare one round. -/
theorem matches_readQualifiers_iff (Label : Type) :
    Matches readQualifiers c e ↔ Matches (qualifiers : Pattern Label) c e := by
  have hround : ∀ c e,
      Matches (sequence [readRun1 .word, run .blank, char '.', run .blank]) c e ↔
      Matches (sequence [run1 .word, blanks, char '.', blanks] : Pattern Label) c e := by
    intro c e
    simp only [matches_sequence_cons_iff, matches_sequence_nil_iff,
      matches_readRun1_iff Label, matches_char_iff, matches_run_iff, blanks]
  exact ⟨.star_of_imp fun c e => (hround c e).mp,
    .star_of_imp fun c e => (hround c e).mpr⟩

variable [DecidableEq Label] [DecidableEq Label']

/-- Patterns with the same matches occur in the same texts. -/
theorem occursIn_congr {p : Pattern Label} {q : Pattern Label'}
    (h : ∀ c e, Matches p c e ↔ Matches q c e) : p.occursIn = q.occursIn := by
  ext t
  rw [Bool.eq_iff_iff, occursIn_iff, occursIn_iff]
  simp only [h]

/-- The rule for a text is the rule for a pattern that has the same matches as what the
text stands for. -/
theorem ofPatternText_eq_ok {t : Text} {ps : List (Pattern Text)} {q : Pattern Label}
    (ht : Writes t [] ps) (h : ∀ c e, Matches (sequence ps) c e ↔ Matches q c e)
    (name message : Text) :
    Rule.ofPatternText name message t = .ok (Rule.ofPattern name message q) := by
  have hread : ofText t = .ok (sequence ps) := ht.choice.ofText_eq List.nodup_nil
  have hrule : Rule.ofPattern name message (sequence ps) =
      Rule.ofPattern name message q :=
    congrArg (Rule.mk name message) (occursIn_congr h)
  rw [Rule.ofPatternText, hread, ← hrule]
  rfl

end Pattern

namespace Dialect

variable (d : Dialect)

/-- **The rules are read from their textual form**, whatever the names of the dialect
are. -/
theorem rulesFromTexts_eq : d.rulesFromTexts = .ok d.rules := by
  have hnamespace : Rule.ofPatternText d.namespaceRule.name d.namespaceRule.message
      d.namespaceText = .ok d.namespaceRule := by
    refine ofPatternText_eq_ok d.writes_namespaceText (fun c e => ?_) _ _
    simp only [namespacePattern, matches_sequence_cons_iff, matches_sequence_append_iff,
      matches_sequence_map_char_iff, matches_sequence_nil_iff, matches_readRun1_iff Empty,
      blanks1, matches_literal_iff, matches_boundary_iff]
  have hbase : Rule.ofPatternText d.baseTypeRule.name d.baseTypeRule.message
      d.baseTypeText = .ok d.baseTypeRule := by
    refine ofPatternText_eq_ok d.writes_baseTypeText (fun c e => ?_) _ _
    simp only [baseTypePattern, derivation, matches_sequence_cons_iff,
      matches_sequence_append_iff, matches_sequence_map_char_iff,
      matches_sequence_nil_iff, matches_readQualifiers_iff Empty, blanks, matches_run_iff,
      matches_char_iff, matches_literal_iff, matches_boundary_iff]
  have hentry : Rule.ofPatternText d.entryMethodRule.name d.entryMethodRule.message
      d.entryMethodText = .ok d.entryMethodRule := by
    refine ofPatternText_eq_ok d.writes_entryMethodText (fun c e => ?_) _ _
    simp only [entryMethodPattern, matches_sequence_cons_iff, matches_sequence_append_iff,
      matches_sequence_map_char_iff, matches_sequence_nil_iff, matches_readRun1_iff Empty,
      blanks1, blanks, matches_run_iff, matches_char_iff, matches_literal_iff,
      matches_boundary_iff]
  rw [rulesFromTexts, List.mapM_cons, List.mapM_cons, List.mapM_cons]
  dsimp only
  rw [hnamespace, hbase, hentry]
  rfl

/-- The patterns with which a strategy is searched can be read, whatever the names of
the dialect are. -/
theorem exists_ofText_of_mem_searchTexts {t : Text} (ht : t ∈ d.searchTexts) :
    ∃ p, ofText t = .ok p := by
  have hread : ∀ {t names ps}, names.Nodup → Writes t names ps → ∃ p, ofText t = .ok p :=
    fun hnames h => ⟨_, h.choice.ofText_eq hnames⟩
  obtain ⟨_, hclass⟩ := d.exists_writes_derivedClassText
  obtain ⟨_, hdeclaration⟩ := d.exists_writes_declarationText
  obtain ⟨_, hhead⟩ := d.exists_writes_entryHeadText
  have hthree : t = d.derivedClassText ∨ t = d.declarationText ∨ t = d.entryHeadText := by
    simpa [searchTexts] using ht
  rcases hthree with rfl | rfl | rfl
  · exact hread (by decide) hclass
  · exact hread (by decide) hdeclaration
  · exact hread (by decide) hhead

end Dialect

/-- **The engine whose patterns are read from texts is the engine for the dialect.** -/
theorem Engine.fromTexts_eq (d : Dialect) : Engine.fromTexts d = Engine.ofDialect d := by
  have hsearch : ∀ ts : List Text, (∀ t ∈ ts, ∃ p, ofText t = .ok p) →
      ts.forM Dialect.checkPatternText = .ok () := by
    intro ts hts
    induction ts with
    | nil => rfl
    | cons t ts ih =>
      obtain ⟨p, hp⟩ := hts t (by simp)
      have hcheck : Dialect.checkPatternText t = .ok () := by
        rw [Dialect.checkPatternText, hp]
        rfl
      show (Dialect.checkPatternText t >>= fun _ => ts.forM Dialect.checkPatternText) = _
      rw [hcheck]
      exact ih fun t' ht' => hts t' (by simp [ht'])
  rw [Engine.fromTexts, Engine.ofDialect]
  cases d.check with
  | error e => rfl
  | ok u =>
    show (d.rulesFromTexts >>= _) = _
    rw [d.rulesFromTexts_eq]
    show (d.searchTexts.forM Dialect.checkPatternText >>= _) = _
    rw [hsearch d.searchTexts fun t ht => d.exists_ofText_of_mem_searchTexts ht]

/-! ## What the rules accept -/

namespace Dialect

open Cursor Text

variable {d : Dialect} {source : Text}

/-- The word `namespace` and the namespace of the dialect stand in the strategy, with
blanks between them.  No word character stands before them, and a word boundary behind
them. -/
def NamesNamespace (d : Dialect) (source : Text) : Prop :=
  ∃ before w after : Text,
    source = before ++ ("namespace".toList ++ w ++ d.namespaceName) ++ after ∧ w ≠ [] ∧
    w.IsBlank ∧ isWordAt before.getLast? = false ∧
    isWordAt d.namespaceName.getLast? ≠ isWordAt after.head?

/-- A colon and the base type of the dialect stand in the strategy, with blanks and
qualifiers between them.  A word boundary stands behind them. -/
def NamesBaseType (d : Dialect) (source : Text) : Prop :=
  ∃ before w q after : Text,
    source = before ++ ([':'] ++ w ++ q ++ d.baseType) ++ after ∧ w.IsBlank ∧
    Repeats IsQualifier q ∧ isWordAt d.baseType.getLast? ≠ isWordAt after.head?

/-- The word `void`, the entry method of the dialect and a parenthesis stand in the
strategy, with blanks between them.  No word character stands before them. -/
def NamesEntryMethod (d : Dialect) (source : Text) : Prop :=
  ∃ before w w' after : Text,
    source = before ++ ("void".toList ++ w ++ d.entryMethod ++ w' ++ ['(']) ++ after ∧
    w ≠ [] ∧ w.IsBlank ∧ w'.IsBlank ∧ isWordAt before.getLast? = false

/-- **The rule for the namespace** accepts a strategy with the keyword, blanks and the
name in it, where no longer word begins or ends. -/
theorem isSatisfied_namespaceRule_iff (hname : d.namespaceName ≠ []) :
    d.namespaceRule.isSatisfied source = true ↔ d.NamesNamespace source := by
  have hstart : ∀ b w after : Text,
      Cursor.meets ⟨b, "namespace".toList ++ w ++ d.namespaceName ++ after⟩
        .wordBoundary = true ↔
      isWordAt b.head? = false :=
    fun _ _ _ => meets_wordBoundary_start_iff (show isWord 'n' = true by decide)
  show (d.namespacePattern : Pattern Empty).occursIn source = true ↔ _
  simp only [occursIn_iff_exists_append, matches_namespacePattern_iff, reads_between_iff]
  constructor
  · rintro ⟨before, _, after, rfl, hc, ⟨w, hne, hw, rfl⟩, he⟩
    rw [hstart, List.head?_reverse] at hc
    rw [meets_wordBoundary_stop_iff hname (reads_mk _ _ _)] at he
    exact ⟨before, w, after, rfl, hne, hw, hc, he⟩
  · rintro ⟨before, w, after, rfl, hne, hw, hc, he⟩
    refine ⟨before, _, after, rfl, ?_, ⟨w, hne, hw, rfl⟩, ?_⟩
    · rwa [hstart, List.head?_reverse]
    · rwa [meets_wordBoundary_stop_iff hname (reads_mk _ _ _)]

/-- **The rule for the base type** accepts a strategy with a colon and the name in it,
with qualifiers in between, where the name is not part of a longer word. -/
theorem isSatisfied_baseTypeRule_iff (hname : d.baseType ≠ []) :
    d.baseTypeRule.isSatisfied source = true ↔ d.NamesBaseType source := by
  show (Pattern.sequence d.derivation : Pattern Empty).occursIn source = true ↔ _
  simp only [occursIn_iff_exists_append, matches_derivation_iff, reads_between_iff]
  constructor
  · rintro ⟨before, _, after, rfl, ⟨w, q, hw, hq, rfl⟩, he⟩
    rw [meets_wordBoundary_stop_iff hname (reads_mk _ _ _)] at he
    exact ⟨before, w, q, after, rfl, hw, hq, he⟩
  · rintro ⟨before, w, q, after, rfl, hw, hq, he⟩
    refine ⟨before, _, after, rfl, ⟨w, q, hw, hq, rfl⟩, ?_⟩
    rwa [meets_wordBoundary_stop_iff hname (reads_mk _ _ _)]

/-- **The rule for the entry method** accepts a strategy with the keyword, blanks, the
name and a parenthesis in it. -/
theorem isSatisfied_entryMethodRule_iff :
    d.entryMethodRule.isSatisfied source = true ↔ d.NamesEntryMethod source := by
  have hstart : ∀ b w w' after : Text,
      Cursor.meets ⟨b, "void".toList ++ w ++ d.entryMethod ++ w' ++ ['('] ++ after⟩
        .wordBoundary = true ↔
        isWordAt b.head? = false :=
          fun _ _ _ _ => meets_wordBoundary_start_iff (show isWord 'v' = true by decide)
  show (d.entryMethodPattern : Pattern Empty).occursIn source = true ↔ _
  simp only [occursIn_iff_exists_append, matches_entryMethodPattern_iff,
    reads_between_iff]
  constructor
  · rintro ⟨before, _, after, rfl, hc, w, w', hne, hw, hw', rfl⟩
    rw [hstart, List.head?_reverse] at hc
    exact ⟨before, w, w', after, rfl, hne, hw, hw', hc⟩
  · rintro ⟨before, w, w', after, rfl, hne, hw, hw', hc⟩
    refine ⟨before, _, after, rfl, ?_, w, w', hne, hw, hw', rfl⟩
    rwa [hstart, List.head?_reverse]

end Dialect

/-- **The engine for a dialect is refused with the error of the dialect or not at all**,
also if its patterns are read from texts; and its rules accept what they say.  A name of
the dialect goes into a pattern with its special characters escaped, so it stands for
itself there, and no name makes a pattern ill-formed. -/
theorem Engine.fromTexts_grammar (d : Dialect) :
    Engine.fromTexts d = Engine.ofDialect d ∧
      Engine.ofDialect d = d.check.map
        (fun _ => ⟨d, [d.namespaceRule, d.baseTypeRule, d.entryMethodRule],
          d.className⟩) ∧
      (d.check = .ok () → ∀ source,
        (d.namespaceRule.isSatisfied source = true ↔ d.NamesNamespace source) ∧
          (d.baseTypeRule.isSatisfied source = true ↔ d.NamesBaseType source) ∧
          (d.entryMethodRule.isSatisfied source = true ↔ d.NamesEntryMethod source)) := by
  refine ⟨fromTexts_eq d, ?_, fun hcheck source => ?_⟩
  · rw [ofDialect]
    cases d.check with
    | ok _ => rfl
    | error e => rfl
  · have hd : d.Accepted := Dialect.check_eq_ok_iff.mp hcheck
    have hnamespace : d.namespaceName ≠ [] := by
      intro hempty
      have hname := hd.namespaceName
      rw [hempty] at hname
      cases hname
    exact ⟨Dialect.isSatisfied_namespaceRule_iff hnamespace,
      Dialect.isSatisfied_baseTypeRule_iff (Text.ne_nil_of_isName hd.baseType),
      Dialect.isSatisfied_entryMethodRule_iff⟩

/-- A dot in the namespace is nothing but a dot. -/
theorem Engine.fromTexts_grammar_powerLanguage :
    Dialect.powerLanguage.check = .ok () ∧
      Dialect.powerLanguage.NamesNamespace
        "namespace\n  PowerLanguage.Strategy\n".toList ∧
      ¬Dialect.powerLanguage.NamesNamespace
        "namespace PowerLanguageXStrategy\n".toList := by
  have hcheck : Dialect.powerLanguage.check = .ok () := by decide
  obtain ⟨-, -, hgrammar⟩ := Engine.fromTexts_grammar .powerLanguage
  refine ⟨hcheck, (hgrammar hcheck _).1.mp (by decide +kernel), fun h => ?_⟩
  have hrule := (hgrammar hcheck _).1.mpr h
  revert hrule
  decide +kernel

end StrategyDialect
