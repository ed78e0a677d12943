import Mathlib.Data.List.Nodup
import StrategyDialect.Proofs.Strategy.ClassHeader

/-!
# Classification and validation

Whether a strategy has a class of its own is found out by a search, and whether it
inherits from the base type by a rule; the two have patterns of their own.  This module
shows that they do not contradict each other, and which of the classes of a strategy is
the one that is found.

A class is located by the offset of its keyword (`Dialect.IsClassAt`).  The offset
determines the name (`Dialect.IsClassAt.eq_takeWhile`): it is the whole word behind the
keyword, since no character of a word may follow the name of a header.  So the leftmost
class is unique, and it is the one that is found (`Dialect.derivedClass?_eq_some_iff`),
whatever other classes the strategy declares before or after it.

On the other side, the messages of the rules differ from each other and from the message
for a blank strategy (`Dialect.nodup_messages`), so a message says which rule is broken
(`Dialect.message_mem_errors_iff`).  `Dialect.validate_of_shape` puts the two sides
together.
-/

namespace StrategyDialect

namespace Dialect

open Text Cursor Pattern

variable {d : Dialect} {name other source : Text} {m n : Nat}

/-! ## The leftmost class -/

/-- The header of a derived class with the given name has its keyword at the given
offset. -/
def IsClassAt (d : Dialect) (source : Text) (n : Nat) (name : Text) : Prop :=
  ∃ before t after, source = before ++ t ++ after ∧ before.length = n ∧
    d.IsClassHeader name t ∧
    isWordAt before.getLast? = false ∧ isWordAt d.baseType.getLast? ≠ isWordAt after.head?

/-- A strategy declares a class if there is a place where one is declared. -/
theorem declaresClass_iff :
    d.DeclaresClass source ↔ ∃ n name, d.IsClassAt source n name := by
  constructor
  · rintro ⟨before, t, after, name, hsource, hheader, hstart, hstop⟩
    exact ⟨before.length, name, before, t, after, hsource, rfl, hheader, hstart, hstop⟩
  · rintro ⟨n, name, before, t, after, hsource, -, hheader, hstart, hstop⟩
    exact ⟨before, t, after, name, hsource, hheader, hstart, hstop⟩

/-- A class header between two positions of the strategy. -/
theorem isClassAt_iff (hbase : d.baseType ≠ []) :
    d.IsClassAt source n name ↔
      ∃ (c e : Cursor) (t : Text), c.text = source ∧ c.offset = n ∧
      c.meets .wordBoundary = true ∧ d.IsClassHeader name t ∧ c.Reads t e ∧
      e.meets .wordBoundary = true := by
  constructor
  · rintro ⟨before, t, after, rfl, rfl, hheader, hstart, hstop⟩
    have hreads := reads_mk before.reverse t after
    obtain ⟨hc, he⟩ :=
      (hheader.edges_iff hbase hreads).mpr ⟨by rwa [List.head?_reverse], hstop⟩
    exact ⟨_, _, t, by simp [text], by simp [offset], hc, hheader, hreads, he⟩
  · rintro ⟨c, e, t, rfl, rfl, hc, hheader, hreads, he⟩
    obtain ⟨hstart, hstop⟩ := (hheader.edges_iff hbase hreads).mp ⟨hc, he⟩
    refine ⟨c.before.reverse, t, e.rest, ?_, by simp [offset], hheader,
      by rwa [List.getLast?_reverse], hstop⟩
    rw [text_eq_append, hreads.rest_eq, List.append_assoc]

/-- **The name of a class is the whole word** that follows the keyword. -/
theorem IsClassAt.eq_takeWhile (hbase : d.baseType ≠ []) (h : d.IsClassAt source n name) :
    name = ((source.drop (n + "class".toList.length)).dropWhile
      isBlank).takeWhile isWord := by
  obtain ⟨c, e, t, rfl, rfl, -,
    ⟨w, w₁, params, w₂, w₃, q, -, hw, hname, hw₁, hparams, hw₂, hw₃, hq, rfl⟩, hreads,
    he⟩ := (isClassAt_iff hbase).mp h
  obtain ⟨g, hhead, htail⟩ := reads_append_iff.mp hreads
  -- What follows the name is a blank, an angle bracket or the colon.
  have hnext : ∀ x ∈ g.rest.head?, isWord x = false :=
    isWord_eq_false_of_matches_classTail
      (matches_classTail_iff.mpr
        ⟨⟨w₁, params, w₂, w₃, q, hw₁, hparams, hw₂, hw₃, hq, htail⟩, he⟩)
  have hrest : c.text.drop (c.offset + "class".toList.length) =
      w ++ (name ++ g.rest) := by
    have htext : c.text = c.before.reverse
        ++ ("class".toList ++ (w ++ (name ++ g.rest))) := by
      rw [text_eq_append, hhead.rest_eq]
      simp only [List.append_assoc]
    rw [htext, ← List.drop_drop, List.drop_left' (by simp [offset]), List.drop_left]
  have hword : ∀ x ∈ name, isWord x = true := fun x hx => hname.isWord hx
  have hblank : (w ++ (name ++ g.rest)).dropWhile isBlank = name ++ g.rest := by
    obtain ⟨x, u, rfl, -, -⟩ := hname
    have hx : isBlank x = false := isBlank_eq_false_of_isWord (hword x (by simp))
    rw [List.dropWhile_append_of_pos hw]
    simp [hx]
  rw [hrest, hblank, List.takeWhile_append_of_pos hword]
  cases hafter : g.rest with
  | nil => simp
  | cons x r => simp [hnext x (by simp [hafter])]

/-- One place cannot declare two classes: the name is the whole word behind the
keyword. -/
theorem IsClassAt.name_eq (hbase : d.baseType ≠ []) (h : d.IsClassAt source n name)
    (h' : d.IsClassAt source n other) : name = other :=
  (h.eq_takeWhile hbase).trans (h'.eq_takeWhile hbase).symm

/-- **The class that is found is the leftmost**: it is declared in the strategy, and no
class header starts before it. -/
theorem derivedClass?_eq_some_iff (hd : d.Accepted) :
    d.derivedClass? source = some name ↔
      ∃ n, d.IsClassAt source n name ∧ ∀ m other, d.IsClassAt source m other → n ≤ m := by
  have hbase : d.baseType ≠ [] := ne_nil_of_isName hd.baseType
  have hleftmost : ∀ {name}, d.derivedClass? source = some name →
      ∃ n, d.IsClassAt source n name ∧ ∀ m other, d.IsClassAt source m other → n ≤ m := by
    intro name h
    obtain ⟨c, e, t, htext, hc, hheader, hreads, he, hmin⟩ :=
      exists_isClassHeader_of_derivedClass? h
    refine ⟨c.offset,
      (isClassAt_iff hbase).mpr ⟨c, e, t, htext, rfl, hc, hheader, hreads, he⟩, ?_⟩
    intro m other hother
    obtain ⟨f, g, u, hf, rfl, hstart, hheader', hu, hstop⟩ :=
      (isClassAt_iff hbase).mp hother
    exact hmin f g hf
      (matches_derivedClassPattern_iff.mpr ⟨hstart, ⟨other, u, hheader', hu⟩, hstop⟩)
  constructor
  · exact hleftmost
  · rintro ⟨n, hclass, hmin⟩
    -- There is a class, so one is found, and two leftmost places are the same.
    cases hfound : d.derivedClass? source with
    | none =>
      exact absurd (declaresClass_iff.mpr ⟨n, name, hclass⟩)
        ((derivedClass?_eq_none_iff hd).mp hfound)
    | some found =>
      obtain ⟨m, hfoundAt, hle⟩ := hleftmost hfound
      obtain rfl : m = n := Nat.le_antisymm (hle n name hclass) (hmin m found hfoundAt)
      rw [hfoundAt.name_eq hbase hclass]

/-! ## Messages -/

/-- A message tells which rule is broken, or that the strategy is blank. -/
theorem nodup_messages (d : Dialect) :
    (Validation.blankMessage :: d.rules.map Rule.message).Nodup := by
  -- The messages differ at the tenth, the fifteenth or the sixteenth character.
  have hne : ∀ {s t : Text} (i : Nat), s[i]? ≠ t[i]? →
      s ≠ t := fun i h heq => h (heq ▸ rfl)
  have hblank : ∀ r ∈ d.rules, Validation.blankMessage ≠ r.message := by
    intro r hr
    have hthree : r = d.namespaceRule ∨ r = d.baseTypeRule ∨ r = d.entryMethodRule := by
      simpa [rules] using hr
    rcases hthree with rfl | rfl | rfl
    · exact hne 9 (show some 'c' ≠ some 'm' by simp)
    · exact hne 9 (show some 'c' ≠ some 'm' by simp)
    · exact hne 9 (show some 'c' ≠ some 'm' by simp)
  have hnamespace : d.namespaceRule.message ≠ d.baseTypeRule.message :=
    hne 14 (show some 'b' ≠ some 'i' by simp)
  have hnamespace' : d.namespaceRule.message ≠ d.entryMethodRule.message :=
    hne 14 (show some 'b' ≠ some 'i' by simp)
  have hbase : d.baseTypeRule.message ≠ d.entryMethodRule.message :=
    hne 15 (show some 'n' ≠ some 'm' by simp)
  rw [List.nodup_cons]
  constructor
  · intro hmem
    obtain ⟨r, hr, heq⟩ := List.mem_map.mp hmem
    exact hblank r hr heq.symm
  · simp [rules, hnamespace, hnamespace', hbase]

/-- **The message of a rule is reported** of the strategies that break the rule and are
not blank. -/
theorem message_mem_errors_iff {r : Rule} (hr : r ∈ d.rules) :
    r.message ∈ (Validation.ofRules d.rules source).errors ↔
      source.isAllBlank = false ∧ r.isSatisfied source = false := by
  obtain ⟨hblank, hnodup⟩ := List.nodup_cons.mp d.nodup_messages
  rw [Validation.errors_ofRules]
  split
  next h =>
    have hne : r.message ≠ Validation.blankMessage :=
      fun heq => hblank (heq ▸ List.mem_map_of_mem hr)
    simp [h, hne]
  next h =>
    have hsame : ∀ r' ∈ d.rules, r'.message = r.message → r' = r := fun r' hr' =>
      List.inj_on_of_nodup_map hnodup hr' hr
    simp only [List.mem_map, List.mem_filter, Bool.not_eq_true', h, true_and]
    constructor
    · rintro ⟨r', ⟨hr', hbroken⟩, hmessage⟩
      rwa [← hsame r' hr' hmessage]
    · exact fun hbroken => ⟨r, ⟨hr, hbroken⟩, rfl⟩

/-- The message for a blank strategy is reported of no other. -/
theorem blankMessage_mem_errors_iff :
    Validation.blankMessage ∈ (Validation.ofRules d.rules source).errors ↔
      source.isAllBlank = true := by
  obtain ⟨hblank, -⟩ := List.nodup_cons.mp d.nodup_messages
  rw [Validation.errors_ofRules]
  split
  next h => simp [h]
  next h =>
    refine ⟨fun hmem => ?_, fun h' => absurd h' h⟩
    obtain ⟨r, hr, hmessage⟩ := List.mem_map.mp hmem
    exact absurd (List.mem_map.mpr ⟨r, (List.mem_filter.mp hr).1, hmessage⟩) hblank

/-! ## Classification and validation -/

/-- A strategy that declares a class is not blank. -/
theorem IsClassAt.isAllBlank_eq_false (h : d.IsClassAt source n name) :
    source.isAllBlank = false := by
  obtain ⟨before, t, after, rfl, -, hheader, -⟩ := h
  obtain ⟨u, rfl⟩ := hheader.exists_eq
  have hc : isBlank 'c' = false := by decide
  simp [isAllBlank, hc]

/-- A shape comes with the name of a class only where a class was found. -/
theorem derivedClass?_eq_some_of_shape (h : (d.shape source).2 = some name) :
    d.derivedClass? source = some name := by
  rw [shape] at h
  split at h
  next found hfound =>
    rw [hfound]
    split at h <;> exact h
  next => cases h

/-- With a class, the namespace decides the shape: a strategy that lies in the namespace
is complete, and any other is a class to be wrapped. -/
theorem shape_eq_classDeclaration_iff (h : d.derivedClass? source = some name) :
    (d.shape source).1 = .classDeclaration ↔
      d.namespaceRule.isSatisfied source = false := by
  rw [shape, h]
  dsimp only
  split
  next hrule => simp [hrule]
  next hrule => simp [hrule]

/-- **Classification and validation agree.**  If a strategy is found to have a class,
then it is not reported to lack the base type or to be blank, and it is reported to lack
the namespace just if its shape is that of a class without one.  The name of the class
is the whole word behind the keyword of the leftmost derived class. -/
theorem validate_of_shape {e : Engine} (he : Engine.ofDialect d = .ok e)
    (hname : (e.shape source).2 = some name) :
    d.baseTypeRule.message ∉ (e.validate source).errors ∧
      (d.namespaceRule.message ∈ (e.validate source).errors ↔
        (e.shape source).1 = .classDeclaration) ∧
      Validation.blankMessage ∉ (e.validate source).errors ∧
      ∃ n, d.IsClassAt source n name ∧ (∀ m other, d.IsClassAt source m other → n ≤ m) ∧
        name = ((source.drop (n + "class".toList.length)).dropWhile
          isBlank).takeWhile isWord := by
  obtain ⟨hcheck, rfl⟩ := Engine.ofDialect_eq_ok_iff.mp he
  have hd : d.Accepted := check_eq_ok_iff.mp hcheck
  have hclass : d.derivedClass? source = some name := derivedClass?_eq_some_of_shape hname
  have hbase : d.baseTypeRule.isSatisfied source = true :=
    isSatisfied_baseTypeRule_of_derivedClass? hclass
  obtain ⟨n, hat, hleftmost⟩ := (derivedClass?_eq_some_iff hd).mp hclass
  have hblank : source.isAllBlank = false := hat.isAllBlank_eq_false
  refine ⟨?_, ?_, ?_, n, hat, hleftmost, hat.eq_takeWhile (ne_nil_of_isName hd.baseType)⟩
  · show d.baseTypeRule.message ∉ (Validation.ofRules d.rules source).errors
    rw [message_mem_errors_iff (by simp [rules])]
    simp [hbase]
  · show d.namespaceRule.message ∈ (Validation.ofRules d.rules source).errors ↔
        (d.shape source).1 = .classDeclaration
    rw [message_mem_errors_iff (by simp [rules]), shape_eq_classDeclaration_iff hclass]
    simp [hblank]
  · show Validation.blankMessage ∉ (Validation.ofRules d.rules source).errors
    rw [blankMessage_mem_errors_iff]
    simp [hblank]

/-- Three classes of which only the last two are derived, outside the namespace. -/
def threeClasses : Text :=
  "class Helper \x7b \x7d\nclass Robot<T> : Base . SignalObject \x7b \x7d\nclass Late : SignalObject \x7b \x7d".toList

/-- The second of three classes is the one that derives from the base type, and its name
is reported together with the error about the namespace. -/
theorem validate_threeClasses :
    Engine.ofDialect powerLanguage = .ok .powerLanguage ∧
      Engine.powerLanguage.shape threeClasses = (.classDeclaration, some "Robot".toList) ∧
      powerLanguage.namespaceRule.message ∈
        (Engine.powerLanguage.validate threeClasses).errors := by
  have hshape : Engine.powerLanguage.shape threeClasses =
      (.classDeclaration, some "Robot".toList) := by
    decide +kernel
  obtain ⟨-, hnamespace, -⟩ :=
    validate_of_shape Engine.ofDialect_powerLanguage (congrArg Prod.snd hshape)
  exact ⟨Engine.ofDialect_powerLanguage, hshape,
    hnamespace.mpr (congrArg Prod.fst hshape)⟩

end Dialect

end StrategyDialect
