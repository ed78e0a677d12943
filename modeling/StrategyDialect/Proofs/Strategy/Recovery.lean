import StrategyDialect.Proofs.Strategy.Defaults
import StrategyDialect.Proofs.Strategy.Unambiguity

/-!
# Declarations are recovered

Declarations that are written one on a line come back as they were written: the same
names and defaults, and the types without their blanks, in the same order and as often
as they were declared.

The matcher may read a declaration only as it was meant, since there is no other way
(`StrategyDialect.Proofs.Strategy.Unambiguity`).  What is left of the line is its
default, in which no bracket opens; so no match starts there, and the search reaches the
next line.  The condition that a default holds no opening bracket is what keeps the
lines apart, and the condition that it holds no semicolon is what ends it.

## Main definitions

* `DefaultForm`: how a default is written
* `Declaration`: a declaration with a default
* `Declaration.line`: the line of a declaration
* `Declaration.parameter`: what a declaration declares

## Main statements

* `DefaultForm.inlineDefault?_eq`: a default is read as it was written
* `Dialect.exists_matchesFrom_line`: one line in a text
* `Dialect.parameters_lines`: the parameters of any number of lines
-/

namespace StrategyDialect

open Text Cursor Pattern

/-! ## Defaults -/

/-- How a member is given its default. -/
inductive DefaultForm where
  /-- A property with accessors that is initialized. -/
  | accessors
  /-- A field that is initialized. -/
  | assigned
  /-- A property with an expression for its body. -/
  | arrow
deriving DecidableEq

namespace DefaultForm

/-- The text between a name and its default. -/
def lead : DefaultForm → Text
  | accessors => " \x7b get; set; \x7d = ".toList
  | assigned => " = ".toList
  | arrow => " => ".toList

/-- The tail of a declaration with a default. -/
def tail : DefaultForm → Text
  | accessors => ['{']
  | assigned => ['=']
  | arrow => ['=', '>']

/-- What stands between the tail and the default. -/
def gap : DefaultForm → Text
  | accessors => " get; set; \x7d = ".toList
  | assigned => [' ']
  | arrow => [' ']

/-- Between a name and its default stand a space, the tail of the declaration, and the
gap. -/
theorem lead_eq (f : DefaultForm) : f.lead = [' '] ++ f.tail ++ f.gap := by
  cases f <;> decide

/-- The tail of each form is one that the pattern of declarations reads. -/
theorem tail_mem (f : DefaultForm) : f.tail ∈ Dialect.tails := by
  cases f <;> decide

/-- No declaration starts in a gap. -/
theorem bracket_not_mem_gap (f : DefaultForm) : '[' ∉ f.gap := by
  cases f <;> decide

/-- A blank follows the tail of a declaration, so a tail is not read as a longer one. -/
theorem head?_gap (f : DefaultForm) (t : Text) : (f.gap ++ t).head? = some ' ' := by
  cases f <;> rfl

variable {v r : Text}

/-- A value without blanks at its ends and without semicolons is read back. -/
private theorem valueBeforeSemicolon?_of_trim (hne : v ≠ []) (htrim : trim v = v)
    (hsemicolon : ';' ∉ v) :
    Assignment.valueBeforeSemicolon? (' ' :: v ++ ';' :: r) = some v := by
  have hnot : ';' ∉ ' ' :: v := by simp [hsemicolon]
  have hspace : trim (' ' :: v) = v := (trim_cons_of_isBlank (by decide)).trans htrim
  rw [Assignment.valueBeforeSemicolon?_append_cons hnot, hspace, if_neg]
  simpa using hne

/-- **A default is read as it was written**, whatever braces and equals signs it holds. -/
theorem inlineDefault?_eq (f : DefaultForm) (hne : v ≠ []) (htrim : trim v = v)
    (hsemicolon : ';' ∉ v) :
    Dialect.inlineDefault? f.tail (f.gap ++ v ++ ';' :: r) = some v := by
  have hvalue : Assignment.valueBeforeSemicolon? (' ' :: v ++ ';' :: r) = some v :=
    valueBeforeSemicolon?_of_trim hne htrim hsemicolon
  cases f with
  | assigned => exact hvalue
  | arrow => exact hvalue
  | accessors =>
    -- The block of accessors closes before the default, so the braces of the default
    -- are not counted.
    have hblock : Block.length? "\x7b get; set; \x7d".toList = some 13 := by decide
    have hsplit : accessors.tail ++ accessors.gap =
        "\x7b get; set; \x7d".toList ++ [' ', '=', ' '] := by
      decide
    have hlength : "\x7b get; set; \x7d".toList.length = 13 := by decide
    generalize "\x7b get; set; \x7d".toList = block at hblock hsplit hlength
    have hwhole : accessors.tail ++ (accessors.gap ++ v ++ ';' :: r) =
        block ++ (' ' :: '=' :: (' ' :: v ++ ';' :: r)) := by
      rw [← List.append_assoc, ← List.append_assoc, hsplit]
      simp
    have hclosed :=
      (Block.length?_append_of_some hblock (' ' :: '=' :: (' ' :: v ++ ';' :: r))).1
    unfold Dialect.inlineDefault?
    rw [if_pos (show accessors.tail = ['{'] from rfl), hwhole, hclosed]
    show Assignment.value? ((block ++ (' ' :: '=' :: (' ' :: v ++ ';' :: r))).drop 13) =
        some v
    rw [← hlength, List.drop_left, Assignment.value?,
      trimStart_cons_of_isBlank (by decide), trimStart_cons_of_not_isBlank (by decide)]
    exact hvalue

end DefaultForm

/-! ## Lines -/

/-- A declaration with a default.  The type is in the language of the pattern for types;
the default has no blanks around it, ends at the first semicolon, and opens no
bracket. -/
structure Declaration where
  modifiers : List Text
  type : Text
  name : Text
  form : DefaultForm
  value : Text
  mem_modifiers : ∀ m ∈ modifiers, m ∈ Dialect.modifiers
  matches_type : Matches Dialect.typePattern (start type) ⟨type.reverse, []⟩
  isIdentifier : name.IsIdentifier
  value_ne_nil : value ≠ []
  trim_value : trim value = value
  semicolon_not_mem : ';' ∉ value
  bracket_not_mem : '[' ∉ value

namespace Declaration

variable {d : Dialect} {c e : Cursor}

/-- The line of a declaration. -/
def line (d : Dialect) (x : Declaration) : Text :=
  "[".toList ++ d.inputAttribute ++ "] ".toList
    ++ x.modifiers.flatMap (· ++ " ".toList) ++ x.type ++ " ".toList ++ x.name
    ++ x.form.lead ++ x.value ++ ";".toList

/-- The parameter that a declaration declares. -/
def parameter (x : Declaration) : Parameter :=
  ⟨x.name, Dialect.normalizeType x.type, some x.value⟩

/-- The part of the line that the pattern of declarations reads. -/
def head (d : Dialect) (x : Declaration) : Text :=
  ['['] ++ d.inputAttribute ++ [']'] ++ [' '] ++ x.modifiers.flatMap (· ++ [' '])
    ++ x.type ++ [' '] ++ x.name ++ [' '] ++ x.form.tail

/-- A line is the head of a declaration, which the pattern matches, and what the default
is read from. -/
theorem line_eq (d : Dialect) (x : Declaration) :
    x.line d = x.head d ++ (x.form.gap ++ x.value ++ [';']) := by
  have hopen : "[".toList = ['['] := by decide
  have hclose : "] ".toList = [']', ' '] := by decide
  have hspace : " ".toList = [' '] := by decide
  have hsemicolon : ";".toList = [';'] := by decide
  unfold line head
  rw [hopen, hclose, hspace, hsemicolon, x.form.lead_eq]
  simp only [List.append_assoc, List.cons_append, List.nil_append]

/-- The type of a declaration is in the language of the pattern for types. -/
theorem isType (x : Declaration) : IsType x.type :=
  Dialect.matches_typePattern_start_iff.mp x.matches_type

/-- Modifiers with a space behind each of them are read as modifiers. -/
theorem repeats_modifiers {ms : List Text} (h : ∀ m ∈ ms, m ∈ Dialect.modifiers) :
    Repeats IsModifier (ms.flatMap (· ++ [' '])) := by
  induction ms with
  | nil => exact .nil
  | cons m ms ih =>
    rw [List.flatMap_cons]
    refine .cons ⟨m, h m (by simp), [' '], by simp, isBlank_space, rfl⟩ ?_
    exact ih fun m hm => h m (by simp [hm])

/-- The head of a line is a declaration of the type and the name that were written. -/
theorem isDeclaration_head (hd : d.Accepted) (x : Declaration) :
    Dialect.IsDeclaration (x.head d) x.type x.name x.form.tail := by
  have hclosing : ']' ∉ d.inputAttribute := fun hmem =>
    absurd (isNameChar_of_mem hd.inputAttribute hmem) (by decide)
  have hattribute : Repeats IsAttribute
      (['['] ++ d.inputAttribute ++ [']'] ++ [' '] ++ []) :=
    .cons ⟨d.inputAttribute, [' '], hclosing, isBlank_space, rfl⟩ .nil
  rw [List.append_nil] at hattribute
  exact .mk hattribute (repeats_modifiers x.mem_modifiers) x.isType (by simp)
    isBlank_space x.isIdentifier isBlank_space x.form.tail_mem

/-- The head of a line is matched by the pattern of declarations. -/
theorem matches_declarationPattern (x : Declaration) (h : c.Reads (x.head d) e) :
    Matches d.declarationPattern c e := by
  obtain ⟨i, hi, htail⟩ := reads_append_iff.mp h
  obtain ⟨h, hh, hgap⟩ := reads_append_iff.mp hi
  obtain ⟨g, hg, hname⟩ := reads_append_iff.mp hh
  obtain ⟨f, hf, hgap'⟩ := reads_append_iff.mp hg
  obtain ⟨k, hk, htype⟩ := reads_append_iff.mp hf
  obtain ⟨l, hl, hmodifiers⟩ := reads_append_iff.mp hk
  obtain ⟨n, hattribute, hblank⟩ := reads_append_iff.mp hl
  refine matches_sequence_cons_iff.mpr
    ⟨n, Dialect.matches_attributePattern_of_reads hattribute, ?_⟩
  refine matches_sequence_cons_iff.mpr
    ⟨l, matches_blanks_iff.mpr ⟨[' '], isBlank_space, hblank⟩, ?_⟩
  refine matches_sequence_cons_iff.mpr
    ⟨l, Dialect.matches_attributesPattern_iff.mpr ⟨[], .nil, reads_nil_iff.mpr rfl⟩, ?_⟩
  refine matches_sequence_cons_iff.mpr
    ⟨k, Dialect.matches_modifiersPattern_iff.mpr
      ⟨_, repeats_modifiers x.mem_modifiers, hmodifiers⟩, ?_⟩
  refine matches_sequence_cons_iff.mpr
    ⟨f, matches_group_iff.mpr (Dialect.matches_typePattern_iff.mpr ⟨_, x.isType, htype⟩),
      ?_⟩
  refine matches_sequence_cons_iff.mpr
    ⟨g, matches_blanks1_iff.mpr ⟨[' '], by simp, isBlank_space, hgap'⟩, ?_⟩
  refine matches_sequence_cons_iff.mpr
    ⟨h, matches_group_iff.mpr (matches_namePattern_iff.mpr ⟨_, x.isIdentifier, hname⟩),
      ?_⟩
  refine matches_sequence_cons_iff.mpr
    ⟨i, matches_blanks_iff.mpr ⟨[' '], isBlank_space, hgap⟩, ?_⟩
  exact matches_sequence_cons_iff.mpr
    ⟨e, matches_group_iff.mpr
      (Dialect.matches_tailPattern_iff.mpr ⟨_, x.form.tail_mem, htail⟩),
      matches_sequence_nil_iff.mpr rfl⟩

end Declaration

namespace Dialect

variable {d : Dialect} {w : Text}

/-! ## The search -/

/-- A declaration starts with a bracket, so none starts in a default that holds none. -/
theorem head?_of_matches_declarationPattern {c e : Cursor}
    (h : Matches d.declarationPattern c e) : c.rest.head? = some '[' := by
  obtain ⟨f, hattribute, -⟩ := matches_sequence_cons_iff.mp h
  obtain ⟨g, hopen, -⟩ := matches_sequence_cons_iff.mp hattribute
  rw [(matches_char_iff.mp hopen).rest_eq]
  rfl

/-- Where no bracket opens, no declaration starts, and the search walks on. -/
theorem matchesFrom_append_of_not_mem {t : Text} (ht : '[' ∉ t) (b r : Text) :
    d.declarationPattern.matchesFrom 0 b (t ++ r) =
      d.declarationPattern.matchesFrom 0 (t.reverse ++ b) r := by
  apply matchesFrom_append
  intro u v c e htv hne hreads hmatches
  have hrest : c.rest = v ++ r := by
    have hboth := hreads.rest_eq
    rw [htv, List.append_assoc] at hboth
    exact (List.append_cancel_left hboth).symm
  obtain ⟨y, v, rfl⟩ := List.exists_cons_of_ne_nil hne
  have hhead := head?_of_matches_declarationPattern hmatches
  obtain rfl : y = '[' := by simpa [hrest] using hhead
  exact ht (by simp [htv])

/-- Nothing is declared at the end of a text. -/
theorem matchesFrom_nil (b : Text) : d.declarationPattern.matchesFrom 0 b [] = [] := by
  apply matchesFrom_eq_nil
  intro u c e hreads hmatches
  obtain ⟨-, rfl⟩ := reads_end_iff.mp hreads
  have hhead := head?_of_matches_declarationPattern hmatches
  simp at hhead

/-- **One line in a text** is one match.  It declares what was written, whatever text it
belongs to and wherever the bodies of entry methods are. -/
theorem exists_matchesFrom_line (hd : d.Accepted) (x : Declaration) (b r : Text) :
    ∃ m, d.declarationPattern.matchesFrom 0 b (x.line d ++ r) =
        m :: d.declarationPattern.matchesFrom 0 ((x.line d).reverse ++ b) r ∧
      ∀ source bodies, parameterOf source bodies m = some x.parameter := by
  have hline : x.line d ++ r = x.head d ++ (x.form.gap ++ x.value ++ [';'] ++ r) := by
    rw [x.line_eq, List.append_assoc]
  have hreads := reads_mk b (x.head d) (x.form.gap ++ x.value ++ [';'] ++ r)
  obtain ⟨m, hm, hstop, htype, hname, htail⟩ := exists_matchAt_of_isDeclaration hd
    (x.matches_declarationPattern hreads) (x.isDeclaration_head hd) hreads (by
      intro _ hhead
      rw [List.append_assoc, List.append_assoc, x.form.head?_gap] at hhead
      exact absurd hhead (by decide))
  refine ⟨m, ?_, ?_⟩
  -- The search goes on behind the tail and passes over the default.
  · have hne : x.head d ≠ [] := by simp [Declaration.head]
    have hnot : '[' ∉ x.form.gap ++ x.value ++ [';'] := by
      simp [x.form.bracket_not_mem_gap, x.bracket_not_mem]
    rw [hline, matchesFrom_of_matchAt hne hm hstop,
      matchesFrom_append_of_not_mem hnot, x.line_eq]
    simp only [List.reverse_append, List.append_assoc]
  · intro source bodies
    have hvalue :=
      x.form.inlineDefault?_eq (r := r) x.value_ne_nil x.trim_value x.semicolon_not_mem
    have hrest : m.stop.rest = x.form.gap ++ x.value ++ ';' :: r := by
      rw [hstop]
      simp
    rw [parameterOf_eq htype hname htail, hrest, hvalue, Option.some_or]
    rfl

/-! ## Any number of lines -/

/-- The parameter of a line comes before those of the lines after it. -/
theorem parametersFrom_line (hd : d.Accepted) (x : Declaration) (hw : '[' ∉ w)
    (source : Text) (bodies : List Span) (b r : Text) :
    (d.declarationPattern.matchesFrom 0 b (x.line d ++ w ++ r)).filterMap
      (parameterOf source bodies) =
      x.parameter
        :: (d.declarationPattern.matchesFrom 0 ((x.line d ++ w).reverse ++ b) r).filterMap
        (parameterOf source bodies) := by
  obtain ⟨m, hmatches, hparameter⟩ := exists_matchesFrom_line hd x b (w ++ r)
  rw [List.append_assoc, hmatches, List.filterMap_cons, hparameter,
    matchesFrom_append_of_not_mem hw, List.reverse_append, List.append_assoc]

/-- Lines that are ended by the text `w`: the parameters are those that were declared,
in their order, whatever stands before the first line. -/
theorem parametersFrom_ended (hd : d.Accepted) (hw : '[' ∉ w) (xs : List Declaration)
    (source : Text) (bodies : List Span) (b : Text) :
    (d.declarationPattern.matchesFrom 0 b (xs.flatMap fun x => x.line d ++ w)).filterMap
      (parameterOf source bodies) = xs.map Declaration.parameter := by
  induction xs generalizing b with
  | nil => rw [List.flatMap_nil, matchesFrom_nil, List.filterMap_nil, List.map_nil]
  | cons x xs ih => rw [List.flatMap_cons, parametersFrom_line hd x hw, ih, List.map_cons]

/-- Lines that are separated by the text `w`, which is missing behind the last one. -/
theorem parametersFrom_separated (hd : d.Accepted) (hw : '[' ∉ w) (xs : List Declaration)
    (source : Text) (bodies : List Span) (b : Text) :
    (d.declarationPattern.matchesFrom 0 b (w.intercalate (xs.map (·.line d)))).filterMap
      (parameterOf source bodies) = xs.map Declaration.parameter := by
  induction xs generalizing b with
  | nil =>
    rw [List.map_nil, List.intercalate_nil, matchesFrom_nil,
      List.filterMap_nil, List.map_nil]
  | cons x xs ih =>
    cases xs with
    | nil =>
      have hlast :=
        parametersFrom_line hd x (List.not_mem_nil (a := '[')) source bodies b []
      rw [matchesFrom_nil, List.filterMap_nil, List.append_nil, List.append_nil] at hlast
      rw [List.map_singleton, List.intercalate_singleton, hlast, List.map_singleton]
    | cons y ys =>
      rw [List.map_cons, List.map_cons, List.intercalate_cons_cons,
        parametersFrom_line hd x hw, ← List.map_cons, ih]
      rfl

/-- **The parameters of any number of lines** are those that were declared, in the same
order and as often.  Types and names may be spelled like modifiers, and a default may
hold braces and equals signs.  The last line may have a line break at its end or not. -/
theorem parameters_lines (hcheck : d.check = .ok ()) (xs : List Declaration) :
    d.parameters (xs.flatMap fun x => x.line d ++ ['\n']) = xs.map Declaration.parameter ∧
      d.parameters (['\n'].intercalate (xs.map (·.line d))) =
        xs.map Declaration.parameter := by
  have hd : d.Accepted := check_eq_ok_iff.mp hcheck
  have hnot : '[' ∉ ['\n'] := by decide
  exact ⟨parametersFrom_ended hd hnot xs _ _ [],
    parametersFrom_separated hd hnot xs _ _ []⟩

/-- Two members of one name.  The first has a type and a name that are spelled like
modifiers. -/
theorem parameters_lines_spelledLikeModifiers :
    powerLanguage.check = .ok () ∧ powerLanguage.parameters
        ("[Input] public static new \x7b get; set; \x7d = \x7b1\x7d;".toList ++ ['\n'] ++
          ("[Input] A< b,c >[ ] new => d = e;".toList ++ ['\n'])) =
      [⟨"new".toList, "static".toList, some "\x7b1\x7d".toList⟩,
        ⟨"new".toList, "A<b, c>[]".toList, some "d = e".toList⟩] := by
  have hcheck : powerLanguage.check = .ok () := by decide
  have hnew : IsIdentifier "new".toList := isIdentifier_of_mem_modifiers (by decide)
  have hstatic : IsType "static".toList :=
    isType_of_isIdentifier (isIdentifier_of_mem_modifiers (by decide))
  have harguments : IsBracketed '<' '>' argumentClass "< b,c >".toList :=
    @IsBracketed.present _ _ _ [] " b,c ".toList isBlank_nil (by decide)
  have harray : IsBracketed '[' ']' .blank "[ ]".toList :=
    @IsBracketed.present _ _ _ [] [' '] isBlank_nil (by decide)
  have htype : IsType "A< b,c >[ ]".toList :=
    ⟨['A'], _, _, [], ⟨'A', [], rfl, by decide, by decide⟩, harguments, harray,
      .inr rfl, by decide⟩
  obtain ⟨x, hx, hxline⟩ : ∃ x : Declaration,
      x.parameter = ⟨"new".toList, "static".toList, some "\x7b1\x7d".toList⟩ ∧
        x.line powerLanguage =
          "[Input] public static new \x7b get; set; \x7d = \x7b1\x7d;".toList := by
    refine ⟨⟨["public".toList], _, _, .accessors, "\x7b1\x7d".toList, by decide,
      matches_typePattern_start_iff.mpr hstatic, hnew, by
        decide, by decide, by decide, by decide⟩, ?_, ?_⟩
    · dsimp only [Declaration.parameter]
      decide
    · dsimp only [Declaration.line]
      decide
  obtain ⟨y, hy, hyline⟩ : ∃ y : Declaration,
      y.parameter = ⟨"new".toList, "A<b, c>[]".toList, some "d = e".toList⟩ ∧
        y.line powerLanguage = "[Input] A< b,c >[ ] new => d = e;".toList := by
    refine ⟨⟨[], _, _, .arrow, "d = e".toList, by decide,
      matches_typePattern_start_iff.mpr htype, hnew, by
        decide, by decide, by decide, by decide⟩, ?_, ?_⟩
    · dsimp only [Declaration.parameter]
      decide
    · dsimp only [Declaration.line]
      decide
  have hlines := (parameters_lines hcheck [x, y]).1
  rw [List.flatMap_cons, List.flatMap_cons, List.flatMap_nil, List.append_nil, hxline,
    hyline] at hlines
  rw [hlines, List.map_cons, List.map_cons, List.map_nil, hx, hy]
  exact ⟨hcheck, rfl⟩

end Dialect

end StrategyDialect
