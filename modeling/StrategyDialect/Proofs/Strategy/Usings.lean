import StrategyDialect.Proofs.Strategy.Containment
import StrategyDialect.Proofs.Strategy.Reconversion

/-!
# The usings of a converted strategy

Conversion adds the directives that a strategy lacks, and no line of the result is one
by accident.  The result is put together from whole lines: each piece before the
strategy ends a line, and the strategy is closed where something follows
(`Dialect.lines_convert`).  So its lines are those of the pieces, and a directive can be
counted piece by piece.  The frame has none, because nothing in it holds a semicolon.

One thing does happen at the seam behind the strategy.  Where its last line ends with a
carriage return and no newline, the newline that is added makes the two a line end, and
the line loses its return.  This is the only line that changes, and it is the same line
when blanks are trimmed.

## Main definitions

* `Text.lineCount`: how often a line occurs in a text
* `Text.KeepsLines`: the lines of a text, up to a carriage return at its end
* `Dialect.addedUsings`: the usings that a strategy lacks

## Main statements

* `Dialect.lines_convert`: the lines of a converted strategy
* `Dialect.lineCount_convert`: the usings of a converted strategy
-/

namespace StrategyDialect

namespace Text

/-! ### Counting lines -/

/-- How many lines of a text are the given one, blanks aside. -/
def lineCount (line t : Text) : Nat :=
  t.lines.countP fun l => trim l = line

/-- The lines of a text, but for a carriage return at the end of the last one. -/
def KeepsLines (t : Text) (ls : List Text) : Prop :=
  ls = lines t ∨ ∃ front last, lines t = front ++ [last ++ ['\r']] ∧ ls = front ++ [last]

variable {t line : Text} {c : Char} {ls : List Text}

/-- A text without a character of the line does not have the line. -/
theorem lineCount_eq_zero (hc : c ∈ line) (ht : c ∉ t) : lineCount line t = 0 := by
  refine List.countP_eq_zero.mpr fun l hl hline => ht (mem_of_mem_lines hl ?_)
  obtain ⟨w, w', -, -, htrim⟩ := exists_eq_append_trim l
  rw [htrim, of_decide_eq_true hline]
  simp [hc]

/-- A carriage return at the end of a line is trimmed away, so lines are counted alike
whether it is kept or not. -/
theorem KeepsLines.countP_eq (h : KeepsLines t ls) (line : Text) :
    (ls.countP fun l => trim l = line) = lineCount line t := by
  rcases h with rfl | ⟨front, last, hlines, rfl⟩
  · rfl
  · have hreturn : isBlank '\r' = true := by decide
    rw [lineCount, hlines, List.countP_append, List.countP_append, List.countP_singleton,
      List.countP_singleton, trim_append_of_isBlank hreturn]

/-- A text has a directive if some line of it is the directive. -/
theorem lineCount_pos_iff {directive : Text} :
    0 < lineCount directive t ↔ Dialect.hasLine directive t = true := by
  rw [lineCount, List.countP_pos_iff, Dialect.hasLine, List.any_eq_true]

end Text

namespace Dialect

open Text Wrapper

variable {d : Dialect} {className configured source t : Text} {missing : List Text}

/-! ### Directives -/

/-- The usings of a dialect that have no line in a strategy, in the order of the
dialect. -/
def addedUsings (d : Dialect) (source : Text) : List Text :=
  d.usings.filter fun name => lineCount (usingDirective name) source = 0

/-- The directives that are added are those of the usings that the strategy lacks. -/
theorem missingDirectives_eq (d : Dialect) (source : Text) :
    d.missingDirectives source = (d.addedUsings source).map usingDirective := by
  rw [missingDirectives, List.filter_map, addedUsings]
  congr 1
  refine List.filter_congr fun name _ => ?_
  rw [Bool.eq_iff_iff, decide_eq_true_eq, Function.comp_apply, Bool.not_eq_true',
    ← Bool.not_eq_true, ← lineCount_pos_iff, Nat.pos_iff_ne_zero, not_not]

/-- Different usings have different directives, so each is counted on its own. -/
theorem usingDirective_injective : Function.Injective usingDirective := by
  intro name name' h
  rw [usingDirective_eq, usingDirective_eq] at h
  exact List.append_cancel_left (List.append_cancel_right h)

/-- Directives, one on a line, and a blank line behind them if there are any. -/
theorem lines_directiveLines_append
    (h : ∀ directive ∈ missing, '\n' ∉ directive ∧ withoutReturn directive = directive)
    (t : Text) :
    lines (directiveLines missing ++ t) =
      missing ++ (if missing = [] then [] else [[]]) ++ lines t := by
  have hlines : ∀ ds : List Text,
      (∀ directive ∈ ds, '\n' ∉ directive ∧ withoutReturn directive = directive) →
      lines (ds.flatMap (· ++ ['\n']) ++ '\n' :: t) = ds ++ [] :: lines t := by
    intro ds hds
    induction ds with
    | nil => exact lines_cons (by simp) t
    | cons directive ds ih =>
      obtain ⟨hnewline, hreturn⟩ := hds directive List.mem_cons_self
      rw [List.flatMap_cons, List.append_assoc, List.append_assoc, List.singleton_append,
        lines_cons hnewline, hreturn, ih fun directive hmem =>
        hds directive (List.mem_cons_of_mem _ hmem)]
      rfl
  cases missing with
  | nil => rfl
  | cons directive ds =>
    rw [directiveLines, List.append_assoc, List.singleton_append, hlines _ h]
    · simp
    · simp

/-- A directive is a line as it is: it holds no newline and ends with no carriage
return. -/
theorem usingDirective_isLine {name : Text} (h : name.isQualifiedName = true) :
    '\n' ∉ usingDirective name ∧
    withoutReturn (usingDirective name) = usingDirective name := by
  refine ⟨not_mem_usingDirective h, ?_⟩
  rw [usingDirective_eq, withoutReturn, List.getLast?_concat, if_neg (by decide)]

/-- A directive is added as often as it is listed, unless it is there. -/
theorem countP_addedUsings (d : Dialect) (name source : Text) :
    (((d.addedUsings source).map usingDirective).countP fun l =>
      trim l = usingDirective name) =
      if 0 < lineCount (usingDirective name) source then 0 else d.usings.count name := by
  have hcount : (((d.addedUsings source).map usingDirective).countP fun l =>
    trim l = usingDirective name) = (d.addedUsings source).count name := by
    rw [List.countP_map, List.count]
    refine List.countP_congr fun other _ => ?_
    rw [Function.comp_apply, decide_eq_true_eq, trim_usingDirective, beq_iff_eq]
    exact usingDirective_injective.eq_iff
  rw [hcount, addedUsings]
  split
  next hpos =>
    refine List.count_eq_zero.mpr fun hmem => ?_
    have hzero := List.of_mem_filter hmem
    rw [decide_eq_true_eq] at hzero
    omega
  next hzero =>
    refine List.count_filter ?_
    rw [decide_eq_true_eq]
    omega

/-! ### The frame -/

/-- What stands between the directives and a strategy is a header. -/
theorem header_opening (hd : d.Accepted) {shape : SourceShape}
    (hname : shape = .members → className.isName = true) :
    Header (d.opening className [] shape) := by
  cases shape with
  | completeUnit => exact header_nil
  | classDeclaration => exact header_namespaceHead hd
  | members => exact (header_namespaceHead hd).append (header_classHead hd (hname rfl))

/-- Nothing that stands before a strategy holds a semicolon, directives aside. -/
theorem semicolon_not_mem_opening (hd : d.Accepted) {shape : SourceShape}
    (hname : shape = .members → className.isName = true) :
    ';' ∉ d.opening className [] shape := by
  have hplain : ∀ {name : Text}, name.isName = true → ';' ∉ name := fun h hmem =>
    absurd (isNameChar_of_mem h hmem) (by decide)
  have hqualified : ';' ∉ d.namespaceName := by
    intro hmem
    rcases eq_or_isNameChar_of_mem hd.namespaceName hmem with hdot | hmem
    · exact absurd hdot (by decide)
    · exact absurd hmem (by decide)
  have hnamespace : ';' ∉ d.namespaceHead := by
    have hkeyword : ';' ∉ "namespace ".toList := by decide
    have hend : ';' ∉ "\n\x7b\n".toList := by decide
    exact List.not_mem_append (List.not_mem_append hkeyword hqualified) hend
  cases shape with
  | completeUnit => exact List.not_mem_nil
  | classDeclaration => exact hnamespace
  | members =>
    have hclass : ';' ∉ "    public class ".toList := by decide
    have hcolon : ';' ∉ " : ".toList := by decide
    have hopen : ';' ∉ "\n    \x7b\n".toList := by decide
    have hpublic : ';' ∉ "        public ".toList := by decide
    have hrest : ';' ∉ "(object _ctx) : base(_ctx) \x7b \x7d\n\n".toList := by decide
    have hclassName : ';' ∉ className := hplain (hname rfl)
    have hhead : ';' ∉ d.classHead className :=
      List.not_mem_append (List.not_mem_append
        (List.not_mem_append
          (List.not_mem_append
            (List.not_mem_append
              (List.not_mem_append (List.not_mem_append hclass hclassName) hcolon)
              (hplain hd.baseType)) hopen) hpublic)
        hclassName) hrest
    exact List.not_mem_append hnamespace hhead

/-- The lines of a strategy in its frame, without the added directives: those of the
opening, those of the strategy up to a carriage return at its end, and those of the
closing. -/
theorem exists_lines_frame (hd : d.Accepted) (source : Text) {shape : SourceShape}
    (hname : shape = .members → className.isName = true) :
    ∃ body, KeepsLines source body ∧ (shape = .completeUnit → body = lines source) ∧
      lines (d.frame className source shape) =
        lines (d.opening className [] shape) ++ body ++ lines (closing true shape) := by
  have hkept : KeepsLines source (lines (closeLastLine source)) :=
    lines_closeLastLine source
  have hopening : d.opening className [] shape = [] ∨
      (d.opening className [] shape).getLast? = some '\n' :=
    or_iff_not_imp_left.mpr (header_opening hd hname).getLast?
  -- The opening ends its last line, and so does the strategy once it is closed.
  have hlines : ∀ closing,
      lines (d.opening className [] shape ++ (closeLastLine source ++ closing)) =
      lines (d.opening className [] shape) ++ lines (closeLastLine source)
        ++ lines closing := by
    intro closing
    rw [lines_append hopening, lines_append (closeLastLine_closed source),
      List.append_assoc]
  cases shape with
  | completeUnit => exact ⟨lines source, .inl rfl, fun _ => rfl, (List.append_nil _).symm⟩
  | classDeclaration =>
    refine ⟨_, hkept, (fun h => by cases h), ?_⟩
    rw [frame, List.append_assoc]
    exact hlines _
  | members =>
    refine ⟨_, hkept, (fun h => by cases h), ?_⟩
    rw [frame, List.append_assoc]
    exact hlines _

/-! ### The whole -/

/-- The lines of a converted strategy: the directives that it lacks, a blank line if
there are any, and the lines of the frame and of the strategy in it. -/
theorem lines_convert (hd : d.Accepted) (hconfigured : configured.isName = true)
    (requested source : Text) :
    ∃ body, KeepsLines source body ∧
      ((d.shape source).1 = .completeUnit → body = lines source) ∧
      lines (d.convert configured requested source).generatedCode =
        (d.addedUsings source).map usingDirective
          ++ (if d.addedUsings source = [] then [] else [[]]) ++
          lines (d.opening (d.convert configured requested source).className []
            (d.shape source).1) ++ body ++
          lines (closing true (d.shape source).1) := by
  obtain ⟨body, hbody, hcomplete, hlines⟩ :=
    exists_lines_frame hd source (isName_className requested hconfigured)
  refine ⟨body, hbody, hcomplete, ?_⟩
  -- Each directive that is added is a line of its own.
  have hline : ∀ directive ∈ (d.addedUsings source).map usingDirective,
      '\n' ∉ directive ∧ withoutReturn directive = directive := by
    intro directive hmem
    obtain ⟨name, hname, rfl⟩ := List.mem_map.mp hmem
    exact usingDirective_isLine (hd.usings name (List.mem_of_mem_filter hname))
  have hheader : d.usingsHeader source = directiveLines (d.missingDirectives source) :=
    rfl
  calc lines (d.convert configured requested source).generatedCode
      = lines (directiveLines ((d.addedUsings source).map usingDirective) ++
          d.frame (d.convert configured requested source).className source
            (d.shape source).1) := by
        rw [← missingDirectives_eq, ← hheader]
        rfl
    _ = _ := by
        rw [lines_directiveLines_append hline, hlines]
        simp only [List.map_eq_nil_iff, List.append_assoc]

/-- **The usings of a converted strategy** are completed without duplication.  A
directive of the dialect has as many lines as in the strategy, or, if it has none there,
as many as the dialect lists it; these are the first lines of the result, in the order
of the dialect and with a blank line behind them, and the lines of the strategy are
kept. -/
theorem lineCount_convert (hcheck : d.check = .ok ())
    (hconfigured : configured.isName = true) (requested source : Text) :
    (∀ name ∈ d.usings, lineCount (usingDirective name)
      (d.convert configured requested source).generatedCode =
        if 0 < lineCount (usingDirective name) source
        then lineCount (usingDirective name) source
        else d.usings.count name) ∧
      ∃ body, KeepsLines source body ∧
        ((d.shape source).1 = .completeUnit → body = lines source) ∧
        lines (d.convert configured requested source).generatedCode =
          (d.addedUsings source).map usingDirective
            ++ (if d.addedUsings source = [] then [] else [[]]) ++
            lines (d.opening (d.convert configured requested source).className []
              (d.shape source).1) ++ body ++
            lines (closing true (d.shape source).1) := by
  have hd : d.Accepted := check_eq_ok_iff.mp hcheck
  obtain ⟨body, hbody, hcomplete, hlines⟩ := lines_convert hd hconfigured requested source
  refine ⟨fun name _ => ?_, body, hbody, hcomplete, hlines⟩
  have hsemicolon : ';' ∈ usingDirective name := by
    rw [usingDirective_eq]
    simp
  have hopening : lineCount (usingDirective name)
      (d.opening (d.convert configured requested source).className []
        (d.shape source).1) = 0 :=
    lineCount_eq_zero hsemicolon
      (semicolon_not_mem_opening hd (isName_className requested hconfigured))
  have hclosing :
      lineCount (usingDirective name) (closing true (d.shape source).1) = 0 := by
    refine lineCount_eq_zero hsemicolon ?_
    cases (d.shape source).1 <;> decide
  have hblank : ((if d.addedUsings source = [] then [] else [[]]).countP fun l =>
      trim l = usingDirective name) = 0 := by
    have hne : trim [] ≠ usingDirective name := (usingDirective_ne_nil name).symm
    split <;> simp [hne]
  -- The parts of the result are counted one by one.
  rw [lineCount] at hopening hclosing
  rw [lineCount, hlines, List.countP_append, List.countP_append, List.countP_append,
    List.countP_append, countP_addedUsings, hblank, hopening, hbody.countP_eq, hclosing]
  split <;> omega

/-- A directive that is listed twice, and one that is there twice, with carriage returns
around it. -/
theorem lineCount_convert_twice :
    let d : Dialect :=
      { powerLanguage with usings := ["System".toList, "A.B".toList, "System".toList] }
    let source : Text := "  using A.B; \r\nint x;\nusing A.B;\r".toList
    d.check = .ok () ∧ d.className.isName = true ∧
      lineCount (usingDirective "System".toList)
        (d.convert d.className "Bars".toList source).generatedCode = 2 ∧
      lineCount (usingDirective "A.B".toList)
        (d.convert d.className "Bars".toList source).generatedCode = 2 := by
  intro d source
  have hcheck : d.check = .ok () := by decide
  have hconfigured : d.className.isName = true := by decide
  have hlacks : lineCount (usingDirective "System".toList) source = 0 := by decide
  have hhas : lineCount (usingDirective "A.B".toList) source = 2 := by decide
  obtain ⟨hcount, -⟩ := lineCount_convert hcheck hconfigured "Bars".toList source
  refine ⟨hcheck, hconfigured, ?_, ?_⟩
  · rw [hcount _ (by decide), hlacks]
    decide
  · rw [hcount _ (by decide), hhas]
    decide

end Dialect

end StrategyDialect
