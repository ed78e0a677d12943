import StrategyDialect.Proofs.Pattern.LineEnds
import StrategyDialect.Proofs.Strategy.ClassHeader
import StrategyDialect.Proofs.Strategy.Extraction

/-!
# Strategies with other line ends

A strategy may come with a carriage return before each of its newlines.  Everything an
engine finds out about it is then what the engine finds out without the carriage
returns, except that the text of the strategy is copied with them: into the defaults,
which may run over several lines, and into the generated code.

The patterns are indifferent to line ends, since their gaps are runs of blanks and each
gap is closed by something visible (`Pattern.IgnoresReturns`).  Names hold no line ends
and types lose their blanks, so defaults are the only parts of a parameter to which
anything happens.  They are read by position, from braces and semicolons; here a
position is taken as the text before it, and the bodies of the entry method cover the
same positions (`Dialect.any_entryBodies_crlf`).  The frame depends on the strategy by
its lines, which are compared without their blanks, and by its last character, which is
never a carriage return that was put in.

## Main definitions

* `Parameter.crlf`: the parameter with carriage returns in its default

## Main statements

* `Dialect.ignoresReturns_declarationPattern`, …: the patterns of a dialect
* `Dialect.shape_crlf`, `Dialect.parameters_crlf`: the shape and the parameters of a
  strategy
* `Engine.findings_crlf`: all of it together
-/

namespace StrategyDialect

/-- The parameter with a carriage return before each newline of its default. -/
def Parameter.crlf (p : Parameter) : Parameter :=
  { p with defaultValue := p.defaultValue.map Text.crlf }

/-- An identifier has no blanks, and so no line ends. -/
theorem Text.IsIdentifier.isVisible {t : Text} (h : t.IsIdentifier) : t.IsVisible := by
  refine ⟨?_, fun x hx => isBlank_eq_false_of_isWord (h.isWord hx)⟩
  obtain ⟨x, u, rfl, -⟩ := h
  exact List.cons_ne_nil x u

/-! ## Blocks -/

namespace Block

open Text

/-- A block stretches as far as before, the carriage returns inside it included. -/
theorem lengthFrom?_crlf (depth : Nat) (t : Text) :
    lengthFrom? depth t.crlf = (lengthFrom? depth t).map fun n =>
      (crlf (t.take n)).length := by
  -- What comes behind a character that is no line end is longer by one, in both texts.
  have hstep : ∀ {c : Char} {t : Text} (o : Option Nat), c ≠ '\n' →
      (o.map fun n => (crlf (t.take n)).length).map (· + 1) =
        (o.map (· + 1)).map fun n => (crlf ((c :: t).take n)).length := by
    intro c t o hc
    rw [Option.map_map, Option.map_map]
    congr 1
    funext n
    simp [crlf_cons hc]
  induction t generalizing depth with
  | nil => rfl
  | cons c t ih =>
    by_cases hc : c = '\n'
    · subst hc
      rw [crlf_newline_cons]
      simp only [lengthFrom?, ih, Option.map_map, Char.reduceEq, if_false]
      congr 1
    · rw [crlf_cons hc]
      simp only [lengthFrom?, ih, hstep _ hc]
      split
      · rfl
      · split
        · cases depth with
          | zero => rfl
          | succ depth =>
            cases depth with
            | zero => simp [crlf_cons hc]
            | succ depth => rfl
        · rfl

/-- A block ends at the same brace; its length grows by the carriage returns inside
it. -/
theorem length?_crlf (t : Text) :
    length? t.crlf = (length? t).map fun n => (crlf (t.take n)).length :=
  lengthFrom?_crlf 0 t

end Block

/-! ## Values -/

namespace Assignment

open Text

/-- A value keeps the carriage returns inside it; those at its ends are trimmed. -/
theorem valueBeforeSemicolon?_crlf (t : Text) :
    valueBeforeSemicolon? t.crlf = (valueBeforeSemicolon? t).map crlf := by
  have hsame : ∀ t, ';' ∈ crlf t ↔ ';' ∈ t := fun t => mem_crlf_iff (by decide)
  by_cases ht : ';' ∈ t
  · obtain ⟨u, r, rfl, hu⟩ := List.eq_append_cons_of_mem ht
    rw [crlf_append, crlf_cons (by decide),
      valueBeforeSemicolon?_append_cons (mt (hsame u).mp hu),
      valueBeforeSemicolon?_append_cons hu, trim_crlf, isEmpty_crlf]
    split <;> rfl
  · rw [valueBeforeSemicolon?_of_not_mem (mt (hsame t).mp ht),
      valueBeforeSemicolon?_of_not_mem ht]
    rfl

/-- A value behind an equals sign keeps the carriage returns inside it. -/
theorem value?_crlf (t : Text) : value? t.crlf = (value? t).map crlf := by
  cases ht : trimStart t with
  | nil =>
    rw [value?_of_trimStart (t := t) (by simp [ht]),
      value?_of_trimStart (by simp [trimStart_crlf, ht])]
    rfl
  | cons c r =>
    by_cases hc : c = '='
    · subst hc
      have hequals : (crlf r).head? = some '=' ↔ r.head? = some '=' :=
        head?_crlf_eq_some_iff (by decide) (by decide)
      have hangle : (crlf r).head? = some '>' ↔ r.head? = some '>' :=
        head?_crlf_eq_some_iff (by decide) (by decide)
      rw [value?, value?, trimStart_crlf, ht, crlf_cons (by decide)]
      simp only [hequals, hangle, valueBeforeSemicolon?_crlf]
      split <;> rfl
    · have hhead : (trimStart (crlf t)).head? ≠ some '=' := by
        rw [trimStart_crlf, Ne, head?_crlf_eq_some_iff (by decide) (by decide), ht]
        simpa using hc
      rw [value?_of_trimStart hhead, value?_of_trimStart (t := t) (by simp [ht, hc])]
      rfl

/-! ## Names that are assigned to -/

/-- The text before a name is read backwards, so returns stand behind newlines there.
None comes between the name and a receiver that is written next to it. -/
theorem hasOwnReceiver_lfcr (before : Text) :
    hasOwnReceiver before.lfcr = hasOwnReceiver before := by
  have hthis : '\n' ∉ ".siht".toList := by decide
  cases before with
  | nil => rfl
  | cons c before =>
    by_cases hdot : c = '.'
    · subst hdot
      have hprefix := afterPrefix?_lfcr hthis ('.' :: before)
      rw [lfcr_cons (by decide)] at hprefix ⊢
      rw [hasOwnReceiver, hasOwnReceiver, hprefix]
      cases afterPrefix? ".siht".toList ('.' :: before) with
      | none => rfl
      | some receiver =>
        exact congrArg (fun x => !Option.any isNameChar x) (head?_lfcr receiver)
    · by_cases hc : c = '\n'
      · subst hc
        simp [hasOwnReceiver]
      · rw [lfcr_cons hc]
        simp [hasOwnReceiver]

/-- The value that an occurrence gives keeps the carriage returns inside it. -/
theorem valueAt?_crlf (before after : Text) :
    valueAt? before.lfcr after.crlf = (valueAt? before after).map crlf := by
  rw [valueAt?, valueAt?, hasOwnReceiver_lfcr, any_head?_crlf rfl rfl, value?_crlf]
  split <;> rfl

variable {name source : Text} {spans spans' : List Span}

/-- No line end stands in what is left of an occurrence of the name. -/
private theorem newline_not_mem_take (hn : '\n' ∉ name) {c : Char} {rest after : Text}
    (h : afterPrefix? name (c :: rest) = some after) :
    '\n' ∉ rest.take (name.length - 1) := by
  have hsplit := afterPrefix?_eq_some_iff.mp h
  cases name with
  | nil => simp
  | cons x n =>
    obtain ⟨rfl, rfl⟩ : c = x ∧ rest = n ++ after := List.cons.inj hsplit
    rw [List.mem_cons, not_or] at hn
    simpa using hn.2

/-- No name stands at either part of a line end. -/
private theorem findFrom_newline_cons (hname : name.IsIdentifier) (position : Nat)
    (before t : Text) :
    findFrom name spans 0 position before ('\n' :: t) =
      findFrom name spans 0 (position + 1) ('\n' :: before) t ∧
      findFrom name spans 0 position before ('\r' :: '\n' :: t) =
        findFrom name spans 0 (position + 2) ('\n' :: '\r' :: before) t := by
  have hstart : ∀ x ∈ ['\r', '\n'], CharClass.asciiNameStart.contains x = false := by
    decide
  have hnewline : ∀ x ∈ ['\n'], CharClass.asciiNameStart.contains x = false := fun x hx =>
    hstart x (List.mem_cons_of_mem _ hx)
  exact ⟨findFrom_append_of_no_start hname hnewline,
    findFrom_append_of_no_start hname hstart⟩

/-- The search for an assignment, where a position is given by the text before it. -/
private theorem findFrom_crlf (hname : name.IsIdentifier)
    (hspans : ∀ u v, source = u ++ v →
      spans'.any (·.contains (crlf u).length) = spans.any (·.contains u.length))
    (skip : Nat) (before rest : Text) (hsource : source = before.reverse ++ rest)
    (hskip : '\n' ∉ rest.take skip) :
    findFrom name spans' skip (crlf before.reverse).length before.lfcr (crlf rest) =
      (findFrom name spans skip before.length before rest).map crlf := by
  have hvisible := hname.isVisible
  -- Positions differ by the returns before them, so `hspans` is about prefixes of the
  -- strategy, and `hskip` says that no newline is ever skipped.
  induction rest generalizing skip before with
  | nil => rfl
  | cons c rest ih =>
    have hlater : ∀ skip, '\n' ∉ rest.take skip →
        findFrom name spans' skip (crlf (before.reverse ++ [c])).length
          (lfcr (c :: before)) (crlf rest) =
          (findFrom name spans skip (before.length + 1) (c :: before) rest).map crlf := by
      intro skip hskip
      have hstep := ih skip (c :: before) (by simpa using hsource) hskip
      rwa [List.reverse_cons] at hstep
    -- A newline takes two steps with its return, and no name starts at either of them.
    by_cases hc : c = '\n'
    · subst hc
      cases skip with
      | succ skip => simp at hskip
      | zero =>
        have hnext := hlater 0 (by simp)
        rw [crlf_append, List.length_append] at hnext
        rw [crlf_newline_cons, (findFrom_newline_cons hname _ _ _).1,
          (findFrom_newline_cons hname _ _ _).2]
        exact hnext
    · have hlength : (crlf (before.reverse ++ [c])).length =
          (crlf before.reverse).length + 1 := by
        simp [crlf_cons hc]
      rw [hlength, lfcr_cons hc] at hlater
      rw [crlf_cons hc]
      cases skip with
      | succ skip => exact hlater skip (by simpa [Ne.symm hc] using hskip)
      | zero =>
        have hprefix :=
          afterPrefix?_crlf hvisible.return_not_mem hvisible.newline_not_mem (c :: rest)
        rw [crlf_cons hc] at hprefix
        rw [findFrom, findFrom, hprefix]
        cases hafter : afterPrefix? name (c :: rest) with
        | none => exact hlater 0 (by simp)
        | some after =>
          -- The name stands here: it is in a body on one side if it is on the other.
          have hhere := hspans before.reverse (c :: rest) hsource
          rw [List.length_reverse] at hhere
          have hvalue : (if spans'.any (·.contains (crlf before.reverse).length) then none
                else valueAt? before.lfcr (crlf after)) =
              (if spans.any (·.contains before.length) then none
                else valueAt? before after).map crlf := by
            rw [hhere, valueAt?_crlf]
            split <;> rfl
          dsimp only [Option.map_some]
          rw [hvalue]
          cases (if spans.any (·.contains before.length) then none
            else valueAt? before after) with
          | some value => rfl
          | none => exact hlater _ (newline_not_mem_take hvisible.newline_not_mem hafter)

/-- **The first assignment to a name** gives the same value, with its line ends. -/
theorem find_crlf (hname : name.IsIdentifier)
    (hspans : ∀ u v, source = u ++ v →
      spans'.any (·.contains (crlf u).length) = spans.any (·.contains u.length)) :
    find name spans' source.crlf = (find name spans source).map crlf :=
  findFrom_crlf hname hspans 0 [] source rfl (by simp)

end Assignment

/-! ## Patterns -/

namespace Dialect

open Text Cursor Pattern

variable {d : Dialect}

/-- The pattern of the namespace has gaps between keyword and name only. -/
theorem ignoresReturns_namespacePattern (hd : d.Accepted) :
    (d.namespacePattern : Pattern Empty).IgnoresReturns where
  reads := rfl
  inside := rfl
  admits := by
    have hname := isVisible_of_isQualifiedName hd.namespaceName
    simp only [namespacePattern, Pattern.sequence, List.foldr, admitsReturns, inside,
      inside_literal hname, admitsReturns_literal hname.2]
    rfl

/-- The gaps in the pattern of the base type stand behind the colon and around the
dots. -/
theorem ignoresReturns_baseTypePattern (hd : d.Accepted) :
    (d.baseTypePattern : Pattern Empty).IgnoresReturns where
  reads := rfl
  inside := rfl
  admits := by
    have hname := isVisible_of_isName hd.baseType
    simp only [baseTypePattern, derivation, Pattern.sequence, List.foldr, admitsReturns,
      inside, inside_literal hname, admitsReturns_literal hname.2]
    rfl

/-- The pattern of the entry method has its gaps around the name. -/
theorem ignoresReturns_entryMethodPattern (hd : d.Accepted) :
    (d.entryMethodPattern : Pattern Empty).IgnoresReturns where
  reads := rfl
  inside := rfl
  admits := by
    have hname := isVisible_of_isName hd.entryMethod
    simp only [entryMethodPattern, Pattern.sequence, List.foldr, admitsReturns, inside,
      inside_literal hname, admitsReturns_literal hname.2]
    rfl

/-- The arguments of an entry method may run over several lines; the parenthesis that
ends them is visible. -/
theorem ignoresReturns_entryHeadPattern (hd : d.Accepted) :
    d.entryHeadPattern.IgnoresReturns where
  reads := rfl
  inside := rfl
  admits := by
    have hname := isVisible_of_isName hd.entryMethod
    simp only [entryHeadPattern, Pattern.sequence, List.foldr, admitsReturns, inside,
      inside_literal hname, admitsReturns_literal hname.2]
    rfl

/-- The type parameters of a class may run over several lines; the bracket that ends
them is visible. -/
theorem ignoresReturns_derivedClassPattern (hd : d.Accepted) :
    d.derivedClassPattern.IgnoresReturns where
  reads := rfl
  inside := rfl
  admits := by
    have hname := isVisible_of_isName hd.baseType
    simp only [derivedClassPattern, derivation, Pattern.sequence, List.foldr,
      List.cons_append, List.nil_append, admitsReturns, inside, inside_literal hname,
      admitsReturns_literal hname.2]
    rfl

/-- A declaration may run over as many lines as it has gaps, and attributes and types
may be broken as well. -/
theorem ignoresReturns_declarationPattern (hd : d.Accepted) :
    d.declarationPattern.IgnoresReturns where
  reads := rfl
  inside := rfl
  admits := by
    have hname := isVisible_of_isName hd.inputAttribute
    simp only [declarationPattern, attributePattern, Pattern.sequence, List.foldr,
      admitsReturns, inside, inside_literal hname, admitsReturns_literal hname.2]
    rfl

/-! ## Rules and shapes -/

/-- The rules of a dialect do not see line ends. -/
theorem isSatisfied_crlf (hd : d.Accepted) {rule : Rule} (hrule : rule ∈ d.rules)
    (source : Text) : rule.isSatisfied source.crlf = rule.isSatisfied source := by
  simp only [rules, List.mem_cons, List.not_mem_nil, or_false] at hrule
  rcases hrule with rfl | rfl | rfl
  · exact (ignoresReturns_namespacePattern hd).occursIn_crlf source
  · exact (ignoresReturns_baseTypePattern hd).occursIn_crlf source
  · exact (ignoresReturns_entryMethodPattern hd).occursIn_crlf source

/-- **The verdict on a strategy** is the same with other line ends. -/
theorem ofRules_crlf (hd : d.Accepted) (source : Text) :
    Validation.ofRules d.rules source.crlf = Validation.ofRules d.rules source := by
  have hrules : d.rules.filterMap (·.check source.crlf) =
      d.rules.filterMap (·.check source) := by
    refine List.filterMap_congr fun rule hrule => ?_
    rw [Rule.check, Rule.check, isSatisfied_crlf hd hrule]
  rw [Validation.ofRules, Validation.ofRules, isAllBlank_crlf, hrules]

/-- The class that is found has the same name, as there is no line end in a name. -/
theorem derivedClass?_crlf (hd : d.Accepted) (source : Text) :
    d.derivedClass? source.crlf = d.derivedClass? source := by
  rw [derivedClass?, (ignoresReturns_derivedClassPattern hd).find_crlf]
  cases hfind : d.derivedClassPattern.find source with
  | none => simp [derivedClass?, hfind]
  | some m =>
    obtain ⟨-, hat⟩ := matchAt_of_find_eq_some hfind
    have hclass : d.derivedClass? source = m.groupText? () := by
      rw [derivedClass?, hfind]
      rfl
    show m.crlf.groupText? () = _
    rw [Match.groupText?_crlf (stretchesOnly_of_matchAt_eq_some hat), hclass]
    cases hname : m.groupText? () with
    | none => rfl
    | some name =>
      obtain ⟨-, -, t, -, -, hheader, -⟩ :=
        exists_isClassHeader_of_derivedClass? (hclass.trans hname)
      exact congrArg some (crlf_eq_self hheader.isIdentifier.isVisible.newline_not_mem)

/-- **The shape of a strategy** and the name of its class are the same with other line
ends. -/
theorem shape_crlf (hd : d.Accepted) (source : Text) :
    d.shape source.crlf = d.shape source := by
  have hrule : d.namespaceRule.isSatisfied source.crlf =
      d.namespaceRule.isSatisfied source :=
    isSatisfied_crlf hd (by simp [rules]) source
  rw [shape, shape, derivedClass?_crlf hd, hrule]

/-! ## Bodies of the entry method -/

/-- A body covers the same positions of the strategy. -/
theorem contains_bodyAt_crlf {source t r u v : Text} (ht : source = t ++ r)
    (hu : source = u ++ v) :
    (bodyAt source.crlf (crlf t).length).contains (crlf u).length =
      (bodyAt source t.length).contains u.length := by
  have htprefix : t <+: source := ⟨r, ht.symm⟩
  have huprefix : u <+: source := ⟨v, hu.symm⟩
  have hdrop : source.drop t.length = r := by rw [ht, List.drop_left]
  have hdrop' : source.crlf.drop (crlf t).length = crlf r := by
    rw [ht, crlf_append, List.drop_left]
  have hstart := length_crlf_le_iff htprefix huprefix
  rw [bodyAt, bodyAt, hdrop, hdrop', Block.length?_crlf]
  cases hclosed : Block.length? r with
  | some n =>
    have hle : n ≤ r.length := (Block.length?_append_of_some hclosed []).2
    -- The body is a prefix with `t` taken away, and prefixes keep their order.
    have hbody : t ++ r.take n <+: source := ⟨r.drop n, by simp [ht]⟩
    have hstop := length_crlf_lt_iff huprefix hbody
    rw [crlf_append, List.length_append, List.length_append, List.length_take,
      Nat.min_eq_left hle] at hstop
    simp only [Option.map_some, Span.contains, hstart, hstop]
  | none =>
    have hstop := length_crlf_lt_iff huprefix (List.prefix_refl source)
    simp only [Option.map_none, Span.contains, hstart, hstop]

/-- **The bodies of the entry method** cover the same positions of the strategy. -/
theorem any_entryBodies_crlf (hd : d.Accepted) {source u v : Text}
    (hu : source = u ++ v) :
    (d.entryBodies source.crlf).any (·.contains (crlf u).length) =
      (d.entryBodies source).any (·.contains u.length) := by
  rw [entryBodies_eq, entryBodies_eq, (ignoresReturns_entryHeadPattern hd).matchesIn_crlf,
    List.any_map, List.any_map, List.any_map, Bool.eq_iff_iff, List.any_eq_true,
    List.any_eq_true]
  refine exists_congr fun m => and_congr_right fun hm => ?_
  obtain ⟨htext, hat⟩ := matchAt_of_mem_matchesIn hm
  -- The body starts with the brace that the head ends with, so it starts where the
  -- brace is read.
  obtain ⟨f, g, hf, hg, hbrace⟩ :=
    exists_of_matches_entryHeadPattern (matches_of_matchAt_eq_some hat)
  have hsource : source = g.before.reverse ++ g.rest := (hg.trans htext).symm
  have hstart : m.stop.offset - 1 = g.before.reverse.length := by
    rw [hbrace.offset_eq, offset, List.length_reverse]
    rfl
  have hstart' : m.crlf.stop.offset - 1 = (crlf g.before.reverse).length := by
    rw [Match.crlf, hbrace.crlf.offset_eq, offset_crlf]
    rfl
  simp only [Function.comp_apply, hstart, hstart', contains_bodyAt_crlf hsource hu]

/-! ## Parameters -/

/-- Line ends in a type are blanks and go with the others. -/
theorem normalizeType_crlf (t : Text) : normalizeType t.crlf = normalizeType t := by
  rw [normalizeType, normalizeType, filter_crlf rfl rfl]

/-- A default in a declaration keeps its line ends. -/
theorem inlineDefault?_crlf {tail : Text} (htail : '\n' ∉ tail) (rest : Text) :
    inlineDefault? tail rest.crlf = (inlineDefault? tail rest).map Text.crlf := by
  unfold inlineDefault?
  split
  · have happend : tail ++ rest.crlf = crlf (tail ++ rest) := by
      rw [crlf_append, crlf_eq_self htail]
    rw [happend, Block.length?_crlf]
    cases Block.length? (tail ++ rest) with
    | none => rfl
    | some n =>
      show Assignment.value? ((crlf (tail ++ rest)).drop
        (crlf ((tail ++ rest).take n)).length) = _
      rw [drop_length_crlf_take, Assignment.value?_crlf]
      rfl
  · split
    · rfl
    · exact Assignment.valueBeforeSemicolon?_crlf rest

/-- **A declaration declares the same parameter**, with the line ends of its default. -/
theorem parameterOf_crlf (hd : d.Accepted) {source : Text} {m : Match DeclarationPart}
    (hm : m ∈ d.declarationPattern.matchesIn source) :
    parameterOf source.crlf (d.entryBodies source.crlf) m.crlf =
      (parameterOf source (d.entryBodies source) m).map Parameter.crlf := by
  obtain ⟨-, hat⟩ := matchAt_of_mem_matchesIn hm
  obtain ⟨t, type, name, tail, hdeclaration, -, -, -, htype, hname, htail⟩ :=
    exists_of_matchAt_declarationPattern hd hat
  obtain ⟨-, -, -, -, -, hidentifier, -, hmem⟩ := hdeclaration
  have htails : ∀ tail ∈ tails, '\n' ∉ tail := by decide
  have hnewline := htails tail hmem
  -- Each part of the match is a stretch of the strategy, and gets its returns as one.
  have hgroup : ∀ {l u}, m.groupText? l = some u → m.crlf.groupText? l = some u.crlf := by
    intro l u h
    rw [Match.groupText?_crlf (stretchesOnly_of_matchAt_eq_some hat), h, Option.map_some]
  have hfind : Assignment.find name (d.entryBodies source.crlf) source.crlf =
      (Assignment.find name (d.entryBodies source) source).map Text.crlf :=
    Assignment.find_crlf hidentifier fun u v hu => any_entryBodies_crlf hd hu
  have hdefault : inlineDefault? tail m.crlf.stop.rest =
      (inlineDefault? tail m.stop.rest).map Text.crlf :=
    inlineDefault?_crlf hnewline m.stop.rest
  rw [parameterOf_eq (hgroup htype) (hgroup hname) (hgroup htail),
    parameterOf_eq htype hname htail, Option.map_some, Parameter.crlf,
    crlf_eq_self hidentifier.isVisible.newline_not_mem, normalizeType_crlf,
    crlf_eq_self hnewline, hdefault, hfind, Option.map_or]

/-- **The parameters of a strategy** are the same with other line ends, which their
defaults keep. -/
theorem parameters_crlf (hd : d.Accepted) (source : Text) :
    d.parameters source.crlf = (d.parameters source).map Parameter.crlf := by
  rw [parameters, parameters, (ignoresReturns_declarationPattern hd).matchesIn_crlf,
    List.filterMap_map, List.map_filterMap]
  exact List.filterMap_congr fun m hm => parameterOf_crlf hd hm

/-! ## The frame -/

/-- A strategy has the same directives: lines are compared without their blanks, and the
carriage return at the end of a line is one. -/
theorem hasLine_crlf {directive : Text} (hne : directive ≠ []) (source : Text) :
    hasLine directive source.crlf = hasLine directive source := by
  have hlines : ∀ s, hasLine directive s = true ↔
      ∃ piece ∈ splitOn '\n' s, trim piece = directive := by
    intro s
    rw [← exists_mem_lines_iff hne]
    simp [hasLine]
  rw [Bool.eq_iff_iff, hlines, hlines, exists_mem_splitOn_crlf_iff]

/-- The usings that a strategy lacks do not depend on its line ends. -/
theorem missingDirectives_crlf (d : Dialect) (source : Text) :
    d.missingDirectives source.crlf = d.missingDirectives source := by
  refine List.filter_congr fun directive hdirective => ?_
  obtain ⟨name, -, rfl⟩ := List.mem_map.mp hdirective
  have hne : usingDirective name ≠ [] := by simp [usingDirective_eq]
  rw [hasLine_crlf hne]

/-- The header is the same, because the same directives are missing. -/
theorem header_crlf (d : Dialect) (className source : Text) (shape : SourceShape) :
    d.header className source.crlf shape = d.header className source shape := by
  have husings : d.usingsHeader source.crlf = d.usingsHeader source := by
    rw [usingsHeader, usingsHeader, missingDirectives_crlf]
  cases shape <;> simp only [header, husings]

/-- The trailer is the same, because a strategy ends in a newline before and after, or
neither. -/
theorem trailer_crlf (source : Text) (shape : SourceShape) :
    trailer source.crlf shape = trailer source shape := by
  have hnewline : missingNewline source.crlf = missingNewline source := by
    simp only [missingNewline, crlf_eq_nil_iff, getLast?_crlf]
  cases shape <;> simp only [trailer, hnewline]

end Dialect

/-! ## Engines -/

namespace Engine

open Text Dialect

/-- **Line ends do not matter.**  With a carriage return before each newline, a strategy
gets the same verdict, it has the same shape and class name, and the same parameters but
for the line ends in their defaults.  It lacks the same usings, and conversion puts the
same text before and after it.  The strategy may hold carriage returns of its own. -/
theorem findings_crlf {d : Dialect} {e : Engine} (he : Engine.ofDialect d = .ok e)
    (source requested : Text) : e.validate source.crlf = e.validate source ∧
      e.shape source.crlf = e.shape source ∧
      e.parameters source.crlf = (e.parameters source).map Parameter.crlf ∧
      d.missingDirectives source.crlf = d.missingDirectives source ∧
      ∃ before after,
        before = d.header (e.convertAs source requested).className source
          (e.shape source).1 ∧
        after = trailer source (e.shape source).1 ∧
        (e.convertAs source requested).generatedCode = before ++ source ++ after ∧
        (e.convertAs source.crlf requested).generatedCode =
          before ++ source.crlf ++ after := by
  obtain ⟨hcheck, rfl⟩ := ofDialect_eq_ok_iff.mp he
  have hd : d.Accepted := check_eq_ok_iff.mp hcheck
  have hshape : d.shape source.crlf = d.shape source := shape_crlf hd source
  have hclass : (d.convert d.className requested source.crlf).className =
      (d.convert d.className requested source).className := by
    show chooseClassName (d.shape source.crlf).2 requested d.className = _
    rw [hshape]
    rfl
  refine ⟨ofRules_crlf hd source, hshape, parameters_crlf hd source,
    missingDirectives_crlf d source, _, _, rfl, rfl, generatedCode_eq .., ?_⟩
  show (d.convert d.className requested source.crlf).generatedCode = _
  rw [generatedCode_eq, hclass, hshape, header_crlf, trailer_crlf]
  rfl

/-- Members with a using, and with a default that stretches over two lines. -/
def membersOverLines : Text :=
  "using System;\n[Input] int N =\n  Max(1,\n    2);\nvoid CalcBar() \x7b\n\x7d".toList

/-- The default keeps the line end inside it, and the using is found on its line. -/
theorem findings_crlf_membersOverLines :
    ofDialect .powerLanguage = .ok powerLanguage ∧
      powerLanguage.parameters membersOverLines.crlf =
        [⟨"N".toList, "int".toList, some "Max(1,\r\n    2)".toList⟩] ∧
      (powerLanguage.validate membersOverLines.crlf).errors.length = 2 ∧
      usingDirective "System".toList ∉
        Dialect.powerLanguage.missingDirectives membersOverLines.crlf := by
  obtain ⟨hverdict, -, hparameters, hmissing, -⟩ :=
    findings_crlf ofDialect_powerLanguage membersOverLines []
  rw [hverdict, hparameters, hmissing]
  exact ⟨ofDialect_powerLanguage, by decide +kernel, by decide +kernel, by decide +kernel⟩

end Engine

end StrategyDialect
