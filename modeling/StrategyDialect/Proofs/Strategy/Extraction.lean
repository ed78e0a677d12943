import StrategyDialect.Proofs.Strategy.Confinement
import StrategyDialect.Proofs.Strategy.Defaults

/-!
# Parameters inside a frame

The parameters of a strategy are the same before and after conversion, whatever the
strategy looks like: its braces need not balance, and a declaration may be cut off at
its end.

No match leaves the strategy (`StrategyDialect.Proofs.Strategy.Confinement`), so matches
move with the header and keep their groups.  What is left is where a block ends that the
strategy does not close.  In the result it may end inside the trailer; but a position
inside the strategy belongs to the body of an entry method before and after
(`Dialect.any_entryBodies_embed`), and no default starts behind the strategy
(`Dialect.inlineDefault?_append`).

## Main statements

* `Dialect.parameters_embed`: the parameters of a strategy inside a frame
* `Dialect.parameters_convert`: the parameters of a converted strategy
-/

namespace StrategyDialect

namespace Dialect

open Text Cursor Pattern Wrapper

variable {d : Dialect} {a b s : Text}

/-! ## Bodies of the entry method -/

/-- The body of an entry method whose opening brace stands at `start`. -/
def bodyAt (source : Text) (start : Nat) : Span :=
  match Block.length? (source.drop start) with
  | some n => ⟨start, start + n⟩
  | none => ⟨start, source.length⟩

/-- There is one body for each head that the search lists, and it starts with the brace
at which the head ends. -/
theorem entryBodies_eq (d : Dialect) (source : Text) :
    d.entryBodies source =
      (d.entryHeadPattern.matchesIn source).map fun m =>
        bodyAt source (m.stop.offset - 1) :=
  rfl

/-- What follows a position of the strategy is followed by the trailer in the frame. -/
private theorem drop_embed {k : Nat} (hk : k ≤ s.length) :
    (a ++ s ++ b).drop (a.length + k) = s.drop k ++ b := by
  rw [← List.drop_drop, List.append_assoc, List.drop_append_length,
    List.drop_append_of_le_length hk]

/-- **A body covers the same positions of the strategy** before and after, also if the
trailer closes it. -/
theorem contains_bodyAt_embed {k i : Nat} (hk : k ≤ s.length) (hi : i < s.length) :
    (bodyAt (a ++ s ++ b) (a.length + k)).contains (a.length + i) =
      (bodyAt s k).contains i := by
  have hdrop : (a ++ s ++ b).drop (a.length + k) = s.drop k ++ b := drop_embed hk
  have hlength : (s.drop k).length = s.length - k := List.length_drop
  rw [bodyAt, bodyAt, hdrop, Bool.eq_iff_iff]
  cases hclosed : Block.length? (s.drop k) with
  | some n =>
    rw [(Block.length?_append_of_some hclosed b).1]
    simp only [Span.contains, Bool.and_eq_true, decide_eq_true_eq]
    omega
  | none =>
    -- Wherever a body ends that the strategy leaves open, it ends behind the strategy.
    cases hlater : Block.length? (s.drop k ++ b) with
    | some n =>
      have hbehind := Block.lt_of_length?_append hclosed hlater
      simp only [Span.contains, Bool.and_eq_true, decide_eq_true_eq]
      omega
    | none =>
      simp only [Span.contains, Bool.and_eq_true, decide_eq_true_eq, List.length_append]
      omega

/-- A position of the strategy lies in a body before and after. -/
theorem any_entryBodies_embed (hd : d.Accepted) (ha : Header a) (hb : Trailer b) {i : Nat}
    (hi : i < s.length) :
    (d.entryBodies (a ++ s ++ b)).any (·.contains (a.length + i)) =
      (d.entryBodies s).any (·.contains i) := by
  have hmatches : d.entryHeadPattern.matchesIn (a ++ s ++ b) =
      (d.entryHeadPattern.matchesIn s).map (Match.widen a b) :=
    matchesIn_embed (seams ha hb) isRegular_entryHeadPattern
      (confined_entryHeadPattern hd ha hb)
  rw [entryBodies_eq, entryBodies_eq, hmatches, List.any_map, List.any_map, List.any_map,
    Bool.eq_iff_iff, List.any_eq_true, List.any_eq_true]
  refine exists_congr fun m => and_congr_right fun hm => ?_
  obtain ⟨htext, hat⟩ := matchAt_of_mem_matchesIn hm
  have hmatch := matches_of_matchAt_eq_some hat
  -- A head ends with a brace, so there is a position before its end.
  have hpos : 1 ≤ m.stop.offset := by
    obtain ⟨u, hu⟩ := hmatch.exists_reads
    have hne : u ≠ [] := ne_nil_of_reads canBeEmpty_entryHeadPattern hmatch hu
    have hlength := List.length_pos_iff.mpr hne
    rw [hu.offset_eq]
    omega
  have hle : m.stop.offset ≤ s.length := by
    rw [← htext, ← hmatch.text_eq]
    simp [offset, text]
  have hstart : (m.widen a b).stop.offset - 1 = a.length + (m.stop.offset - 1) := by
    rw [Match.widen, offset_widen]
    omega
  simp only [Function.comp_apply, hstart,
    contains_bodyAt_embed (show m.stop.offset - 1 ≤ s.length by omega) hi]

/-! ## Defaults in declarations -/

/-- No default begins or ends in a trailer.  For a property with a block of accessors
this holds even if the trailer closes the block, since nothing is assigned behind it. -/
theorem inlineDefault?_append (hb : Trailer b) (tail rest : Text) :
    inlineDefault? tail (rest ++ b) = inlineDefault? tail rest := by
  have hequals : '=' ∉ b := hb.not_mem (by decide)
  unfold inlineDefault?
  split
  · rw [← List.append_assoc]
    cases hclosed : Block.length? (tail ++ rest) with
    | some n =>
      obtain ⟨hsame, hle⟩ := Block.length?_append_of_some hclosed b
      rw [hsame]
      show Assignment.value? ((tail ++ rest ++ b).drop n) =
          Assignment.value? ((tail ++ rest).drop n)
      rw [List.drop_append_of_le_length hle, Assignment.value?_append hb]
    | none =>
      cases hlater : Block.length? (tail ++ rest ++ b) with
      | none => rfl
      | some n =>
        -- The accessors now end in the trailer, and what follows them holds no equals
        -- sign.
        have hbehind := Block.lt_of_length?_append hclosed hlater
        show Assignment.value? ((tail ++ rest ++ b).drop n) = none
        refine Assignment.value?_eq_none_of_not_mem fun hmem => hequals ?_
        rw [List.drop_append, List.drop_of_length_le (Nat.le_of_lt hbehind),
          List.nil_append] at hmem
        exact List.mem_of_mem_drop hmem
  · split
    · rfl
    · exact Assignment.valueBeforeSemicolon?_append hb

/-! ## Parameters -/

/-- **A declaration declares the same parameter** before and after. -/
theorem parameterOf_embed (hd : d.Accepted) (ha : Header a) (hb : Trailer b)
    {m : Match DeclarationPart} (hm : m ∈ d.declarationPattern.matchesIn s) :
    parameterOf (a ++ s ++ b) (d.entryBodies (a ++ s ++ b)) (m.widen a b) =
      parameterOf s (d.entryBodies s) m := by
  obtain ⟨-, hat⟩ := matchAt_of_mem_matchesIn hm
  obtain ⟨t, type, name, tail, hdeclaration, -, -, -, htype, hname, htail⟩ :=
    exists_of_matchAt_declarationPattern hd hat
  have hgroup : ∀ l, (m.widen a b).groupText? l = m.groupText? l :=
    Match.groupText?_widen (stretchesOnly_of_matchAt_eq_some hat)
  have hrest : (m.widen a b).stop.rest = m.stop.rest ++ b := rfl
  have hfind : Assignment.find name (d.entryBodies (a ++ s ++ b)) (a ++ s ++ b) =
      Assignment.find name (d.entryBodies s) s :=
    Assignment.find_embed hdeclaration.isIdentifier ha hb fun i hi =>
      any_entryBodies_embed hd ha hb hi
  rw [parameterOf_eq htype hname htail,
    parameterOf_eq ((hgroup _).trans htype) ((hgroup _).trans hname)
      ((hgroup _).trans htail), hrest,
    inlineDefault?_append hb, hfind]

/-- **The parameters of a strategy inside a frame** are those of the strategy. -/
theorem parameters_embed (hd : d.Accepted) (ha : Header a) (hb : Trailer b) :
    d.parameters (a ++ s ++ b) = d.parameters s := by
  have hmatches : d.declarationPattern.matchesIn (a ++ s ++ b) =
      (d.declarationPattern.matchesIn s).map (Match.widen a b) :=
    matchesIn_embed (seams ha hb) isRegular_declarationPattern
      (confined_declarationPattern hd ha hb)
  rw [parameters, parameters, hmatches, List.filterMap_map]
  exact List.filterMap_congr fun m hm => parameterOf_embed hd ha hb hm

/-- **Conversion does not change the parameters**: those of the result are those of the
strategy, and these are the ones that are reported.  Nothing is asked of the strategy:
it may be cut off inside a declaration, and it may leave open the body of an entry
method, which the trailer then closes. -/
theorem parameters_convert (hcheck : d.check = .ok ()) {configured : Text}
    (hconfigured : configured.isName = true) (requested source : Text) :
    d.parameters (d.convert configured requested source).generatedCode =
      d.parameters source ∧
      (d.convert configured requested source).parameters = d.parameters source := by
  have hd : d.Accepted := check_eq_ok_iff.mp hcheck
  obtain ⟨a, b, ha, hb, hcode⟩ := exists_frame hd requested source hconfigured
  exact ⟨by rw [hcode, parameters_embed hd ha hb], rfl⟩

/-- A strategy that is cut off behind a declaration, inside a method. -/
theorem parameters_convert_cutOff :
    powerLanguage.check = .ok () ∧ powerLanguage.className.isName = true ∧
      powerLanguage.parameters (powerLanguage.convert powerLanguage.className []
        "void CalcBar() \x7b [Input] int N;".toList).generatedCode =
        [⟨"N".toList, "int".toList, none⟩] := by
  have hcheck : powerLanguage.check = .ok () := by decide
  have hname : powerLanguage.className.isName = true := by decide
  have hsource : powerLanguage.parameters "void CalcBar() \x7b [Input] int N;".toList =
      [⟨"N".toList, "int".toList, none⟩] := by decide +kernel
  exact ⟨hcheck, hname, (parameters_convert hcheck hname [] _).1.trans hsource⟩

end Dialect

end StrategyDialect
