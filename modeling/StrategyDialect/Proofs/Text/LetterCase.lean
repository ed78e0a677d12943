import StrategyDialect.Proofs.Text.Classes
import StrategyDialect.Text.LetterCase

/-!
# Upper case

In upper case a character becomes one character, or one with further characters behind
it, such as accents.  Of the first one two things are known
(`exists_upperChar_eq_cons`).  It is alphabetic, unless the character is left alone, and
it has no other upper case.

Both are read off the tables.  The first characters are taken for the counterparts in
runs (`letterRuns`), also where further characters follow, and then sets of code points
are compared: the counterparts of all letters with the alphabetic characters, and with
the letters that have counterparts (`tables_checked`).  For this a set is a number, with
a bit for each code point, since a comparison run by run takes too long.

## Main definitions

* `unionBits`: unions of sets of code points
* `CodeRanges.bits`, `CaseRun.letterBits`, `CaseRun.targetBits`: the sets that tables
  stand for
* `letterRuns`: the first characters in upper case

## Main statements

* `tables_checked`: how the tables fit together
* `exists_upperChar_eq_cons`: what a character starts with in upper case
-/

namespace StrategyDialect

/-! ### Sets of code points -/

/-- The union of some sets of code points.  The elements of a set are the bits of a
number. -/
def unionBits {α : Type} (bits : α → Nat) (l : List α) : Nat :=
  l.foldr (fun a others => bits a ||| others) 0

/-- A code point lies in a union if it lies in one of the sets. -/
theorem testBit_unionBits {α : Type} {bits : α → Nat} {l : List α} {n : Nat} :
    (unionBits bits l).testBit n = true ↔ ∃ a ∈ l, (bits a).testBit n = true := by
  induction l with
  | nil => simp [unionBits]
  | cons a l ih =>
    rw [unionBits, List.foldr_cons, ← unionBits, Nat.testBit_or, Bool.or_eq_true, ih,
      List.exists_mem_cons_iff]

namespace CodeRanges

/-- The code points in a table of ranges. -/
def bits (rs : CodeRanges) : Nat :=
  unionBits (fun r => (2 ^ (r.2 + 1 - r.1) - 1) <<< r.1) rs

/-- Whether the ranges of a table are in increasing order and apart from each other,
from `start` on. -/
def ascends (start : Nat) : CodeRanges → Bool
  | [] => true
  | (low, high) :: rest => start ≤ low && low ≤ high && ascends (high + 1) rest

variable {rs : CodeRanges} {start n : Nat}

/-- The bits of a table are those of its ranges: a range is a number with ones from its
first to its last place. -/
theorem testBit_bits : rs.bits.testBit n = true ↔ ∃ r ∈ rs, r.1 ≤ n ∧ n ≤ r.2 := by
  rw [bits, testBit_unionBits]
  refine exists_congr fun r => and_congr_right fun _ => ?_
  rw [Nat.testBit_shiftLeft, Nat.testBit_two_pow_sub_one, Bool.and_eq_true,
    decide_eq_true_eq, decide_eq_true_eq]
  omega

/-- In a table whose ranges go upwards, the search finds every code point that lies in
one of the ranges: the ranges before it end before it. -/
theorem contains_of_ascends (h : rs.ascends start = true)
    (hn : ∃ r ∈ rs, r.1 ≤ n ∧ n ≤ r.2) : start ≤ n ∧ rs.contains n = true := by
  induction rs generalizing start with
  | nil =>
    obtain ⟨r, hr, -⟩ := hn
    cases hr
  | cons r rs ih =>
    obtain ⟨low, high⟩ := r
    simp only [ascends, Bool.and_eq_true, decide_eq_true_eq] at h
    obtain ⟨⟨hlow, hhigh⟩, hlater⟩ := h
    rw [contains]
    rcases (List.exists_mem_cons_iff ..).mp hn with hhere | hthere
    · rw [if_neg (by omega), if_pos hhere.2]
      exact ⟨by omega, rfl⟩
    · obtain ⟨hstart, hcontains⟩ := ih hlater hthere
      rw [if_neg (by omega), if_neg (by omega)]
      exact ⟨by omega, hcontains⟩

end CodeRanges

/-- The first `count` multiples of `stride`, as a geometric sum of powers of two. -/
def multiplesBits (stride count : Nat) : Nat :=
  (2 ^ (stride * count) - 1) / (2 ^ stride - 1)

/-- The bits at multiples of a stride are set, as far as the count goes. -/
theorem testBit_multiplesBits {stride count k : Nat} (hstride : 0 < stride)
    (hk : k < count) : (multiplesBits stride count).testBit (stride * k) = true := by
  induction count with
  | zero => cases hk
  | succ count ih =>
    have hpos : 0 < 2 ^ stride - 1 := Nat.sub_pos_of_lt (Nat.one_lt_two_pow hstride.ne')
    have hsum : multiplesBits stride (count + 1) =
        2 ^ (stride * count) + multiplesBits stride count := by
      have hpow : 2 ^ (stride * (count + 1)) - 1 =
          (2 ^ (stride * count) - 1) + 2 ^ (stride * count) * (2 ^ stride - 1) := by
        have hone : 1 ≤ 2 ^ (stride * count) := Nat.one_le_two_pow
        rw [Nat.mul_succ, pow_add, Nat.mul_sub_one]
        have hle : 2 ^ (stride * count) ≤ 2 ^ (stride * count) * 2 ^ stride :=
          Nat.le_mul_of_pos_right _ (by positivity)
        omega
      rw [multiplesBits, hpow, Nat.add_mul_div_right _ _ hpos, Nat.add_comm,
        multiplesBits]
    rw [hsum]
    rcases Nat.lt_succ_iff_lt_or_eq.mp hk with hk | rfl
    · rw [Nat.testBit_two_pow_add_gt (Nat.mul_lt_mul_of_pos_left hk hstride), ih hk]
    · -- The sum so far is smaller than the power that is added.
      have hlt : multiplesBits stride k < 2 ^ (stride * k) :=
        Nat.lt_of_le_of_lt (Nat.div_le_self ..) (Nat.sub_lt (by positivity) Nat.one_pos)
      rw [Nat.testBit_two_pow_add_eq, Nat.testBit_lt_two_pow hlt]
      rfl

namespace CaseRun

variable {r : CaseRun} {runs : List CaseRun} {n m : Nat}

/-- How far the letters of a run are from its first one. -/
def offsetBits (r : CaseRun) : Nat :=
  multiplesBits r.stride ((r.last - r.first) / r.stride + 1)

/-- A counterpart in a run lies as far behind the first target as its letter lies behind
the first letter, and the distance is among those of the run. -/
theorem exists_offset_of_counterpart? (hstride : 0 < r.stride)
    (h : r.counterpart? n = some m) :
    ∃ k, r.offsetBits.testBit k = true ∧ r.first + k = n ∧ r.target + k = m := by
  rw [counterpart?, Option.ite_none_right_eq_some, Option.some_inj] at h
  obtain ⟨⟨hfirst, hlast, hmod⟩, hm⟩ := h
  obtain ⟨k, hk⟩ := Nat.dvd_of_mod_eq_zero hmod
  refine ⟨n - r.first, ?_, by omega, hm⟩
  have hle : k ≤ (r.last - r.first) / r.stride := by
    rw [Nat.le_div_iff_mul_le hstride, Nat.mul_comm, ← hk]
    omega
  rw [hk]
  exact testBit_multiplesBits hstride (Nat.lt_succ_of_le hle)

/-- The letters of some runs. -/
def letterBits (runs : List CaseRun) : Nat :=
  unionBits (fun r => r.offsetBits <<< r.first) runs

/-- The counterparts of the letters of some runs. -/
def targetBits (runs : List CaseRun) : Nat :=
  unionBits (fun r => r.offsetBits <<< r.target) runs

/-- A letter with a counterpart is in the set of letters of the runs, and the
counterpart is in the set of targets.  The comparison of these sets is a single
computation. -/
theorem testBit_of_counterpart? (hr : r ∈ runs) (hstride : 0 < r.stride)
    (h : r.counterpart? n = some m) :
    (letterBits runs).testBit n = true ∧ (targetBits runs).testBit m = true := by
  obtain ⟨k, hk, rfl, rfl⟩ := exists_offset_of_counterpart? hstride h
  have hshift : ∀ start, (r.offsetBits <<< start).testBit (start + k) = true := by
    intro start
    rw [Nat.testBit_shiftLeft, Nat.add_sub_cancel_left, hk]
    simp
  exact ⟨testBit_unionBits.mpr ⟨r, hr, hshift r.first⟩,
    testBit_unionBits.mpr ⟨r, hr, hshift r.target⟩⟩

end CaseRun

/-! ### The tables -/

/-- The first character of what a letter becomes in upper case, whatever follows it. -/
def letterRuns : List CaseRun :=
  upperRuns ++ upperExpansions.map fun e => ⟨e.1, e.1, 1, e.2.headD e.1⟩

variable {c : Char} {n m : Nat} {r : CaseRun}

/-- What is checked of the tables as a whole.  All letters have alphabetic counterparts,
and no counterpart has another one.  The ranges of the alphabetic characters are in
order, and leave out the surrogates. -/
theorem tables_checked :
    (∀ r ∈ letterRuns, 0 < r.stride) ∧
      CaseRun.targetBits letterRuns &&& alphabeticRanges.bits =
        CaseRun.targetBits letterRuns ∧
      CaseRun.targetBits letterRuns &&& CaseRun.letterBits letterRuns = 0 ∧
      alphabeticRanges.ascends 0 = true ∧
      (∀ r ∈ alphabeticRanges, r.2 < 0xD800 ∨ 0xDFFF < r.1 ∧ r.2 < 0x110000) ∧
      ∀ e ∈ upperExpansions, e.2 ≠ [] := by
  decide +kernel

/-- The runs have a positive stride, which a computation over the table tells. -/
theorem stride_pos (hr : r ∈ letterRuns) : 0 < r.stride :=
  tables_checked.1 r hr

/-- A counterpart is alphabetic, by the comparison of the targets with the table of
letters. -/
theorem contains_of_counterpart? (hr : r ∈ letterRuns) (h : r.counterpart? n = some m) :
    alphabeticRanges.contains m = true := by
  obtain ⟨-, hsubset, -, hascends, -, -⟩ := tables_checked
  have htarget := (CaseRun.testBit_of_counterpart? hr (stride_pos hr) h).2
  rw [← hsubset, Nat.testBit_and, Bool.and_eq_true] at htarget
  exact (CodeRanges.contains_of_ascends hascends (CodeRanges.testBit_bits.mp htarget.2)).2

/-- A counterpart has no counterpart: the targets have nothing in common with the
letters of the runs.  Raising twice is therefore raising once, as far as first
characters go. -/
theorem counterpart?_eq_none {s : CaseRun} (hr : r ∈ letterRuns)
    (h : r.counterpart? n = some m) (hs : s ∈ letterRuns) : s.counterpart? m = none := by
  obtain ⟨-, -, hapart, -, -, -⟩ := tables_checked
  cases hm : s.counterpart? m with
  | none => rfl
  | some k =>
    have hboth : (CaseRun.targetBits letterRuns &&& CaseRun.letterBits letterRuns).testBit
        m = true := by
      rw [Nat.testBit_and, (CaseRun.testBit_of_counterpart? hr (stride_pos hr) h).2,
        (CaseRun.testBit_of_counterpart? hs (stride_pos hs) hm).1]
      rfl
    rw [hapart, Nat.zero_testBit] at hboth
    cases hboth

/-- Code points of alphabetic characters are those of characters. -/
theorem isAlphabetic_ofNat (h : alphabeticRanges.contains n = true) :
    isAlphabetic (Char.ofNat n) = true ∧ (Char.ofNat n).toNat = n := by
  have hvalid : n.isValidChar := by
    obtain ⟨-, -, -, -, hranges, -⟩ := tables_checked
    obtain ⟨r, hr, hn⟩ := CodeRanges.exists_mem_of_contains h
    have hrange := hranges r hr
    rw [Nat.isValidChar]
    omega
  have hcode : (Char.ofNat n).toNat = n := by
    rw [Char.ofNat, dif_pos hvalid]
    rfl
  exact ⟨by rw [isAlphabetic, hcode, h], hcode⟩

/-- What a character becomes is found in a run or among the expansions, or the character
is left alone. -/
theorem mapCase_cases (runs : List CaseRun)
    (expansions : List (Nat × List Nat)) (c : Char) :
    (∃ r ∈ runs, ∃ n, r.counterpart? c.toNat = some n ∧
      mapCase runs expansions c = [Char.ofNat n]) ∨
      (∃ e ∈ expansions, e.1 = c.toNat ∧ mapCase runs expansions c = e.2.map Char.ofNat) ∨
      mapCase runs expansions c = [c] := by
  rw [mapCase]
  cases hrun : runs.findSome? (·.counterpart? c.toNat) with
  | some n =>
    obtain ⟨r, hr, hn⟩ := List.exists_of_findSome?_eq_some hrun
    exact .inl ⟨r, hr, n, hn, rfl⟩
  | none =>
    cases hlookup : expansions.lookup c.toNat with
    | none => exact .inr (.inr rfl)
    | some ns =>
      obtain ⟨before, after, hsplit, -⟩ := List.lookup_eq_some_iff.mp hlookup
      exact .inr (.inl ⟨(c.toNat, ns), by simp [hsplit], rfl, rfl⟩)

/-- What a character becomes in upper case is looked up in the runs. -/
theorem upperChar_cases (c : Char) :
    upperChar c = [c] ∨
      ∃ r ∈ letterRuns, ∃ n t, r.counterpart? c.toNat = some n ∧
        upperChar c = Char.ofNat n :: t := by
  rcases mapCase_cases upperRuns upperExpansions c
    with ⟨r, hr, n, hn, hupper⟩ | ⟨e, he, hkey, hupper⟩ | hself
  · exact .inr ⟨r, List.mem_append_left _ hr, n, [], hn, hupper⟩
  · obtain ⟨-, -, -, -, -, hnonempty⟩ := tables_checked
    obtain ⟨n, ns, hns⟩ := List.exists_cons_of_ne_nil (hnonempty e he)
    rw [hns] at hupper
    refine .inr ⟨_, List.mem_append_right _ (List.mem_map_of_mem he), n,
      ns.map Char.ofNat, ?_, hupper⟩
    simp [CaseRun.counterpart?, hkey, hns]
  · exact .inl hself

/-- A character that no run holds is left alone. -/
theorem upperChar_eq_self (h : ∀ r ∈ letterRuns, r.counterpart? c.toNat = none) :
    upperChar c = [c] := by
  have hruns : upperRuns.findSome? (·.counterpart? c.toNat) = none :=
    List.findSome?_eq_none_iff.mpr fun r hr => h r (List.mem_append_left _ hr)
  have hexpansions : upperExpansions.lookup c.toNat = none := by
    refine List.lookup_eq_none_iff.mpr fun e he => ?_
    have hnone := h _ (List.mem_append_right _ (List.mem_map_of_mem he))
    rw [CaseRun.counterpart?, ite_eq_right_iff] at hnone
    rw [bne_iff_ne]
    intro hkey
    simp [hkey] at hnone
  rw [upperChar, mapCase, hruns, hexpansions]

/-- **The first character in upper case** is alphabetic, unless nothing changes, and
stays as it is in upper case. -/
theorem exists_upperChar_eq_cons (c : Char) :
    ∃ x t, upperChar c = x :: t ∧ (x = c ∨ isAlphabetic x = true) ∧
      upperChar x = [x] := by
  rcases upperChar_cases c with hself | ⟨r, hr, n, t, hn, hupper⟩
  · exact ⟨c, [], hself, .inl rfl, hself⟩
  · obtain ⟨halphabetic, hcode⟩ := isAlphabetic_ofNat (contains_of_counterpart? hr hn)
    refine ⟨Char.ofNat n, t, hupper, .inr halphabetic, upperChar_eq_self fun s hs => ?_⟩
    rw [hcode]
    exact counterpart?_eq_none hr hn hs

end StrategyDialect
