import Mathlib
import StrategyDialect.Pattern.Basic

/-!
# What a pattern reads

`Pattern.Matches` relates two positions of a text.  Most arguments are about the
characters between the two, so this module restates the relation through `Cursor.Reads`:
the position `d` is the position `c` after a stretch `u` has been read.  There is one
equivalence for each constructor and for each of the derived patterns (`literal`,
`run1`, `sequence`, `choice`, `star`), and none of the later modules takes a derivation
of `Matches` apart by itself.

## Main statements

* `Pattern.Matches.exists_reads`: a match is a stretch that is read
* `Pattern.matches_run_iff`, `Pattern.matches_literal_iff`, `Pattern.matches_seq_iff`,
  …: the patterns one by one
* `Pattern.matches_star_iff`: the rounds of a repetition that read nothing can be left
  out
* `Pattern.matches_star_iff_repeats`: a repetition of what is known by its stretches
-/

namespace StrategyDialect

namespace Cursor

/-- Reading the stretch `u` leads from `c` to `d`. -/
structure Reads (c : Cursor) (u : Text) (d : Cursor) : Prop where
  rest_eq : c.rest = u ++ d.rest
  before_eq : d.before = u.reverse ++ c.before

variable {c d e : Cursor} {u v : Text}

/-- A position behind a stretch, in the form in which positions are given by what is
before and behind them. -/
theorem reads_mk (b u r : Text) : Reads ⟨b, u ++ r⟩ u ⟨u.reverse ++ b, r⟩ :=
  ⟨rfl, rfl⟩

/-- Between two given positions there is just one stretch. -/
theorem reads_between_iff {b u v r : Text} :
    Reads ⟨b, u ++ r⟩ v ⟨u.reverse ++ b, r⟩ ↔ v = u := by
  constructor
  · intro h
    exact (List.append_cancel_right h.rest_eq).symm
  · rintro rfl
    exact reads_mk b v r

@[simp] theorem reads_nil_iff : c.Reads [] d ↔ d = c := by
  constructor
  · rintro ⟨hrest, hbefore⟩
    cases c
    cases d
    simp_all
  · rintro rfl
    exact ⟨rfl, rfl⟩

/-- Stretches that follow each other are read as one. -/
theorem Reads.trans (h : c.Reads u d) (h' : d.Reads v e) : c.Reads (u ++ v) e := by
  refine ⟨?_, ?_⟩
  · rw [h.rest_eq, h'.rest_eq, List.append_assoc]
  · rw [h'.before_eq, h.before_eq, List.reverse_append, List.append_assoc]

/-- Reading two stretches is reading the first and then the second. -/
theorem reads_append_iff : c.Reads (u ++ v) e ↔ ∃ d, c.Reads u d ∧ d.Reads v e := by
  constructor
  · rintro ⟨hrest, hbefore⟩
    refine ⟨⟨u.reverse ++ c.before, v ++ e.rest⟩, ⟨?_, rfl⟩, ⟨rfl, ?_⟩⟩
    · rw [hrest, List.append_assoc]
    · rw [hbefore, List.reverse_append, List.append_assoc]
  · rintro ⟨d, h, h'⟩
    exact h.trans h'

/-- A position is determined by the one before it and the stretch between the two. -/
theorem Reads.eq (h : c.Reads u d) (h' : c.Reads u e) : d = e := by
  have hrest : d.rest = e.rest :=
    List.append_cancel_left (h.rest_eq.symm.trans h'.rest_eq)
  have hbefore : d.before = e.before := h.before_eq.trans h'.before_eq.symm
  cases d
  cases e
  simp_all

/-- At the end of a text nothing is read. -/
theorem reads_end_iff {b : Text} : Reads ⟨b, []⟩ u d ↔ u = [] ∧ d = ⟨b, []⟩ := by
  constructor
  · intro h
    obtain ⟨rfl, -⟩ := List.append_eq_nil_iff.mp h.rest_eq.symm
    exact ⟨rfl, reads_nil_iff.mp h⟩
  · rintro ⟨rfl, rfl⟩
    exact reads_nil_iff.mpr rfl

/-- Before a character, either nothing is read or the character is read first. -/
theorem reads_cons_iff {b r : Text} {x : Char} :
    Reads ⟨b, x :: r⟩ u d ↔
      (u = [] ∧ d = ⟨b, x :: r⟩) ∨ ∃ v, u = x :: v ∧ Reads ⟨x :: b, r⟩ v d := by
  constructor
  · intro h
    cases u with
    | nil => exact Or.inl ⟨rfl, reads_nil_iff.mp h⟩
    | cons y v =>
      obtain ⟨e, hy, hrest⟩ := reads_append_iff (u := [y]).mp h
      obtain ⟨rfl, -⟩ : x = y ∧ r = e.rest := by simpa using hy.rest_eq
      obtain rfl := hy.eq (reads_mk b [x] r)
      exact Or.inr ⟨v, rfl, hrest⟩
  · rintro (⟨rfl, rfl⟩ | ⟨v, rfl, hrest⟩)
    · exact reads_nil_iff.mpr rfl
    · exact (reads_mk b [x] r).trans hrest

/-- Reading does not leave the text: both positions are positions of one text. -/
theorem Reads.text_eq (h : c.Reads u d) : d.text = c.text := by
  rw [text, text, h.before_eq, h.rest_eq]
  simp

/-- A position is as far behind another one as there are characters between them. -/
theorem Reads.offset_eq (h : c.Reads u d) : d.offset = c.offset + u.length := by
  rw [offset, offset, h.before_eq]
  simp [Nat.add_comm]

/-- In particular, reading goes forward. -/
theorem Reads.offset_le (h : c.Reads u d) : c.offset ≤ d.offset := by
  rw [h.offset_eq]
  exact Nat.le_add_right _ _

/-- The last character read stands right before the position that is reached. -/
theorem Reads.head?_before (h : c.Reads (u ++ v) d) (hne : v ≠ []) :
    d.before.head? = v.getLast? := by
  rw [h.before_eq, List.reverse_append, List.append_assoc, List.head?_append,
    List.head?_reverse]
  cases hv : v.getLast? with
  | none => exact absurd (List.getLast?_eq_none_iff.mp hv) hne
  | some x => rfl

/-- The stretch that was read, recovered from the two positions. -/
theorem Reads.textTo_eq (h : c.Reads u d) : c.textTo d = u := by
  rw [textTo, h.offset_eq, h.rest_eq]
  simp

/-- A position that is reached through nothing but itself is reached without reading. -/
theorem Reads.eq_nil_of_cycle (h : c.Reads u d) (h' : d.Reads v c) : u = [] := by
  have hlength := h'.offset_eq
  rw [h.offset_eq] at hlength
  exact List.length_eq_zero_iff.mp (by omega)

/-- The text of a position is what stands before it, which is kept backwards, and what
stands behind. -/
theorem text_eq_append (c : Cursor) : c.text = c.before.reverse ++ c.rest :=
  rfl

end Cursor

namespace CharClass

@[simp] theorem contains_single {c d : Char} : (single c).contains d = true ↔ d = c := by
  simp [contains, eq_comm]

@[simp] theorem contains_none (c : Char) : none.contains c = false := by
  simp [none, contains]

@[simp] theorem contains_oneOf {cs : Text} {c : Char} :
    (oneOf cs).contains c = true ↔ c ∈ cs := by
  induction cs with
  | nil => simp [oneOf]
  | cons d cs ih =>
    have hstep : oneOf (d :: cs) = union (single d) (oneOf cs) := rfl
    rw [hstep, contains, Bool.or_eq_true, contains_single, ih, List.mem_cons]

@[simp] theorem contains_noneOf {cs : Text} {c : Char} :
    (noneOf cs).contains c = true ↔ c ∉ cs := by
  rw [noneOf, contains, Bool.not_eq_true', ← Bool.not_eq_true, contains_oneOf]

end CharClass

namespace Pattern

open Cursor

variable {Label : Type} {p q : Pattern Label} {c d : Cursor}

/-- A match is a stretch that is read.  The induction follows the constructors of
`Pattern.Matches`, and the stretches of the parts are put together. -/
theorem Matches.exists_reads (h : Matches p c d) : ∃ u, c.Reads u d := by
  induction h with
  | empty c => exact ⟨[], by simp⟩
  | @one k x b r _ => exact ⟨[x], reads_mk b [x] r⟩
  | edge c _ => exact ⟨[], by simp⟩
  | runStop c => exact ⟨[], by simp⟩
  | @runNext k x b r d _ _ ih =>
    obtain ⟨u, hu⟩ := ih
    exact ⟨[x] ++ u, (reads_mk b [x] r).trans hu⟩
  | seq _ _ ih ih' =>
    obtain ⟨u, hu⟩ := ih
    obtain ⟨v, hv⟩ := ih'
    exact ⟨u ++ v, hu.trans hv⟩
  | altLeft _ ih => exact ih
  | altRight _ ih => exact ih
  | starStop c => exact ⟨[], by simp⟩
  | starNext _ _ ih ih' =>
    obtain ⟨u, hu⟩ := ih
    obtain ⟨v, hv⟩ := ih'
    exact ⟨u ++ v, hu.trans hv⟩
  | group _ ih => exact ih

/-- A match stays in its text. -/
theorem Matches.text_eq (h : Matches p c d) : d.text = c.text := by
  obtain ⟨u, hu⟩ := h.exists_reads
  exact hu.text_eq

/-- A match ends where it starts, or later. -/
theorem Matches.offset_le (h : Matches p c d) : c.offset ≤ d.offset := by
  obtain ⟨u, hu⟩ := h.exists_reads
  exact hu.offset_le

/-! ### The constructors -/

@[simp] theorem matches_empty_iff : Matches (empty : Pattern Label) c d ↔ d = c := by
  constructor
  · rintro ⟨⟩
    rfl
  · rintro rfl
    exact .empty _

/-- A class of characters reads one character of the class. -/
theorem matches_one_iff {k : CharClass} :
    Matches (one k : Pattern Label) c d ↔ ∃ x, k.contains x = true ∧ c.Reads [x] d := by
  constructor
  · intro h
    cases h with
    | @one _ x b r hx => exact ⟨x, hx, reads_mk b [x] r⟩
  · rintro ⟨x, hx, hrest, hbefore⟩
    obtain ⟨b, s⟩ := c
    obtain ⟨b', r⟩ := d
    obtain rfl : s = x :: r := by simpa using hrest
    obtain rfl : b' = x :: b := by simpa using hbefore
    exact .one b r hx

@[simp] theorem matches_edge_iff {e : Edge} :
    Matches (edge e : Pattern Label) c d ↔ d = c ∧ c.meets e = true := by
  constructor
  · intro h
    cases h with
    | edge _ he => exact ⟨rfl, he⟩
  · rintro ⟨rfl, he⟩
    exact .edge _ he

/-- Two patterns in a row meet at a position in between. -/
theorem matches_seq_iff :
    Matches (seq p q) c d ↔ ∃ e, Matches p c e ∧ Matches q e d := by
  constructor
  · intro h
    cases h with
    | seq first second => exact ⟨_, first, second⟩
  · rintro ⟨e, first, second⟩
    exact .seq first second

/-- An alternative matches by one of its sides.  Which one is preferred is a matter of
the search and not of matching. -/
theorem matches_alt_iff : Matches (alt p q) c d ↔ Matches p c d ∨ Matches q c d := by
  constructor
  · intro h
    cases h with
    | altLeft h => exact Or.inl h
    | altRight h => exact Or.inr h
  · rintro (h | h)
    · exact .altLeft h
    · exact .altRight h

@[simp] theorem matches_group_iff {l : Label} :
    Matches (group l p) c d ↔ Matches p c d := by
  constructor
  · intro h
    cases h with
    | group h => exact h
  · exact .group

/-- A run reads any number of characters of its class. -/
theorem matches_run_iff {k : CharClass} :
    Matches (run k : Pattern Label) c d ↔
      ∃ u, (∀ x ∈ u, k.contains x = true) ∧ c.Reads u d := by
  constructor
  · intro h
    generalize hp : (run k : Pattern Label) = p at h
    induction h with
    | runStop c => exact ⟨[], by simp, by simp⟩
    | @runNext k' x b r d hx _ ih =>
      obtain rfl : k = k' := by simpa using hp
      obtain ⟨u, hu, hreads⟩ := ih rfl
      refine ⟨[x] ++ u, ?_, (reads_mk b [x] r).trans hreads⟩
      simpa using ⟨hx, hu⟩
    | _ => cases hp
  · rintro ⟨u, hu, hreads⟩
    induction u generalizing c with
    | nil =>
      obtain rfl := reads_nil_iff.mp hreads
      exact .runStop _
    | cons x u ih =>
      obtain ⟨e, hx, hrest⟩ := reads_append_iff (u := [x]).mp hreads
      have hone : Matches (one k : Pattern Label) c e :=
        matches_one_iff.mpr ⟨x, hu x (by simp), hx⟩
      have hmore := ih (fun y hy => hu y (by simp [hy])) hrest
      cases hone with
      | one b r hk => exact .runNext hk hmore

/-- The rounds of a repetition that read nothing can be left out. -/
theorem matches_star_iff :
    Matches (star p) c d ↔ d = c ∨ ∃ e, Matches p c e ∧ e ≠ c ∧ Matches (star p) e d := by
  constructor
  · intro h
    generalize hp : star p = p' at h
    induction h with
    | starStop c => exact Or.inl rfl
    | @starNext p' c e d first more _ ih =>
      obtain rfl : p = p' := by simpa using hp
      by_cases he : e = c
      · subst he
        exact ih rfl
      · exact Or.inr ⟨e, first, he, more⟩
    | _ => cases hp
  · rintro (rfl | ⟨e, first, -, more⟩)
    · exact .starStop _
    · exact .starNext first more

/-- Stretches with a property, one after the other. -/
inductive Repeats (P : Text → Prop) : Text → Prop where
  | nil : Repeats P []
  | cons {u v : Text} (h : P u) (more : Repeats P v) : Repeats P (u ++ v)

/-- **A repetition of a pattern** that is known by its stretches reads any number of
these. -/
theorem matches_star_iff_repeats {P : Text → Prop}
    (hp : ∀ {c d : Cursor}, Matches p c d ↔ ∃ u, P u ∧ c.Reads u d) :
    Matches (star p) c d ↔ ∃ u, Repeats P u ∧ c.Reads u d := by
  constructor
  · intro h
    generalize hp' : star p = p' at h
    induction h with
    | starStop c => exact ⟨[], .nil, reads_nil_iff.mpr rfl⟩
    | @starNext p' c d e first more _ ih =>
      obtain rfl : p = p' := by simpa using hp'
      obtain ⟨u, hu, hreads⟩ := hp.mp first
      obtain ⟨v, hv, hreads'⟩ := ih rfl
      exact ⟨u ++ v, .cons hu hv, hreads.trans hreads'⟩
    | _ => cases hp'
  · rintro ⟨u, hu, hreads⟩
    induction hu generalizing c with
    | nil =>
      obtain rfl := reads_nil_iff.mp hreads
      exact .starStop _
    | cons h _ ih =>
      obtain ⟨e, hfirst, hrest⟩ := reads_append_iff.mp hreads
      exact .starNext (hp.mpr ⟨_, h, hfirst⟩) (ih hrest)

/-! ### Derived patterns -/

/-- A literal reads its own characters, one pattern for each of them. -/
@[simp] theorem matches_literal_iff {t : Text} :
    Matches (literal t : Pattern Label) c d ↔ c.Reads t d := by
  induction t generalizing c with
  | nil => simp [literal]
  | cons x t ih =>
    have hstep : (literal (x :: t) : Pattern Label) = seq (one (.single x)) (literal t) :=
      rfl
    rw [hstep, matches_seq_iff, show x :: t = [x] ++ t from rfl, reads_append_iff]
    simp only [matches_one_iff, CharClass.contains_single, exists_eq_left, ih]

@[simp] theorem matches_char_iff {x : Char} :
    Matches (char x : Pattern Label) c d ↔ c.Reads [x] d := by
  simp [char, matches_one_iff]

/-- A run of at least one character.  It is a class followed by a run, so the first
character of the stretch is taken off and put back. -/
theorem matches_run1_iff {k : CharClass} :
    Matches (run1 k : Pattern Label) c d ↔
      ∃ u, u ≠ [] ∧ (∀ x ∈ u, k.contains x = true) ∧ c.Reads u d := by
  rw [run1, matches_seq_iff]
  constructor
  · rintro ⟨e, hone, hrun⟩
    obtain ⟨x, hx, hreads⟩ := matches_one_iff.mp hone
    obtain ⟨u, hu, hreads'⟩ := matches_run_iff.mp hrun
    exact ⟨[x] ++ u, by simp, by simpa using ⟨hx, hu⟩, hreads.trans hreads'⟩
  · rintro ⟨u, hne, hu, hreads⟩
    obtain ⟨x, u, rfl⟩ := List.exists_cons_of_ne_nil hne
    obtain ⟨e, hx, hrest⟩ := reads_append_iff (u := [x]).mp hreads
    refine ⟨e, matches_one_iff.mpr ⟨x, hu x (by simp), hx⟩,
      matches_run_iff.mpr ⟨u, ?_, hrest⟩⟩
    exact fun y hy => hu y (by simp [hy])

/-- Blanks that may be missing read any stretch of blanks, the empty one included. -/
theorem matches_blanks_iff :
    Matches (blanks : Pattern Label) c d ↔
      ∃ w, (∀ x ∈ w, isBlank x = true) ∧ c.Reads w d :=
  matches_run_iff

/-- Blanks that have to be there read a stretch of blanks that is not empty. -/
theorem matches_blanks1_iff :
    Matches (blanks1 : Pattern Label) c d ↔
      ∃ w, w ≠ [] ∧ (∀ x ∈ w, isBlank x = true) ∧ c.Reads w d :=
  matches_run1_iff

@[simp] theorem matches_boundary_iff :
    Matches (boundary : Pattern Label) c d ↔ d = c ∧ c.meets .wordBoundary = true :=
  matches_edge_iff

@[simp] theorem matches_sequence_nil_iff :
    Matches (sequence [] : Pattern Label) c d ↔ d = c :=
  matches_empty_iff

/-- A sequence is matched item by item: its first item up to some position, and the rest
from there.  The proofs about the patterns of a dialect unfold a sequence with this. -/
theorem matches_sequence_cons_iff {ps : List (Pattern Label)} :
    Matches (sequence (p :: ps)) c d ↔ ∃ e, Matches p c e ∧ Matches (sequence ps) e d :=
  matches_seq_iff

/-- A sequence may be cut in two at any place, which is how a shared part of two
patterns is dealt with once. -/
theorem matches_sequence_append_iff {ps qs : List (Pattern Label)} :
    Matches (sequence (ps ++ qs)) c d ↔
      ∃ e, Matches (sequence ps) c e ∧ Matches (sequence qs) e d := by
  induction ps generalizing c with
  | nil => simp
  | cons p ps ih =>
    rw [List.cons_append, matches_sequence_cons_iff]
    simp only [matches_sequence_cons_iff, ih]
    constructor
    · rintro ⟨e, he, f, hf, hd⟩
      exact ⟨f, ⟨e, he, hf⟩, hd⟩
    · rintro ⟨f, ⟨e, he, hf⟩, hd⟩
      exact ⟨e, he, f, hf, hd⟩

/-- What is optional is matched, or nothing is read. -/
theorem matches_optional_iff :
    Matches (optional p) c d ↔ Matches p c d ∨ d = c := by
  rw [optional, matches_alt_iff, matches_empty_iff]

/-- A choice is matched by one of its patterns. -/
theorem matches_choice_iff {ps : List (Pattern Label)} :
    Matches (choice ps) c d ↔ ∃ p ∈ ps, Matches p c d := by
  induction ps with
  | nil => simp [choice, matches_one_iff]
  | cons p ps ih =>
    cases ps with
    | nil => simp [choice]
    | cons q ps =>
      have hstep : choice (p :: q :: ps) = alt p (choice (q :: ps)) := rfl
      rw [hstep, matches_alt_iff, ih]
      simp

end Pattern

end StrategyDialect
