import StrategyDialect.Pattern.Occurrence
import StrategyDialect.Proofs.Pattern.Embedding

/-!
# One-pass occurrence and matches

`Pattern.occursIn` reads a text once and keeps the patterns that have still to match.
Main statement: it answers whether some stretch of the text matches
(`Pattern.occursIn_iff`).

The two halves of a step are the fundamental facts about derivatives.  A pattern matches
the empty stretch at a position if `matchesEmpty` says so, and what it matches beyond
the next character is what its derivatives match behind that character.  For a
repetition the second half needs a first round that reads something;
`Pattern.matches_star_iff` provides it.
-/

namespace StrategyDialect

namespace Pattern

open Cursor

variable {Label : Type}

/-- A pattern matches nothing, that is, the empty stretch, where `matchesEmpty` says
so. -/
theorem matchesEmpty_iff {p : Pattern Label} {c : Cursor} :
    p.matchesEmpty c.before.head? c.rest.head? = true ↔ Matches p c c := by
  induction p with
  | empty => simp [matchesEmpty]
  | one k =>
    constructor
    · intro h
      cases h
    · intro h
      obtain ⟨x, -, hreads⟩ := matches_one_iff.mp h
      cases hreads.eq_nil_of_cycle hreads
  | edge e => simp [matchesEmpty, meets]
  | run k => simpa [matchesEmpty] using Matches.runStop c
  | seq p q ihp ihq =>
    rw [matchesEmpty, Bool.and_eq_true, ihp, ihq]
    constructor
    · rintro ⟨hp, hq⟩
      exact .seq hp hq
    · intro h
      obtain ⟨d, hp, hq⟩ := matches_seq_iff.mp h
      obtain ⟨u, hu⟩ := hp.exists_reads
      obtain ⟨v, hv⟩ := hq.exists_reads
      obtain rfl := hu.eq_nil_of_cycle hv
      obtain rfl := reads_nil_iff.mp hu
      exact ⟨hp, hq⟩
  | alt p q ihp ihq => rw [matchesEmpty, Bool.or_eq_true, ihp, ihq, matches_alt_iff]
  | star p _ => simpa [matchesEmpty] using Matches.starStop c
  | group l p ih => rw [matchesEmpty, ih, matches_group_iff]

/-! ## Derivatives -/

variable [DecidableEq Label]

/-- An empty pattern in front is dropped, which does not change what is matched.
Without this the patterns that are kept would grow with every character. -/
theorem matches_andThen_iff {p q : Pattern Label} {c d : Cursor} :
    Matches (andThen q p) c d ↔ ∃ e, Matches p c e ∧ Matches q e d := by
  rw [andThen]
  split
  next h => simp [h]
  next => exact matches_seq_iff

/-- What a derivative matches behind a character, the pattern matches from before the
character. -/
theorem matches_of_mem_derivatives {p q : Pattern Label} {x : Char}
    {b r : Text} {d : Cursor} (hq : q ∈ p.derivatives b.head? x)
    (h : Matches q ⟨x :: b, r⟩ d) : Matches p ⟨b, x :: r⟩ d := by
  induction p generalizing q d with
  | empty | edge => cases hq
  | one k =>
    by_cases hx : k.contains x
    · obtain rfl : q = empty := by simpa [derivatives, hx] using hq
      obtain rfl := matches_empty_iff.mp h
      exact .one b r hx
    · simp [derivatives, hx] at hq
  | run k =>
    by_cases hx : k.contains x
    · obtain rfl : q = run k := by simpa [derivatives, hx] using hq
      exact .runNext hx h
    · simp [derivatives, hx] at hq
  | seq p₁ p₂ ih₁ ih₂ =>
    rw [derivatives, List.mem_append, List.mem_map] at hq
    rcases hq with ⟨q', hq', rfl⟩ | hq
    · obtain ⟨e, hfirst, hsecond⟩ := matches_andThen_iff.mp h
      exact .seq (ih₁ hq' hfirst) hsecond
    · split at hq
      next hempty =>
        have hfirst : Matches p₁ ⟨b, x :: r⟩ ⟨b, x :: r⟩ := matchesEmpty_iff.mp hempty
        exact .seq hfirst (ih₂ hq h)
      next => cases hq
  | alt p₁ p₂ ih₁ ih₂ =>
    rcases List.mem_append.mp hq with hq | hq
    · exact .altLeft (ih₁ hq h)
    · exact .altRight (ih₂ hq h)
  | star p ih =>
    obtain ⟨q', hq', rfl⟩ := List.mem_map.mp hq
    obtain ⟨e, hfirst, hmore⟩ := matches_andThen_iff.mp h
    exact .starNext (ih hq' hfirst) hmore
  | group l p ih => exact .group (ih hq h)

/-- What a pattern matches beyond the next character, one of its derivatives matches
behind it. -/
theorem Matches.exists_mem_derivatives {p : Pattern Label} {x : Char}
    {b r : Text} {d : Cursor} (h : Matches p ⟨b, x :: r⟩ d) (hd : d ≠ ⟨b, x :: r⟩) :
    ∃ q ∈ p.derivatives b.head? x, Matches q ⟨x :: b, r⟩ d := by
  induction p generalizing d with
  | empty => exact absurd (matches_empty_iff.mp h) hd
  | edge e => exact absurd (matches_edge_iff.mp h).1 hd
  | one k =>
    cases h with
    | one b r hx => exact ⟨Pattern.empty, by simp [derivatives, hx], .empty _⟩
  | run k =>
    cases h with
    | runStop => exact absurd rfl hd
    | runNext hx hmore => exact ⟨run k, by simp [derivatives, hx], hmore⟩
  | seq p₁ p₂ ih₁ ih₂ =>
    -- The character is read by the second part if the first part reads nothing.
    obtain ⟨e, hfirst, hsecond⟩ := matches_seq_iff.mp h
    by_cases he : e = ⟨b, x :: r⟩
    · subst he
      obtain ⟨q, hq, hmatch⟩ := ih₂ hsecond hd
      have hempty : p₁.matchesEmpty b.head? (some x) = true := matchesEmpty_iff.mpr hfirst
      exact ⟨q, by simp [derivatives, hempty, hq], hmatch⟩
    · obtain ⟨q, hq, hmatch⟩ := ih₁ hfirst he
      refine ⟨andThen p₂ q, ?_, matches_andThen_iff.mpr ⟨e, hmatch, hsecond⟩⟩
      exact List.mem_append_left _ (List.mem_map_of_mem hq)
  | alt p₁ p₂ ih₁ ih₂ =>
    rcases matches_alt_iff.mp h with h | h
    · obtain ⟨q, hq, hmatch⟩ := ih₁ h hd
      exact ⟨q, List.mem_append_left _ hq, hmatch⟩
    · obtain ⟨q, hq, hmatch⟩ := ih₂ h hd
      exact ⟨q, List.mem_append_right _ hq, hmatch⟩
  | star p ih =>
    rcases matches_star_iff.mp h with rfl | ⟨e, hfirst, he, hmore⟩
    · exact absurd rfl hd
    · obtain ⟨q, hq, hmatch⟩ := ih hfirst he
      exact ⟨andThen (star p) q, List.mem_map_of_mem hq,
        matches_andThen_iff.mpr ⟨e, hmatch, hmore⟩⟩
  | group l p ih => exact ih (matches_group_iff.mp h) hd

/-! ## The pass over a text -/

/-- Leaving out repeated patterns leaves the same patterns. -/
theorem mem_distinct_iff {p : Pattern Label} {ps : List (Pattern Label)} :
    p ∈ distinct ps ↔ p ∈ ps := by
  rw [distinct, List.mem_map]
  constructor
  · rintro ⟨⟨n, q⟩, hmem, rfl⟩
    obtain ⟨q', hq', heq⟩ := List.mem_map.mp (List.mem_eraseDups.mp hmem)
    rw [← (Prod.mk.inj heq).2]
    exact hq'
  · intro h
    exact ⟨(p.size, p), List.mem_eraseDups.mpr (List.mem_map.mpr ⟨p, h, rfl⟩), rfl⟩

omit [DecidableEq Label] in
/-- At the end of the text a pattern matches if it matches the empty stretch there. -/
private theorem exists_matches_end_iff {p : Pattern Label} {b : Text} :
    (∃ d, Matches p ⟨b, []⟩ d) ↔ p.matchesEmpty b.head? none = true := by
  constructor
  · rintro ⟨d, h⟩
    obtain ⟨u, hu⟩ := h.exists_reads
    obtain ⟨-, rfl⟩ := reads_end_iff.mp hu
    exact matchesEmpty_iff.mpr h
  · intro h
    exact ⟨⟨b, []⟩, matchesEmpty_iff.mp h⟩

/-- Before a character a pattern matches if it matches the empty stretch, or if one of
its derivatives matches behind the character.  The two halves of the module come
together here. -/
private theorem exists_matches_cons_iff {p : Pattern Label} {b r : Text} {x : Char} :
    (∃ d, Matches p ⟨b, x :: r⟩ d) ↔
      p.matchesEmpty b.head? (some x) = true ∨
        ∃ q ∈ p.derivatives b.head? x, ∃ d, Matches q ⟨x :: b, r⟩ d := by
  constructor
  · rintro ⟨d, h⟩
    by_cases hd : d = ⟨b, x :: r⟩
    · subst hd
      exact Or.inl (matchesEmpty_iff.mpr h)
    · obtain ⟨q, hq, hmatch⟩ := h.exists_mem_derivatives hd
      exact Or.inr ⟨q, hq, d, hmatch⟩
  · rintro (h | ⟨q, hq, d, h⟩)
    · exact ⟨⟨b, x :: r⟩, matchesEmpty_iff.mp h⟩
    · exact ⟨d, matches_of_mem_derivatives hq h⟩

/-- The invariant of the pass: a pattern in `pending` matches from here on, or `p` does
from here or from a later position. -/
private theorem occursFrom_iff (p : Pattern Label) (pending : List (Pattern Label))
    (b r : Text) : p.occursFrom pending b.head? r = true ↔
      (∃ q ∈ pending, ∃ d, Matches q ⟨b, r⟩ d) ∨ ∃ u c d,
        Reads ⟨b, r⟩ u c ∧ Matches p c d := by
  induction r generalizing pending b with
  | nil =>
    simp only [occursFrom, List.any_eq_true, List.mem_cons, exists_eq_or_imp,
      ← exists_matches_end_iff, reads_end_iff]
    constructor
    · rintro (⟨d, h⟩ | h)
      · exact Or.inr ⟨[], _, d, ⟨rfl, rfl⟩, h⟩
      · exact Or.inl h
    · rintro (h | ⟨u, c, d, ⟨-, rfl⟩, h⟩)
      · exact Or.inr h
      · exact Or.inl ⟨d, h⟩
  | cons x r ih =>
    -- What is pending matches here without reading, or one of its derivatives matches
    -- behind `x`.
    have hnow : ((p :: pending).any fun q => q.matchesEmpty b.head? (some x)) = true ∨
          (∃ q ∈ distinct ((p :: pending).flatMap fun q => q.derivatives b.head? x),
            ∃ d, Matches q ⟨x :: b, r⟩ d) ↔
        ∃ q ∈ p :: pending, ∃ d, Matches q ⟨b, x :: r⟩ d := by
      simp only [exists_matches_cons_iff, List.any_eq_true, mem_distinct_iff,
        List.mem_flatMap]
      constructor
      · rintro (⟨q, hq, h⟩ | ⟨q', ⟨q, hq, hq'⟩, h⟩)
        · exact ⟨q, hq, Or.inl h⟩
        · exact ⟨q, hq, Or.inr ⟨q', hq', h⟩⟩
      · rintro ⟨q, hq, h | ⟨q', hq', h⟩⟩
        · exact Or.inl ⟨q, hq, h⟩
        · exact Or.inr ⟨q', ⟨q, hq, hq'⟩, h⟩
    have hstep :=
      ih (distinct ((p :: pending).flatMap fun q => q.derivatives b.head? x)) (x :: b)
    rw [List.head?_cons] at hstep
    rw [occursFrom, Bool.or_eq_true, hstep, ← or_assoc, hnow]
    simp only [List.mem_cons, exists_eq_or_imp, reads_cons_iff]
    constructor
    · rintro ((⟨d, h⟩ | h) | ⟨u, c, d, hu, h⟩)
      · exact Or.inr ⟨[], _, d, Or.inl ⟨rfl, rfl⟩, h⟩
      · exact Or.inl h
      · exact Or.inr ⟨x :: u, c, d, Or.inr ⟨u, rfl, hu⟩, h⟩
    · rintro (h | ⟨u, c, d, ⟨-, rfl⟩ | ⟨v, -, hv⟩, h⟩)
      · exact Or.inl (Or.inr h)
      · exact Or.inl (Or.inl ⟨d, h⟩)
      · exact Or.inr ⟨v, c, d, hv, h⟩

/-- **A pattern occurs in a text if some stretch of the text matches.** -/
theorem occursIn_iff {p : Pattern Label} {t : Text} :
    p.occursIn t = true ↔ ∃ c d, c.text = t ∧ Matches p c d := by
  have hpass := occursFrom_iff p [] [] t
  rw [List.head?_nil] at hpass
  rw [occursIn, hpass]
  constructor
  · rintro (⟨q, hq, -⟩ | ⟨u, c, d, hu, h⟩)
    · cases hq
    · exact ⟨c, d, hu.text_eq.trans (text_start t), h⟩
  · rintro ⟨c, d, rfl, h⟩
    exact Or.inr ⟨_, c, d, reads_start c, h⟩

/-- The same in terms of the stretch and what stands around it. -/
theorem occursIn_iff_exists_append {p : Pattern Label} {t : Text} :
    p.occursIn t = true ↔ ∃ before u after, t = before ++ u ++ after ∧
      Matches p ⟨before.reverse, u ++ after⟩ ⟨u.reverse ++ before.reverse, after⟩ := by
  rw [occursIn_iff]
  constructor
  · rintro ⟨⟨b, r⟩, ⟨b', r'⟩, rfl, h⟩
    obtain ⟨u, hreads⟩ := h.exists_reads
    obtain ⟨rfl, rfl⟩ : r = u ++ r' ∧ b' = u.reverse ++ b :=
      ⟨hreads.rest_eq, hreads.before_eq⟩
    exact ⟨b.reverse, u, r', by simp [text], by simpa using h⟩
  · rintro ⟨before, u, after, rfl, h⟩
    exact ⟨_, _, by simp [text], h⟩

/-! ## Occurrence in an embedded text -/

variable {p : Pattern Label} {a s b : Text}

/-- What occurs in a text still occurs when the text is embedded. -/
theorem occursIn_embed_of_occursIn (hseams : Seams a b) (hp : p.isRegular = true)
    (h : p.occursIn s = true) : p.occursIn (a ++ s ++ b) = true := by
  obtain ⟨c, d, rfl, hmatch⟩ := occursIn_iff.mp h
  exact occursIn_iff.mpr ⟨_, _, text_widen, (matches_widen_iff hseams hp).mpr hmatch⟩

/-- If no match leaves the embedded text, a pattern occurs in the larger text if it does
in the smaller. -/
theorem occursIn_embed (hseams : Seams a b) (hp : p.isRegular = true)
    (hin : Confined p a s b) : p.occursIn (a ++ s ++ b) = p.occursIn s := by
  rw [Bool.eq_iff_iff]
  constructor
  · intro h
    obtain ⟨c, d, htext, hmatch⟩ := occursIn_iff.mp h
    obtain ⟨c', d', hc', -, -, hmatch'⟩ :=
      (matches_embed_iff hseams hp hin htext).mp hmatch
    exact occursIn_iff.mpr ⟨c', d', hc', hmatch'⟩
  · exact occursIn_embed_of_occursIn hseams hp

end Pattern

end StrategyDialect
