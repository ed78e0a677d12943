import StrategyDialect.Pattern.Match
import StrategyDialect.Proofs.Pattern.Reading

/-!
# The outcomes of a search

The search of `Pattern.first` hands every end that it reaches to the remaining search.
This module lists those ends: `Pattern.outcomes` is the list of all ways in which a
pattern matches from a position, in the order of preference and with the groups that
each of them records.  The search then is nothing but the first outcome that is accepted
(`Pattern.first_eq_findSome?`), and the preferred match at a position is the head of the
list (`Pattern.matchAt_eq`).

With the list at hand the two sides of a search separate.  *Which* stretches a search
can return is said by `Pattern.Matches` (`Pattern.exists_mem_outcomes_iff`); a pattern
without groups leaves the recorded groups alone
(`Pattern.mem_outcomes_iff_of_groupFree`), so that groups have to be followed through
the few labelled parts only.  *Which one* is returned is a matter of the order of the
list, and is of no concern wherever there is but one outcome.

## Main definitions

* `Pattern.outcomes`: the ways of matching from a position, the preferred first
* `Pattern.groupFree`: patterns that record nothing

## Main statements

* `Pattern.first_eq_findSome?`, `Pattern.matchAt_eq`: the search in terms of its
  outcomes
* `Pattern.exists_mem_outcomes_iff`: the ends of the outcomes are those of
  `Pattern.Matches`
* `Pattern.mem_outcomes_sequence_group_iff`: the outcomes of a sequence with one group
  in it
-/

namespace StrategyDialect

namespace Pattern

variable {Label : Type} {α : Type}

/-- An end of a match with the groups recorded on the way. -/
abbrev Outcome (Label : Type) := Cursor × Groups Label

/-- The outcomes of at most one round of a step for each character of `bound`, those
with more rounds first. -/
def rounds (step : Cursor → Groups Label → List (Outcome Label)) :
    (bound : Text) → Cursor → Groups Label → List (Outcome Label)
  | [], c, g => [(c, g)]
  | _ :: bound, c, g =>
    (step c g).flatMap (fun o => rounds step bound o.1 o.2) ++ [(c, g)]

/-- The ways in which a pattern matches from a position, given the groups recorded so
far, in the order of preference. -/
def outcomes : Pattern Label → Cursor → Groups Label → List (Outcome Label)
  | empty, c, g => [(c, g)]
  | one k, c, g =>
    match c.rest with
    | [] => []
    | x :: rest => if k.contains x then [(⟨x :: c.before, rest⟩, g)] else []
  | edge e, c, g => if c.meets e then [(c, g)] else []
  | run k, c, g => (runEnds k c).map (·, g)
  | seq p q, c, g => (p.outcomes c g).flatMap fun o => q.outcomes o.1 o.2
  | alt p q, c, g => p.outcomes c g ++ q.outcomes c g
  | star p, c, g => rounds p.outcomes c.rest c g
  | group l p, c, g => (p.outcomes c g).map fun o => (o.1, (l, c, o.1) :: o.2)

/-! ### The search as a choice among the outcomes -/

/-- The first hit in a list of lists is the first hit of the first list that has one. -/
private theorem findSome?_flatMap {β γ : Type} (l : List α) (f : α → List β)
    (h : β → Option γ) :
    (l.flatMap f).findSome? h = l.findSome? fun a => (f a).findSome? h := by
  induction l with
  | nil => rfl
  | cons a l ih =>
    rw [List.flatMap_cons, List.findSome?_append, ih, List.findSome?_cons]
    cases (f a).findSome? h <;> rfl

/-- What a search for one round finds, a search for several rounds finds as well.  The
bound allows one round for each character, and both sides use it up together. -/
private theorem repeatUpTo_eq_findSome? {search : Search Label α → Search Label α}
    {step : Cursor → Groups Label → List (Outcome Label)}
    (hstep : ∀ (accept : Search Label α) (c : Cursor) (g : Groups Label),
      search accept c g = (step c g).findSome? fun o => accept o.1 o.2)
    (accept : Search Label α) (bound : Text) (c : Cursor) (g : Groups Label) :
    repeatUpTo search accept bound c g = (rounds step bound c g).findSome? fun o =>
      accept o.1 o.2 := by
  induction bound generalizing c g with
  | nil =>
    rw [repeatUpTo, rounds, List.findSome?_cons]
    cases accept c g <;> rfl
  | cons x bound ih =>
    simp only [repeatUpTo, rounds, List.findSome?_append, findSome?_flatMap, hstep, ih,
      List.findSome?_cons, List.findSome?_nil]
    cases (step c g).findSome? fun o => (rounds step bound o.1 o.2).findSome? fun o =>
      accept o.1 o.2 with
    | some found => rfl
    | none => cases accept c g <;> rfl

/-- **The search returns the first outcome that is accepted.** -/
theorem first_eq_findSome? (p : Pattern Label) (accept : Search Label α) (c : Cursor)
    (g : Groups Label) :
    p.first accept c g = (p.outcomes c g).findSome? fun o => accept o.1 o.2 := by
  induction p generalizing accept c g with
  | empty =>
    rw [first, outcomes, List.findSome?_cons]
    cases accept c g <;> rfl
  | one k =>
    obtain ⟨b, r⟩ := c
    cases r with
    | nil => rfl
    | cons x r =>
      simp only [first, outcomes]
      split
      · rw [List.findSome?_cons]
        cases accept ⟨x :: b, r⟩ g <;> rfl
      · rfl
  | edge e =>
    simp only [first, outcomes]
    split
    · rw [List.findSome?_cons]
      cases accept c g <;> rfl
    · rfl
  | run k =>
    rw [first, outcomes, List.findSome?_map]
    rfl
  | seq p q ihp ihq =>
    rw [first, outcomes, ihp, findSome?_flatMap]
    simp only [ihq]
  | alt p q ihp ihq =>
    simp only [first, outcomes, ihp, ihq, List.findSome?_append]
    cases (p.outcomes c g).findSome? fun o => accept o.1 o.2 <;> rfl
  | star p ih =>
    rw [first, outcomes]
    exact repeatUpTo_eq_findSome? ih accept c.rest c g
  | group l p ih =>
    simp only [first, outcomes, ih, List.findSome?_map]
    rfl

/-- The preferred match at a position is the first outcome. -/
theorem matchAt_eq (p : Pattern Label) (c : Cursor) :
    p.matchAt c = (p.outcomes c []).head?.map fun o => ⟨c, o.1, o.2⟩ := by
  rw [matchAt, first_eq_findSome?]
  cases p.outcomes c [] <;> rfl

/-- The outcomes of a sequence are those of its rest, from where the outcomes of its
first item end. -/
theorem outcomes_sequence_cons (p : Pattern Label)
    (ps : List (Pattern Label)) (c : Cursor) (g : Groups Label) :
    (sequence (p :: ps)).outcomes c g =
      (p.outcomes c g).flatMap fun o => (sequence ps).outcomes o.1 o.2 :=
  rfl

/-- The outcomes of two sequences in a row, cut at the place where they meet. -/
theorem outcomes_sequence_append (ps qs : List (Pattern Label)) (c : Cursor)
    (g : Groups Label) : (sequence (ps ++ qs)).outcomes c g =
      ((sequence ps).outcomes c g).flatMap fun o => (sequence qs).outcomes o.1 o.2 := by
  induction ps generalizing c g with
  | nil => simp [sequence, outcomes]
  | cons p ps ih =>
    rw [List.cons_append, outcomes_sequence_cons, outcomes_sequence_cons,
      List.flatMap_assoc]
    simp only [ih]

/-! ### Outcomes and matches -/

/-- The ends of a run are where a stretch of the class has been read.  Those that are
nearer than the position of the walk have been collected before. -/
private theorem mem_runEndsThen_iff {k : CharClass} {nearer : List Cursor} {b r : Text}
    {d : Cursor} : d ∈ runEndsThen k nearer b r ↔
      d ∈ nearer ∨ ∃ u, (∀ x ∈ u, k.contains x = true) ∧ Cursor.Reads ⟨b, r⟩ u d := by
  -- The walk goes on while the class has the next character; `nearer` grows meanwhile.
  induction r generalizing nearer b with
  | nil =>
    simp only [runEndsThen, List.mem_cons, Cursor.reads_end_iff]
    constructor
    · rintro (rfl | h)
      · exact Or.inr ⟨[], by simp, rfl, rfl⟩
      · exact Or.inl h
    · rintro (h | ⟨u, -, rfl, rfl⟩)
      · exact Or.inr h
      · exact Or.inl rfl
  | cons x r ih =>
    simp only [runEndsThen, Cursor.reads_cons_iff]
    split
    next hx =>
      rw [ih, List.mem_cons]
      constructor
      · rintro ((rfl | h) | ⟨u, hu, hreads⟩)
        · exact Or.inr ⟨[], by simp, Or.inl ⟨rfl, rfl⟩⟩
        · exact Or.inl h
        · exact Or.inr ⟨x :: u, by simpa using ⟨hx, hu⟩, Or.inr ⟨u, rfl, hreads⟩⟩
      · rintro (h | ⟨u, hu, ⟨rfl, rfl⟩ | ⟨v, rfl, hreads⟩⟩)
        · exact Or.inl (Or.inr h)
        · exact Or.inl (Or.inl rfl)
        · exact Or.inr ⟨v, fun y hy => hu y (by simp [hy]), hreads⟩
    next hx =>
      rw [List.mem_cons]
      constructor
      · rintro (rfl | h)
        · exact Or.inr ⟨[], by simp, Or.inl ⟨rfl, rfl⟩⟩
        · exact Or.inl h
      · rintro (h | ⟨u, hu, ⟨rfl, rfl⟩ | ⟨v, rfl, -⟩⟩)
        · exact Or.inr h
        · exact Or.inl rfl
        · exact absurd (hu x (by simp)) hx

/-- The positions that a run of a class can reach. -/
theorem mem_runEnds_iff {k : CharClass} {c d : Cursor} :
    d ∈ runEnds k c ↔ ∃ u, (∀ x ∈ u, k.contains x = true) ∧ c.Reads u d := by
  rw [runEnds, mem_runEndsThen_iff]
  simp

/-- Induction along the rounds that lead to an outcome, from the last of them back to
the first.  How many rounds the bound allows plays no part in it. -/
private theorem rounds_induction {step : Cursor → Groups Label → List (Outcome Label)}
    {o : Outcome Label} {motive : Cursor → Groups Label → Prop} (stop : motive o.1 o.2)
    (next : ∀ {c g}, ∀ o' ∈ step c g, motive o'.1 o'.2 → motive c g)
    {bound : Text} {c : Cursor} {g : Groups Label} (h : o ∈ rounds step bound c g) :
    motive c g := by
  induction bound generalizing c g with
  | nil =>
    obtain rfl : o = (c, g) := by simpa [rounds] using h
    exact stop
  | cons x bound ih =>
    rw [rounds, List.mem_append, List.mem_flatMap, List.mem_singleton] at h
    rcases h with ⟨o', ho', h⟩ | rfl
    · exact next o' ho' (ih h)
    · exact stop

/-- Rounds that each match make up a repetition. -/
private theorem matches_of_mem_rounds {p : Pattern Label}
    (ih : ∀ {c : Cursor} {g : Groups Label} {o : Outcome Label},
      o ∈ p.outcomes c g → Matches p c o.1)
    {bound : Text} {c : Cursor} {g : Groups Label} {o : Outcome Label}
    (h : o ∈ rounds p.outcomes bound c g) : Matches (star p) c o.1 := by
  refine rounds_induction (motive := fun c _ => Matches (star p) c o.1)
    (.starStop o.1) ?_ h
  intro c g o' ho' hmore
  exact .starNext (ih ho') hmore

/-- Every outcome ends where the pattern matches to.  This half of the equivalence holds
for any bound on the rounds of a repetition. -/
theorem matches_of_mem_outcomes {p : Pattern Label} {c : Cursor} {g : Groups Label}
    {o : Outcome Label} (h : o ∈ p.outcomes c g) : Matches p c o.1 := by
  -- One constructor of `Matches` for each form of pattern.
  induction p generalizing c g o with
  | empty =>
    obtain rfl : o = (c, g) := by simpa [outcomes] using h
    exact .empty c
  | one k =>
    obtain ⟨b, r⟩ := c
    cases r with
    | nil => simp [outcomes] at h
    | cons x r =>
      by_cases hx : k.contains x
      · obtain rfl : o = (⟨x :: b, r⟩, g) := by simpa [outcomes, hx] using h
        exact .one b r hx
      · simp [outcomes, hx] at h
  | edge e =>
    by_cases he : c.meets e
    · obtain rfl : o = (c, g) := by simpa [outcomes, he] using h
      exact .edge c he
    · simp [outcomes, he] at h
  | run k =>
    obtain ⟨d, hd, rfl⟩ := List.mem_map.mp h
    exact matches_run_iff.mpr (mem_runEnds_iff.mp hd)
  | seq p q ihp ihq =>
    obtain ⟨o', ho', ho⟩ := List.mem_flatMap.mp h
    exact .seq (ihp ho') (ihq ho)
  | alt p q ihp ihq =>
    rcases List.mem_append.mp h with h | h
    · exact .altLeft (ihp h)
    · exact .altRight (ihq h)
  | star p ih => exact matches_of_mem_rounds ih h
  | group l p ih =>
    obtain ⟨o', ho', rfl⟩ := List.mem_map.mp h
    have hend : Matches p c o'.1 := ih ho'
    exact .group hend

/-- Rounds are rounds of a repetition, whatever their bound. -/
theorem matches_star_of_mem_rounds {p : Pattern Label} {bound : Text} {c : Cursor}
    {g : Groups Label} {o : Outcome Label} (h : o ∈ rounds p.outcomes bound c g) :
    Matches (star p) c o.1 :=
  matches_of_mem_rounds matches_of_mem_outcomes h

/-- Every end of a repetition is reached within the bound.  Rounds that read nothing can
be left out (`Pattern.matches_star_iff`), and the others use up a character of the bound
each. -/
private theorem exists_mem_rounds {p : Pattern Label}
    (ih : ∀ {c d : Cursor}, Matches p c d → ∀ g, ∃ g', (d, g') ∈ p.outcomes c g)
    {bound : Text} {c d : Cursor} (hbound : c.rest.length ≤ bound.length)
    (h : Matches (star p) c d) (g : Groups Label) :
    ∃ g', (d, g') ∈ rounds p.outcomes bound c g := by
  induction bound generalizing c g with
  | nil =>
    rcases matches_star_iff.mp h with rfl | ⟨e, he, hne, -⟩
    · exact ⟨g, by simp [rounds]⟩
    · -- Nothing is left to read, so there is no round that gets anywhere.
      obtain ⟨u, hu⟩ := he.exists_reads
      obtain rfl : u = [] := by
        have hrest : c.rest = [] := List.length_eq_zero_iff.mp (Nat.le_zero.mp hbound)
        exact (List.append_eq_nil_iff.mp (hu.rest_eq.symm.trans hrest)).1
      exact absurd (Cursor.reads_nil_iff.mp hu) hne
  | cons x bound ihb =>
    rcases matches_star_iff.mp h with rfl | ⟨e, he, hne, hmore⟩
    · exact ⟨g, by simp [rounds]⟩
    · -- A round that gets somewhere shortens the rest, so the bound lasts.
      obtain ⟨u, hu⟩ := he.exists_reads
      have hlt : e.rest.length < c.rest.length := by
        have hpos : u ≠ [] := by
          rintro rfl
          exact hne (Cursor.reads_nil_iff.mp hu)
        have := List.length_pos_iff.mpr hpos
        rw [hu.rest_eq, List.length_append]
        omega
      obtain ⟨g₁, hg₁⟩ := ih he g
      obtain ⟨g₂, hg₂⟩ := ihb (by simp at hbound; omega) hmore g₁
      exact ⟨g₂, List.mem_append_left _ (List.mem_flatMap.mpr ⟨(e, g₁), hg₁, hg₂⟩)⟩

/-- Every match is an outcome, whatever has been recorded before. -/
theorem Matches.exists_mem_outcomes {p : Pattern Label} {c d : Cursor} (h : Matches p c d)
    (g : Groups Label) : ∃ g', (d, g') ∈ p.outcomes c g := by
  induction p generalizing c d g with
  | empty =>
    obtain rfl := matches_empty_iff.mp h
    exact ⟨g, by simp [outcomes]⟩
  | one k =>
    cases h with
    | one b r hx => exact ⟨g, by simp [outcomes, hx]⟩
  | edge e =>
    obtain ⟨rfl, he⟩ := matches_edge_iff.mp h
    exact ⟨g, by simp [outcomes, he]⟩
  | run k =>
    exact ⟨g, List.mem_map.mpr ⟨d, mem_runEnds_iff.mpr (matches_run_iff.mp h), rfl⟩⟩
  | seq p q ihp ihq =>
    obtain ⟨e, hp, hq⟩ := matches_seq_iff.mp h
    obtain ⟨g₁, hg₁⟩ := ihp hp g
    obtain ⟨g₂, hg₂⟩ := ihq hq g₁
    exact ⟨g₂, List.mem_flatMap.mpr ⟨(e, g₁), hg₁, hg₂⟩⟩
  | alt p q ihp ihq =>
    rcases matches_alt_iff.mp h with h | h
    · obtain ⟨g', hg'⟩ := ihp h g
      exact ⟨g', List.mem_append_left _ hg'⟩
    · obtain ⟨g', hg'⟩ := ihq h g
      exact ⟨g', List.mem_append_right _ hg'⟩
  | star p ih => exact exists_mem_rounds ih (Nat.le_refl _) h g
  | group l p ih =>
    obtain ⟨g', hg'⟩ := ih (matches_group_iff.mp h) g
    exact ⟨(l, c, d) :: g', List.mem_map.mpr ⟨(d, g'), hg', rfl⟩⟩

/-- **The ends of the outcomes are the ends of the matches.** -/
theorem exists_mem_outcomes_iff {p : Pattern Label} {c d : Cursor} (g : Groups Label) :
    (∃ g', (d, g') ∈ p.outcomes c g) ↔ Matches p c d := by
  constructor
  · rintro ⟨g', h⟩
    exact matches_of_mem_outcomes h
  · intro h
    exact h.exists_mem_outcomes g

/-- There is no outcome where the pattern does not match. -/
theorem outcomes_eq_nil_iff {p : Pattern Label} {c : Cursor} {g : Groups Label} :
    p.outcomes c g = [] ↔ ∀ d, ¬Matches p c d := by
  rw [List.eq_nil_iff_forall_not_mem]
  constructor
  · intro h d hd
    obtain ⟨g', hg'⟩ := hd.exists_mem_outcomes g
    exact h _ hg'
  · intro h o ho
    exact h o.1 (matches_of_mem_outcomes ho)

/-! ### Groups -/

/-- Patterns that record no group. -/
def groupFree : Pattern Label → Bool
  | empty | one _ | edge _ | run _ => true
  | seq p q | alt p q => p.groupFree && q.groupFree
  | star p => p.groupFree
  | group _ _ => false

/-- Rounds that record nothing leave the groups as they were. -/
private theorem eq_of_mem_rounds {p : Pattern Label}
    (ih : ∀ {c : Cursor} {g : Groups Label} {o : Outcome Label}, o ∈ p.outcomes c g →
      o.2 = g)
    {bound : Text} {c : Cursor} {g : Groups Label} {o : Outcome Label}
    (h : o ∈ rounds p.outcomes bound c g) : o.2 = g := by
  refine rounds_induction (motive := fun _ g => o.2 = g) rfl ?_ h
  intro c g o' ho' hmore
  rw [hmore, ih ho']

/-- A pattern without groups records nothing, so the groups of before are there
afterwards. -/
theorem eq_of_mem_outcomes {p : Pattern Label} (hp : p.groupFree = true) {c : Cursor}
    {g : Groups Label} {o : Outcome Label} (h : o ∈ p.outcomes c g) : o.2 = g := by
  induction p generalizing c g o with
  | empty => simp_all [outcomes]
  | one k =>
    rw [outcomes] at h
    split at h
    · simp at h
    · split at h <;> simp_all
  | edge e =>
    rw [outcomes] at h
    split at h <;> simp_all
  | run k =>
    obtain ⟨d, -, rfl⟩ := List.mem_map.mp h
    rfl
  | seq p q ihp ihq =>
    rw [groupFree, Bool.and_eq_true] at hp
    obtain ⟨o', ho', ho⟩ := List.mem_flatMap.mp h
    rw [ihq hp.2 ho, ihp hp.1 ho']
  | alt p q ihp ihq =>
    rw [groupFree, Bool.and_eq_true] at hp
    rcases List.mem_append.mp h with h | h
    · exact ihp hp.1 h
    · exact ihq hp.2 h
  | star p ih => exact eq_of_mem_rounds (ih hp) h
  | group l p => cases hp

/-- Without groups, the outcomes are the matches.  The groups that are there already are
handed through. -/
theorem mem_outcomes_iff_of_groupFree {p : Pattern Label}
    (hp : p.groupFree = true) {c : Cursor} {g : Groups Label} {o : Outcome Label} :
    o ∈ p.outcomes c g ↔ Matches p c o.1 ∧ o.2 = g := by
  constructor
  · intro h
    exact ⟨matches_of_mem_outcomes h, eq_of_mem_outcomes hp h⟩
  · rintro ⟨h, hg⟩
    obtain ⟨g', hg'⟩ := h.exists_mem_outcomes g
    obtain rfl : g' = g := eq_of_mem_outcomes hp hg'
    obtain ⟨d, g''⟩ := o
    obtain rfl : g'' = g' := hg
    exact hg'

/-- A labelled pattern without groups inside records its own stretch. -/
theorem mem_outcomes_group_iff {p : Pattern Label} (hp : p.groupFree = true) {l : Label}
    {c : Cursor} {g : Groups Label} {o : Outcome Label} :
    o ∈ (group l p).outcomes c g ↔ Matches p c o.1 ∧ o.2 = (l, c, o.1) :: g := by
  obtain ⟨d, g'⟩ := o
  simp only [outcomes, List.mem_map, mem_outcomes_iff_of_groupFree hp, Prod.mk.injEq]
  constructor
  · rintro ⟨o, ⟨h, rfl⟩, rfl, rfl⟩
    exact ⟨h, rfl⟩
  · rintro ⟨h, rfl⟩
    exact ⟨(d, g), ⟨h, rfl⟩, rfl, rfl⟩

/-- An outcome of a sequence comes from an outcome of its first item, by way of the
position and the groups at its end. -/
theorem mem_outcomes_sequence_cons {p : Pattern Label}
    {ps : List (Pattern Label)} {c : Cursor} {g : Groups Label} {o : Outcome Label} :
    o ∈ (sequence (p :: ps)).outcomes c g ↔
      ∃ o' ∈ p.outcomes c g, o ∈ (sequence ps).outcomes o'.1 o'.2 :=
  List.mem_flatMap

/-- A sequence with one labelled part: what comes before it records nothing, the part
records its own stretch, and the rest goes on from there. -/
theorem mem_outcomes_sequence_group_iff {ps qs : List (Pattern Label)} {p : Pattern Label}
    (hps : (sequence ps).groupFree = true) (hp : p.groupFree = true)
    {l : Label} {c : Cursor} {g : Groups Label} {o : Outcome Label} :
    o ∈ (sequence (ps ++ group l p :: qs)).outcomes c g ↔
      ∃ e f, Matches (sequence ps) c e ∧ Matches p e f ∧
        o ∈ (sequence qs).outcomes f ((l, e, f) :: g) := by
  rw [outcomes_sequence_append, List.mem_flatMap]
  simp only [mem_outcomes_iff_of_groupFree hps, mem_outcomes_sequence_cons,
    mem_outcomes_group_iff hp]
  constructor
  · rintro ⟨o₁, ⟨he, hg₁⟩, o₂, ⟨hf, hg₂⟩, ho⟩
    rw [hg₂, hg₁] at ho
    exact ⟨o₁.1, o₂.1, he, hf, ho⟩
  · rintro ⟨e, f, he, hf, ho⟩
    exact ⟨(e, g), ⟨he, rfl⟩, (f, (l, e, f) :: g), ⟨hf, rfl⟩, ho⟩

/-- Every recorded place is a stretch of the text. -/
def StretchesOnly (g : Groups Label) : Prop :=
  ∀ place ∈ g, ∃ u, place.2.1.Reads u place.2.2

/-- Nothing recorded is nothing but stretches. -/
theorem stretchesOnly_nil : StretchesOnly ([] : Groups Label) := by
  simp [StretchesOnly]

/-- Rounds that record stretches only have recorded stretches only. -/
private theorem stretchesOnly_of_mem_rounds {p : Pattern Label}
    (ih : ∀ {c : Cursor} {g : Groups Label} {o : Outcome Label},
      o ∈ p.outcomes c g → StretchesOnly g → StretchesOnly o.2)
    {bound : Text} {c : Cursor} {g : Groups Label} {o : Outcome Label}
    (h : o ∈ rounds p.outcomes bound c g) (hg : StretchesOnly g) : StretchesOnly o.2 := by
  refine rounds_induction (motive := fun _ g => StretchesOnly g →
    StretchesOnly o.2) id ?_ h hg
  intro c g o' ho' hmore hg
  exact hmore (ih ho' hg)

/-- Searching records stretches only: a group is recorded from the position where it
opens to a position that has been read up to. -/
theorem stretchesOnly_of_mem_outcomes {p : Pattern Label} {c : Cursor} {g : Groups Label}
    {o : Outcome Label} (h : o ∈ p.outcomes c g) (hg : StretchesOnly g) :
    StretchesOnly o.2 := by
  induction p generalizing c g o with
  | seq p q ihp ihq =>
    obtain ⟨o', ho', ho⟩ := List.mem_flatMap.mp h
    exact ihq ho (ihp ho' hg)
  | alt p q ihp ihq =>
    rcases List.mem_append.mp h with h | h
    · exact ihp h hg
    · exact ihq h hg
  | star p ih => exact stretchesOnly_of_mem_rounds ih h hg
  | group l p ih =>
    obtain ⟨o', ho', rfl⟩ := List.mem_map.mp h
    intro place hplace
    rcases List.mem_cons.mp hplace with rfl | hplace
    · exact (matches_of_mem_outcomes ho').exists_reads
    · exact ih ho' hg place hplace
  | empty | one | edge | run =>
    rw [eq_of_mem_outcomes rfl h]
    exact hg

/-- The place of a group is a stretch of the text. -/
theorem StretchesOnly.exists_reads_of_group? [BEq Label] [LawfulBEq Label]
    {m : Match Label} (hm : StretchesOnly m.groups) {l : Label} {place : Cursor × Cursor}
    (h : m.group? l = some place) : ∃ u, place.1.Reads u place.2 := by
  obtain ⟨before, after, hsplit, -⟩ := List.lookup_eq_some_iff.mp h
  exact hm (l, place) (by simp [hsplit])

end Pattern

/-- Moving all recorded places moves the place of each group. -/
theorem Groups.lookup_map_places {Label : Type} [BEq Label] (f : Cursor → Cursor)
    (g : Groups Label) (l : Label) :
    (g.map fun place => (place.1, f place.2.1, f place.2.2)).lookup l =
      (g.lookup l).map fun place => (f place.1, f place.2) := by
  induction g with
  | nil => rfl
  | cons place g ih =>
    obtain ⟨l', c, d⟩ := place
    simp only [List.map_cons, List.lookup_cons]
    cases l == l' with
    | true => rfl
    | false => exact ih

end StrategyDialect
