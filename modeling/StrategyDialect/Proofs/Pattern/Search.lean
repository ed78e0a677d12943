import StrategyDialect.Proofs.Pattern.Outcomes

/-!
# Searching a text

`Pattern.find` and `Pattern.matchesIn` walk through a text and take the preferred match
at each position that has one.  Here the walk is described by the positions that it
passes: a stretch in which no match starts is passed over
(`Pattern.matchesFrom_append`), and a text in which none starts at all has no matches
(`Pattern.matchesFrom_eq_nil`); the matches are listed from left to right
(`Pattern.pairwise_matchesIn`).  The single search is the head of the list of all
matches (`Pattern.find_eq_head?`), so only that list has to be followed.
-/

namespace StrategyDialect

namespace Cursor

variable {c d e : Cursor} {t u v : Text}

/-- A position of a text is reached from the start of the text. -/
theorem reads_start (c : Cursor) : (start c.text).Reads c.before.reverse c :=
  ⟨rfl, by simp [start]⟩

/-- The text of the first position is the text. -/
theorem text_start (t : Text) : (start t).text = t := by
  simp [text, start]

/-- Of two positions of one text, the one with the smaller offset comes first. -/
theorem exists_reads_of_offset_le (htext : c.text = d.text) (hle : c.offset ≤ d.offset) :
    ∃ u, c.Reads u d := by
  obtain ⟨bc, rc⟩ := c
  obtain ⟨bd, rd⟩ := d
  simp only [text, offset] at htext hle
  obtain ⟨u, hbefore, hrest⟩ | ⟨u, hbefore, hrest⟩ := List.append_eq_append_iff.mp htext
  · refine ⟨u, hrest, ?_⟩
    have hreverse := congrArg List.reverse hbefore
    simpa using hreverse
  · have hlength := congrArg List.length hbefore
    simp only [List.length_reverse, List.length_append] at hlength
    obtain rfl : u = [] := List.length_eq_zero_iff.mp (by omega)
    have hreverse := congrArg List.reverse hbefore
    exact ⟨[], by simpa using hrest.symm, by simpa using hreverse.symm⟩

end Cursor

namespace Pattern

open Cursor

variable {Label : Type} {p : Pattern Label}

/-- No match is preferred at a position if there is none at all. -/
theorem matchAt_eq_none_iff {c : Cursor} : p.matchAt c = none ↔ ∀ d, ¬Matches p c d := by
  rw [matchAt_eq, Option.map_eq_none_iff, List.head?_eq_none_iff, outcomes_eq_nil_iff]

/-- The preferred match at a position is one of the outcomes there. -/
theorem mem_outcomes_of_matchAt_eq_some {c : Cursor} {m : Match Label}
    (h : p.matchAt c = some m) : m.start = c ∧ (m.stop, m.groups) ∈ p.outcomes c [] := by
  rw [matchAt_eq, Option.map_eq_some_iff] at h
  obtain ⟨o, ho, rfl⟩ := h
  exact ⟨rfl, List.mem_of_head? ho⟩

/-- The preferred match is a match. -/
theorem matches_of_matchAt_eq_some {c : Cursor} {m : Match Label}
    (h : p.matchAt c = some m) : Matches p m.start m.stop := by
  obtain ⟨rfl, hmem⟩ := mem_outcomes_of_matchAt_eq_some h
  exact matches_of_mem_outcomes hmem

/-- A match starts with nothing recorded, so that all its groups are stretches. -/
theorem stretchesOnly_of_matchAt_eq_some {c : Cursor} {m : Match Label}
    (h : p.matchAt c = some m) : StretchesOnly m.groups :=
  stretchesOnly_of_mem_outcomes (mem_outcomes_of_matchAt_eq_some h).2 stretchesOnly_nil

/-! ### All matches -/

/-- A text in which no match starts has no matches. -/
theorem matchesFrom_eq_nil {skip : Nat} {b r : Text}
    (h : ∀ u c d, Reads ⟨b, r⟩ u c → ¬Matches p c d) : p.matchesFrom skip b r = [] := by
  have hhere : p.matchAt ⟨b, r⟩ = none :=
    matchAt_eq_none_iff.mpr fun d => h [] _ d (by simp)
  induction r generalizing skip b with
  | nil => simp [matchesFrom, hhere]
  | cons x r ih =>
    have hlater : ∀ u c d, Reads ⟨x :: b, r⟩ u c → ¬Matches p c d :=
      fun u c d hu => h ([x] ++ u) c d ((reads_mk b [x] r).trans hu)
    have hnext : p.matchAt ⟨x :: b, r⟩ = none :=
      matchAt_eq_none_iff.mpr fun d => hlater [] _ d (by simp)
    cases skip with
    | zero => rw [matchesFrom, hhere, ih hlater hnext]
    | succ skip => rw [matchesFrom, ih hlater hnext]

/-- A stretch in which no match starts is passed over. -/
theorem matchesFrom_append {b t r : Text}
    (h : ∀ u v c d, t = u ++ v → v ≠ [] → Reads ⟨b, t ++ r⟩ u c → ¬Matches p c d) :
    p.matchesFrom 0 b (t ++ r) = p.matchesFrom 0 (t.reverse ++ b) r := by
  induction t generalizing b with
  | nil => rfl
  | cons x t ih =>
    have hhere : p.matchAt ⟨b, x :: (t ++ r)⟩ = none :=
      matchAt_eq_none_iff.mpr fun d => h [] (x :: t) _ d rfl (by simp) (by simp)
    have hlater := ih (b := x :: b) fun u v c d ht hv hu =>
      h ([x] ++ u) v c d (by simp [ht]) hv ((reads_mk b [x] (t ++ r)).trans hu)
    rw [List.cons_append, matchesFrom, hhere, hlater]
    simp

/-- A match right here is the first of all. -/
theorem matchesFrom_eq_cons {b r : Text} {m : Match Label}
    (h : p.matchAt ⟨b, r⟩ = some m) : ∃ ms, p.matchesFrom 0 b r = m :: ms := by
  cases r with
  | nil => exact ⟨[], by simp [matchesFrom, h]⟩
  | cons x r => exact ⟨_, by rw [matchesFrom, h]⟩

/-- The positions inside an earlier match are passed over. -/
theorem matchesFrom_skip {skip : Nat} {b u r : Text} (h : u.length = skip) :
    p.matchesFrom skip b (u ++ r) = p.matchesFrom 0 (u.reverse ++ b) r := by
  induction u generalizing skip b with
  | nil =>
    obtain rfl : 0 = skip := h
    rfl
  | cons x u ih =>
    obtain rfl : u.length + 1 = skip := h
    rw [List.cons_append, matchesFrom, ih rfl]
    simp

/-- After a match that reads something, the search goes on where the match stops. -/
theorem matchesFrom_of_matchAt {b u r : Text} {m : Match Label} (hne : u ≠ [])
    (hm : p.matchAt ⟨b, u ++ r⟩ = some m) (hstop : m.stop = ⟨u.reverse ++ b, r⟩) :
    p.matchesFrom 0 b (u ++ r) = m :: p.matchesFrom 0 (u.reverse ++ b) r := by
  obtain ⟨hstart, -⟩ := mem_outcomes_of_matchAt_eq_some hm
  have hlength : m.length = u.length := by
    rw [Match.length, hstart, hstop]
    simp [offset]
  obtain ⟨x, v, rfl⟩ := List.exists_cons_of_ne_nil hne
  have hskip : v.length = m.length - 1 := by
    rw [hlength]
    rfl
  rw [List.cons_append] at hm ⊢
  rw [matchesFrom, hm]
  dsimp only
  rw [matchesFrom_skip hskip]
  simp

/-- Every match in the list is the preferred match at some position of the text. -/
theorem matchAt_of_mem_matchesFrom {skip : Nat} {b r : Text} {m : Match Label}
    (h : m ∈ p.matchesFrom skip b r) :
    (∃ u, Reads ⟨b, r⟩ u m.start) ∧ p.matchAt m.start = some m := by
  induction r generalizing skip b with
  | nil =>
    rw [matchesFrom] at h
    split at h
    · have hm : p.matchAt ⟨b, []⟩ = some m := Option.mem_toList.mp h
      obtain ⟨hstart, -⟩ := mem_outcomes_of_matchAt_eq_some hm
      exact ⟨⟨[], by simpa using hstart⟩, by rw [hstart, hm]⟩
    · cases h
  | cons x r ih =>
    have hlater : ∀ {skip : Nat}, m ∈ p.matchesFrom skip (x :: b) r →
        (∃ u, Reads ⟨b, x :: r⟩ u m.start) ∧ p.matchAt m.start = some m := by
      intro skip hm
      obtain ⟨⟨u, hu⟩, hat⟩ := ih hm
      exact ⟨⟨[x] ++ u, (reads_mk b [x] r).trans hu⟩, hat⟩
    cases skip with
    | succ skip => exact hlater h
    | zero =>
      rw [matchesFrom] at h
      split at h
      next m' hm' =>
        rcases List.mem_cons.mp h with rfl | h
        · obtain ⟨hstart, -⟩ := mem_outcomes_of_matchAt_eq_some hm'
          exact ⟨⟨[], by simpa using hstart⟩, by rw [hstart, hm']⟩
        · exact hlater h
      next => exact hlater h

/-- Every match of a text is the preferred match at one of its positions. -/
theorem matchAt_of_mem_matchesIn {t : Text} {m : Match Label} (h : m ∈ p.matchesIn t) :
    m.start.text = t ∧ p.matchAt m.start = some m := by
  obtain ⟨⟨u, hu⟩, hat⟩ := matchAt_of_mem_matchesFrom h
  exact ⟨hu.text_eq.trans (text_start t), hat⟩

/-- No match starts in what is skipped, which is how matches come not to overlap. -/
theorem offset_le_of_mem_matchesFrom {skip : Nat} {b r : Text} {m : Match Label}
    (h : m ∈ p.matchesFrom skip b r) : b.length + skip ≤ m.start.offset := by
  induction r generalizing skip b with
  | nil =>
    rw [matchesFrom] at h
    split at h
    next hskip =>
      have hm : p.matchAt ⟨b, []⟩ = some m := Option.mem_toList.mp h
      rw [(mem_outcomes_of_matchAt_eq_some hm).1, hskip]
      exact Nat.le_refl _
    next => cases h
  | cons x r ih =>
    -- A match that is found further on starts behind this character.
    have hlater : ∀ {skip : Nat}, m ∈ p.matchesFrom skip (x :: b) r →
        b.length + 1 + skip ≤ m.start.offset := ih
    cases skip with
    | succ skip => exact Nat.le_trans (by omega) (hlater h)
    | zero =>
      rw [matchesFrom] at h
      split at h
      next m' hm' =>
        rcases List.mem_cons.mp h with rfl | h
        · rw [(mem_outcomes_of_matchAt_eq_some hm').1]
          exact Nat.le_refl _
        · exact Nat.le_trans (by omega) (hlater h)
      next => exact Nat.le_trans (by omega) (hlater h)

/-- Each match stops before the next one starts.  A match that reads something is
skipped as a whole, and one that is empty lets the walk go on by one character. -/
theorem pairwise_matchesFrom (p : Pattern Label) (skip : Nat) (b r : Text) :
    (p.matchesFrom skip b r).Pairwise fun m m' => m.stop.offset ≤ m'.start.offset := by
  induction r generalizing skip b with
  | nil =>
    rw [matchesFrom]
    split
    · cases p.matchAt ⟨b, []⟩ with
      | none => exact .nil
      | some m => exact List.pairwise_singleton ..
    · exact .nil
  | cons x r ih =>
    cases skip with
    | succ skip => exact ih skip (x :: b)
    | zero =>
      rw [matchesFrom]
      split
      next m hm =>
        refine .cons (fun m' hm' => ?_) (ih (m.length - 1) (x :: b))
        have hstart : m.start.offset = b.length := by
          rw [(mem_outcomes_of_matchAt_eq_some hm).1]
          rfl
        have hlater := offset_le_of_mem_matchesFrom hm'
        rw [Match.length, List.length_cons] at hlater
        omega
      next => exact ih 0 (x :: b)

/-- **The matches of a text** are listed from left to right, and none overlaps another. -/
theorem pairwise_matchesIn (p : Pattern Label) (t : Text) :
    (p.matchesIn t).Pairwise fun m m' => m.stop.offset ≤ m'.start.offset :=
  pairwise_matchesFrom p 0 [] t

/-- Where the pattern matches, a preferred match starts, or one that started before goes
on. -/
theorem exists_mem_matchesFrom {skip : Nat} {b r u : Text} {c d : Cursor}
    (hu : Reads ⟨b, r⟩ u c) (hskip : skip ≤ u.length) (hmatch : Matches p c d) :
    ∃ m ∈ p.matchesFrom skip b r, m.start.offset ≤ c.offset ∧
      (m.start = c ∨ c.offset < m.stop.offset) := by
  -- At the position itself, some match is preferred.
  have hhere : ∀ {b r : Text}, c = ⟨b, r⟩ →
      ∃ m, p.matchAt ⟨b, r⟩ = some m ∧ m.start = c := by
    rintro b r rfl
    cases hat : p.matchAt ⟨b, r⟩ with
    | none => exact absurd hmatch (matchAt_eq_none_iff.mp hat d)
    | some m => exact ⟨m, rfl, (mem_outcomes_of_matchAt_eq_some hat).1⟩
  induction r generalizing skip b u with
  | nil =>
    obtain ⟨rfl, hc⟩ := reads_end_iff.mp hu
    obtain ⟨m, hat, hstart⟩ := hhere hc
    refine ⟨m, ?_, by rw [hstart], Or.inl hstart⟩
    rw [matchesFrom, if_pos (Nat.le_zero.mp hskip), hat]
    exact List.mem_singleton_self m
  | cons x r ih =>
    rcases reads_cons_iff.mp hu with ⟨rfl, hc⟩ | ⟨v, rfl, hv⟩
    · obtain ⟨m, hat, hstart⟩ := hhere hc
      obtain rfl : skip = 0 := Nat.le_zero.mp hskip
      refine ⟨m, ?_, by rw [hstart], Or.inl hstart⟩
      rw [matchesFrom, hat]
      exact List.mem_cons_self
    · cases skip with
      | succ skip =>
        rw [matchesFrom]
        exact ih hv (by simpa using hskip)
      | zero =>
        rw [matchesFrom]
        split
        next m hat =>
          obtain ⟨hstart, -⟩ := mem_outcomes_of_matchAt_eq_some hat
          by_cases hlength : m.length - 1 ≤ v.length
          · obtain ⟨m', hm', h⟩ := ih hv hlength
            exact ⟨m', List.mem_cons_of_mem _ hm', h⟩
          · -- The position lies in what `m` has read.
            have hoffset : c.offset = m.start.offset + (v.length + 1) := by
              rw [hu.offset_eq, hstart]
              rfl
            rw [Match.length] at hlength
            exact ⟨m, List.mem_cons_self, by omega, Or.inr (by omega)⟩
        next => exact ih hv (Nat.zero_le _)

/-- Where the pattern matches in a text, a preferred match starts, or one that started
before goes on. -/
theorem exists_mem_matchesIn {t : Text} {c d : Cursor} (hc : c.text = t)
    (hmatch : Matches p c d) :
    ∃ m ∈ p.matchesIn t, m.start.offset ≤ c.offset ∧
      (m.start = c ∨ c.offset < m.stop.offset) := by
  subst hc
  exact exists_mem_matchesFrom (reads_start c) (Nat.zero_le _) hmatch

/-! ### The first match -/

/-- The search for a single match finds the first one of all matches.  The two walks go
along together until there is one. -/
theorem findFrom_eq_head? (b r : Text) :
    p.findFrom b r = (p.matchesFrom 0 b r).head? := by
  induction r generalizing b with
  | nil =>
    rw [findFrom, matchesFrom, if_pos rfl]
    cases p.matchAt ⟨b, []⟩ <;> rfl
  | cons x r ih =>
    rw [findFrom, matchesFrom]
    cases p.matchAt ⟨b, x :: r⟩ with
    | some m => rfl
    | none => exact ih (x :: b)

/-- The search for one match returns the first of all. -/
theorem find_eq_head? (t : Text) : p.find t = (p.matchesIn t).head? :=
  findFrom_eq_head? [] t

/-- The search finds nothing if no match starts anywhere ahead. -/
private theorem findFrom_eq_none_iff {b r : Text} :
    p.findFrom b r = none ↔ ∀ u c d, Reads ⟨b, r⟩ u c → ¬Matches p c d := by
  constructor
  · intro h u c d hu
    induction r generalizing b u with
    | nil =>
      obtain ⟨-, rfl⟩ := reads_end_iff.mp hu
      exact matchAt_eq_none_iff.mp h d
    | cons x r ih =>
      rw [findFrom] at h
      split at h
      next => cases h
      next hhere =>
        rcases reads_cons_iff.mp hu with ⟨-, rfl⟩ | ⟨v, -, hv⟩
        · exact matchAt_eq_none_iff.mp hhere d
        · exact ih h v hv
  · intro h
    rw [findFrom_eq_head?, matchesFrom_eq_nil h, List.head?_nil]

/-- The search fails where no stretch of the text matches. -/
theorem find_eq_none_iff {t : Text} :
    p.find t = none ↔ ∀ c d, c.text = t → ¬Matches p c d := by
  rw [find, findFrom_eq_none_iff]
  constructor
  · rintro h c d rfl
    exact h _ c d (reads_start c)
  · intro h u c d hu
    exact h c d (hu.text_eq.trans (text_start t))

/-- A match that is found is the preferred one where it starts. -/
theorem matchAt_of_find_eq_some {t : Text} {m : Match Label} (h : p.find t = some m) :
    m.start.text = t ∧ p.matchAt m.start = some m := by
  rw [find_eq_head?] at h
  exact matchAt_of_mem_matchesIn (List.mem_of_head? h)

/-- No match starts before the one that is found. -/
private theorem offset_le_of_findFrom {b r u : Text} {m : Match Label} {c d : Cursor}
    (h : p.findFrom b r = some m) (hu : Reads ⟨b, r⟩ u c) (hmatch : Matches p c d) :
    m.start.offset ≤ c.offset := by
  induction r generalizing b u with
  | nil =>
    obtain ⟨hstart, -⟩ := mem_outcomes_of_matchAt_eq_some h
    obtain ⟨-, rfl⟩ := reads_end_iff.mp hu
    rw [hstart]
  | cons x r ih =>
    rw [findFrom] at h
    split at h
    next m' hm' =>
      obtain rfl : m' = m := Option.some.inj h
      obtain ⟨hstart, -⟩ := mem_outcomes_of_matchAt_eq_some hm'
      rw [hstart, hu.offset_eq]
      exact Nat.le_add_right _ _
    next hhere =>
      rcases reads_cons_iff.mp hu with ⟨-, rfl⟩ | ⟨v, -, hv⟩
      · exact absurd hmatch (matchAt_eq_none_iff.mp hhere d)
      · exact ih h hv

/-- No match starts before the one that the search returns. -/
theorem offset_le_of_find_eq_some {t : Text} {m : Match Label} {c d : Cursor}
    (h : p.find t = some m) (hc : c.text = t) (hmatch : Matches p c d) :
    m.start.offset ≤ c.offset := by
  subst hc
  exact offset_le_of_findFrom h (reads_start c) hmatch

/-- Where a stretch in which no match starts is followed by a match, the search returns
that match. -/
theorem find_append {t r : Text} {m : Match Label}
    (hm : p.matchAt ⟨t.reverse, r⟩ = some m)
    (h : ∀ c d, c.text = t ++ r → c.offset < t.length → ¬Matches p c d) :
    p.find (t ++ r) = some m := by
  have hpass : p.matchesIn (t ++ r) = p.matchesFrom 0 (t.reverse ++ []) r := by
    refine matchesFrom_append fun u v c d ht hv hu => h c d ?_ ?_
    · exact hu.text_eq.trans (text_start _)
    · have hpos := List.length_pos_iff.mpr hv
      rw [hu.offset_eq, ht, List.length_append]
      simp [offset, hpos]
  rw [List.append_nil] at hpass
  obtain ⟨ms, hms⟩ := matchesFrom_eq_cons hm
  rw [find_eq_head?, hpass, hms, List.head?_cons]

end Pattern

end StrategyDialect
