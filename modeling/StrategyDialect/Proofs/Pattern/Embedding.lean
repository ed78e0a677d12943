import StrategyDialect.Proofs.Pattern.Search

/-!
# Patterns in an embedded text

A text `s` is embedded in `a ++ s ++ b`.  What a pattern matches inside `s` must not
change by that.  Three conditions make this true, and each of them is needed.

* **The pattern does not see the ends of the text** (`Pattern.isRegular`).  The edges
  `textStart` and `textEnd` do; all others look at the neighbouring characters only.
* **The seams are no word characters** (`Seams`), so that a word boundary at an end of
  `s` is one at the seam.
* **No match leaves `s`** (`Pattern.Confined`).  A run may well continue behind the
  second seam, and the list of outcomes then has further members; but those that end
  inside `s` are the old ones in the old order (`Pattern.filter_outcomes_widen`), and if
  there are no others, the preferred match is the old one.

A repetition takes its bound from the length of the remaining text, which the embedding
changes.  The bound is immaterial if every round reads something, and
`Pattern.isRegular` asks for that too.

## Main statements

* `Pattern.filter_outcomes_widen`: the outcomes that stay inside
* `Pattern.matches_widen_iff`: a stretch of `s` matches in the larger text if it does in
  `s`
* `Pattern.matchesIn_embed`, `Pattern.find_embed`: the matches of the larger text are
  those of `s`
-/

namespace StrategyDialect

/-! ## Positions of the larger text -/

/-- The position of `a ++ s ++ b` that corresponds to a position of `s`. -/
def Cursor.widen (a b : Text) (c : Cursor) : Cursor :=
  ⟨c.before ++ a.reverse, c.rest ++ b⟩

namespace Cursor

variable {a b s u : Text} {c d : Cursor}

/-- A widened position belongs to the larger text. -/
theorem text_widen : (c.widen a b).text = a ++ c.text ++ b := by
  simp [widen, text]

/-- It has moved by the length of what comes in front. -/
theorem offset_widen : (c.widen a b).offset = a.length + c.offset := by
  simp [widen, offset, Nat.add_comm]

/-- The same stretch is read between the widened positions. -/
theorem Reads.widen (h : c.Reads u d) : (c.widen a b).Reads u (d.widen a b) := by
  refine ⟨?_, ?_⟩
  · simp [Cursor.widen, h.rest_eq]
  · simp [Cursor.widen, h.before_eq]

/-- Different positions stay different, and so groups and matches can be compared after
widening. -/
theorem widen_injective : Function.Injective (Cursor.widen a b) := by
  intro c d h
  simp only [widen, Cursor.mk.injEq, List.append_cancel_right_eq] at h
  cases c
  cases d
  simp_all

/-- A position of the larger text between the seams corresponds to one of the embedded
text. -/
theorem exists_widen (htext : c.text = a ++ s ++ b) (hle : a.length ≤ c.offset)
    (hge : c.offset ≤ a.length + s.length) :
    ∃ d : Cursor, d.text = s ∧ c = d.widen a b := by
  have hstart : (⟨a.reverse, s ++ b⟩ : Cursor).text = c.text := by
    rw [htext]
    simp [text]
  obtain ⟨u, hu⟩ := exists_reads_of_offset_le hstart (by simpa [offset] using hle)
  have hlength : u.length ≤ s.length := by
    have hoffset := hu.offset_eq
    simp only [offset, List.length_reverse] at hoffset hge
    omega
  obtain ⟨v, rfl⟩ : ∃ v, s = u ++ v := by
    obtain ⟨v, hs, -⟩ | ⟨v, hu', -⟩ := List.append_eq_append_iff.mp hu.rest_eq
    · have : v = [] := by
        have := congrArg List.length hs
        rw [List.length_append] at this
        exact List.length_eq_zero_iff.mp (by omega)
      exact ⟨[], by simp [hs, this]⟩
    · exact ⟨v, hu'⟩
  refine ⟨⟨u.reverse, v⟩, by simp [text], ?_⟩
  have hwide := (reads_mk [] u v).widen (a := a) (b := b)
  refine hu.eq ?_
  simpa [widen] using hwide

end Cursor

/-- The recorded places, moved to the larger text. -/
def Groups.widen {Label : Type} (a b : Text) (g : Groups Label) : Groups Label :=
  g.map fun place => (place.1, place.2.1.widen a b, place.2.2.widen a b)

/-- A match, moved to the larger text. -/
def Match.widen {Label : Type} (a b : Text) (m : Match Label) : Match Label :=
  ⟨m.start.widen a b, m.stop.widen a b, Groups.widen a b m.groups⟩

/-- The texts around a stretch do not touch it with word characters. -/
structure Seams (a b : Text) : Prop where
  left : isWordAt a.getLast? = false
  right : isWordAt b.head? = false

namespace Pattern

open Cursor

variable {Label : Type}

/-- An outcome, moved to the larger text. -/
def Outcome.widen (a b : Text) (o : Outcome Label) : Outcome Label :=
  (o.1.widen a b, Groups.widen a b o.2)

/-- Whether an outcome in front of `b` ends before the second seam. -/
def Outcome.endsBefore (b : Text) (o : Outcome Label) : Bool :=
  b.length ≤ o.1.rest.length

/-! ## Regular patterns -/

/-- Whether a pattern may match without reading, edges taken for granted. -/
def canBeEmpty : Pattern Label → Bool
  | empty | edge _ | run _ | star _ => true
  | one _ => false
  | seq p q => p.canBeEmpty && q.canBeEmpty
  | alt p q => p.canBeEmpty || q.canBeEmpty
  | group _ p => p.canBeEmpty

/-- Patterns that do not look at the ends of the text and whose repetitions read in
every round. -/
def isRegular : Pattern Label → Bool
  | empty | one _ | run _ => true
  | edge e => e ≠ .textStart && e ≠ .textEnd
  | seq p q | alt p q => p.isRegular && q.isRegular
  | star p => !p.canBeEmpty && p.isRegular
  | group _ p => p.isRegular

/-- What a pattern reads is not empty, if the pattern cannot match the empty stretch.
The test for the latter is computed from the pattern. -/
theorem ne_nil_of_reads {p : Pattern Label} (hp : p.canBeEmpty = false) {c d : Cursor}
    (h : Matches p c d) {u : Text} (hu : c.Reads u d) : u ≠ [] := by
  induction h generalizing u with
  | one b r _ =>
    rintro rfl
    simpa using hu.rest_eq
  | seq first second ih ih' =>
    obtain ⟨v, hv⟩ := first.exists_reads
    obtain ⟨w, hw⟩ := second.exists_reads
    obtain rfl : u = v ++ w := by
      have hboth := hv.trans hw
      exact List.append_cancel_right (hu.rest_eq.symm.trans hboth.rest_eq)
    rw [canBeEmpty, Bool.and_eq_false_iff] at hp
    rcases hp with hp | hp
    · exact List.append_ne_nil_of_left_ne_nil (ih hp hv) w
    · exact List.append_ne_nil_of_right_ne_nil v (ih' hp hw)
  | altLeft _ ih =>
    rw [canBeEmpty, Bool.or_eq_false_iff] at hp
    exact ih hp.1 hu
  | altRight _ ih =>
    rw [canBeEmpty, Bool.or_eq_false_iff] at hp
    exact ih hp.2 hu
  | group _ ih => exact ih hp hu
  | empty | edge | runStop | runNext | starStop | starNext => cases hp

/-- So less is left of the text behind a match of such a pattern.  It is this that makes
the bound on repetitions immaterial. -/
theorem length_rest_lt_of_matches {p : Pattern Label} (hp : p.canBeEmpty = false)
    {c d : Cursor} (h : Matches p c d) : d.rest.length < c.rest.length := by
  obtain ⟨u, hu⟩ := h.exists_reads
  have hpos := List.length_pos_iff.mpr (ne_nil_of_reads hp h hu)
  rw [hu.rest_eq, List.length_append]
  omega

/-- Behind a match of any pattern no more is left than before it. -/
theorem length_rest_le_of_matches {p : Pattern Label} {c d : Cursor} (h : Matches p c d) :
    d.rest.length ≤ c.rest.length := by
  obtain ⟨u, hu⟩ := h.exists_reads
  rw [hu.rest_eq, List.length_append]
  omega

@[simp] theorem isRegular_literal (t : Text) :
    (literal t : Pattern Label).isRegular = true := by
  induction t with
  | nil => rfl
  | cons x t ih => exact ih

@[simp] theorem groupFree_literal (t : Text) :
    (literal t : Pattern Label).groupFree = true := by
  induction t with
  | nil => rfl
  | cons x t ih => exact ih

/-- A sequence is regular if its items are. -/
theorem isRegular_sequence {ps : List (Pattern Label)} :
    (sequence ps).isRegular = ps.all (·.isRegular) := by
  induction ps with
  | nil => rfl
  | cons p ps ih =>
    rw [List.all_cons, ← ih]
    rfl

/-! ## Outcomes in the larger text -/

variable {a b : Text}

/-- An edge is judged alike in the larger text.  The seams matter at the two ends of
`s`, and the edges that ask for the end of the text have to be excluded. -/
private theorem meets_widen (hseams : Seams a b) {e : Edge} (hstart : e ≠ .textStart)
    (hend : e ≠ .textEnd) (c : Cursor) : (c.widen a b).meets e = c.meets e := by
  have hbefore : isWordAt (c.widen a b).before.head? = isWordAt c.before.head? := by
    cases h : c.before with
    | nil => simpa [widen, h, isWordAt] using hseams.left
    | cons x t => simp [widen, h]
  have hafter : isWordAt (c.widen a b).rest.head? = isWordAt c.rest.head? := by
    cases h : c.rest with
    | nil => simpa [widen, h, isWordAt] using hseams.right
    | cons x t => simp [widen, h]
  cases e with
  | textStart => exact absurd rfl hstart
  | textEnd => exact absurd rfl hend
  | wordBoundary | noWordBoundary | wordStart | wordEnd =>
    simp only [meets, Edge.holds, hbefore, hafter]

/-- Behind the second seam a run reaches nothing before it. -/
private theorem filter_runEndsThen_of_lt {k : CharClass}
    {nearer : List Cursor} {t r : Text} (hlt : r.length < b.length) :
    (runEndsThen k nearer t r).filter (b.length ≤ ·.rest.length) =
      nearer.filter (b.length ≤ ·.rest.length) := by
  induction r generalizing nearer t with
  | nil =>
    rw [runEndsThen, List.filter_cons_of_neg]
    simp only [decide_eq_true_eq]
    omega
  | cons x r ih =>
    have hhere : ((⟨t, x :: r⟩ : Cursor) :: nearer).filter (b.length ≤ ·.rest.length) =
        nearer.filter (b.length ≤ ·.rest.length) := by
      rw [List.filter_cons_of_neg]
      simp only [decide_eq_true_eq]
      omega
    have hnext : r.length < b.length := by
      rw [List.length_cons] at hlt
      omega
    rw [runEndsThen]
    split
    · rw [ih hnext, hhere]
    · exact hhere

/-- The ends of a run in the larger text, as far as they do not lie in `b`, are the old
ones in the old order.  A run that goes on beyond the seam has further ends, all of
which are filtered away. -/
private theorem filter_runEndsThen_widen {k : CharClass}
    {nearer nearer' : List Cursor} {t r : Text}
    (hnearer : nearer'.filter (b.length ≤ ·.rest.length) =
      nearer.map (Cursor.widen a b)) :
    (runEndsThen k nearer' (t ++ a.reverse) (r ++ b)).filter (b.length ≤ ·.rest.length) =
      (runEndsThen k nearer t r).map (Cursor.widen a b) := by
  induction r generalizing nearer nearer' t with
  | nil =>
    -- The run may go on behind the seam; the positions that it reaches there are
    -- filtered out.
    have hseam : ((⟨t ++ a.reverse, b⟩ : Cursor) :: nearer').filter
        (b.length ≤ ·.rest.length) =
        ((⟨t, []⟩ : Cursor) :: nearer).map (Cursor.widen a b) := by
      rw [List.filter_cons_of_pos (by simp), hnearer]
      simp [widen]
    cases b with
    | nil => exact hseam
    | cons y b =>
      rw [runEndsThen, List.nil_append, runEndsThen]
      split
      · rw [filter_runEndsThen_of_lt (by simp), hseam]
      · exact hseam
  | cons x r ih =>
    have hhere : ((⟨t ++ a.reverse, x :: (r ++ b)⟩ : Cursor) :: nearer').filter
          (b.length ≤ ·.rest.length) =
        ((⟨t, x :: r⟩ : Cursor) :: nearer).map (Cursor.widen a b) := by
      rw [List.filter_cons_of_pos (by simp; omega), hnearer]
      simp [widen]
    rw [List.cons_append, runEndsThen, runEndsThen]
    split
    · exact ih (t := x :: t) hhere
    · exact hhere

/-- Searches that start behind the second seam end there too, so only the outcomes
before the seam count in what is searched next. -/
private theorem filter_flatMap_endsBefore {os : List (Outcome Label)}
    {next : Outcome Label → List (Outcome Label)}
    (hnext : ∀ o, ∀ o' ∈ next o, o'.1.rest.length ≤ o.1.rest.length) :
    (os.flatMap next).filter (Outcome.endsBefore b) =
      (os.filter (Outcome.endsBefore b)).flatMap fun o =>
        (next o).filter (Outcome.endsBefore b) := by
  induction os with
  | nil => rfl
  | cons o os ih =>
    rw [List.flatMap_cons, List.filter_append, ih]
    by_cases ho : Outcome.endsBefore b o
    · rw [List.filter_cons_of_pos ho, List.flatMap_cons]
    · rw [List.filter_cons_of_neg ho]
      have hnone : (next o).filter (Outcome.endsBefore b) = [] := by
        rw [List.filter_eq_nil_iff]
        intro o' ho'
        have hle := hnext o o' ho'
        simp only [Outcome.endsBefore, decide_eq_true_eq] at ho ⊢
        omega
      rw [hnone, List.nil_append]

/-- Outcomes end behind where they started, or there. -/
private theorem length_rest_le_of_mem_outcomes {p : Pattern Label} {c : Cursor}
    {g : Groups Label} {o : Outcome Label} (h : o ∈ p.outcomes c g) :
    o.1.rest.length ≤ c.rest.length :=
  length_rest_le_of_matches (matches_of_mem_outcomes h)

/-- If there is no round to be had, the bound need not provide for one. -/
private theorem rounds_eq_flatMap {step : Cursor → Groups Label → List (Outcome Label)}
    {bound : Text} {c : Cursor} {g : Groups Label} (h : bound = [] → step c g = []) :
    rounds step bound c g =
      (step c g).flatMap (fun o => rounds step bound.tail o.1 o.2) ++ [(c, g)] := by
  cases bound with
  | nil => simp [rounds, h rfl]
  | cons x bound => rfl

/-- The same for rounds: one that ends in `b` has only rounds behind it that end in `b`,
so filtering each round and filtering at the end come to the same. -/
private theorem filter_rounds_widen {p : Pattern Label} (hp : p.canBeEmpty = false)
    (ih : ∀ (c : Cursor) (g : Groups Label),
      (p.outcomes (c.widen a b) (g.widen a b)).filter (Outcome.endsBefore b) =
        (p.outcomes c g).map (Outcome.widen a b))
    {bound bound' : Text} {c : Cursor} {g : Groups Label}
    (hbound : c.rest.length ≤ bound.length)
    (hbound' : (c.widen a b).rest.length ≤ bound'.length) :
    (rounds p.outcomes bound' (c.widen a b) (g.widen a b)).filter (Outcome.endsBefore b) =
      (rounds p.outcomes bound c g).map (Outcome.widen a b) := by
  have hstop : ∀ {bound : Text} {c : Cursor} {g : Groups Label},
      c.rest.length ≤ bound.length →
      bound = [] → p.outcomes c g = [] := by
    rintro bound c g hle rfl
    rw [outcomes_eq_nil_iff]
    intro d hd
    have := length_rest_lt_of_matches hp hd
    simp only [List.length_nil] at hle
    omega
  have hshrink : ∀ (bound : Text) (o : Outcome Label),
      ∀ o' ∈ rounds p.outcomes bound o.1 o.2,
      o'.1.rest.length ≤ o.1.rest.length := fun bound o o' ho' =>
    length_rest_le_of_matches (matches_star_of_mem_rounds ho')
  -- Every round reads, so the induction on one of the bounds serves for both.
  induction hn : c.rest.length using Nat.strongRecOn generalizing bound bound' c g with
  | ind n ihn =>
    rw [rounds_eq_flatMap (hstop hbound), rounds_eq_flatMap (hstop hbound'),
      List.filter_append, filter_flatMap_endsBefore (hshrink _), ih, List.map_append,
      List.map_flatMap, List.flatMap_map]
    congr 1
    · refine List.flatMap_congr fun o ho => ?_
      have hlt := length_rest_lt_of_matches hp (matches_of_mem_outcomes ho)
      refine ihn o.1.rest.length (by omega) ?_ ?_ rfl
      · rw [List.length_tail]
        omega
      · simp only [widen, List.length_append, List.length_tail] at hbound' ⊢
        omega
    · have hin : Outcome.endsBefore b (c.widen a b, g.widen a b) = true := by
        simp [Outcome.endsBefore, widen]
      simp [hin, Outcome.widen]

/-- **The outcomes that end before the second seam are those of the embedded text**, in
the same order. -/
theorem filter_outcomes_widen (hseams : Seams a b) {p : Pattern Label}
    (hp : p.isRegular = true) (c : Cursor) (g : Groups Label) :
    (p.outcomes (c.widen a b) (g.widen a b)).filter (Outcome.endsBefore b) =
      (p.outcomes c g).map (Outcome.widen a b) := by
  have hin : ∀ (c : Cursor) (g : Groups Label),
      Outcome.endsBefore b (c.widen a b, g) = true := by
    intro c g
    simp [Outcome.endsBefore, widen]
  induction p generalizing c g with
  | empty => simp [outcomes, hin, Outcome.widen]
  | one k =>
    obtain ⟨t, r⟩ := c
    cases r with
    | nil =>
      -- The embedded text is at its end; what is read here is read behind the second
      -- seam.
      cases b with
      | nil => simp [outcomes, widen]
      | cons y b =>
        simp only [outcomes, widen, List.nil_append, List.map_nil, List.filter_eq_nil_iff]
        split <;> simp [Outcome.endsBefore]
    | cons x r =>
      have hnext := hin ⟨x :: t, r⟩ (g.widen a b)
      by_cases hx : k.contains x
      · simpa [outcomes, widen, hx, Outcome.widen] using hnext
      · simp [outcomes, widen, hx]
  | edge e =>
    simp only [isRegular, Bool.and_eq_true, decide_eq_true_eq] at hp
    simp only [outcomes, meets_widen hseams hp.1 hp.2]
    split
    · simp [hin, Outcome.widen]
    · rfl
  | run k =>
    have hends : (runEnds k (c.widen a b)).filter (b.length ≤ ·.rest.length) =
        (runEnds k c).map (Cursor.widen a b) := filter_runEndsThen_widen rfl
    simp only [outcomes, List.filter_map, List.map_map]
    rw [show (runEnds k (c.widen a b)).filter (Outcome.endsBefore b ∘ (·, g.widen a b)) =
      (runEnds k (c.widen a b)).filter (b.length ≤ ·.rest.length) from rfl,
        hends, List.map_map]
    rfl
  | seq p q ihp ihq =>
    simp only [isRegular, Bool.and_eq_true] at hp
    simp only [outcomes]
    rw [filter_flatMap_endsBefore fun _ _ => length_rest_le_of_mem_outcomes, ihp hp.1,
      List.map_flatMap, List.flatMap_map]
    exact List.flatMap_congr fun o _ => ihq hp.2 o.1 o.2
  | alt p q ihp ihq =>
    simp only [isRegular, Bool.and_eq_true] at hp
    simp only [outcomes, List.filter_append, List.map_append, ihp hp.1, ihq hp.2]
  | star p ih =>
    simp only [isRegular, Bool.and_eq_true, Bool.not_eq_true'] at hp
    exact filter_rounds_widen hp.1 (ih hp.2) (Nat.le_refl _) (Nat.le_refl _)
  | group l p ih =>
    simp only [outcomes, List.filter_map, List.map_map]
    rw [show (p.outcomes (c.widen a b) (g.widen a b)).filter
        (Outcome.endsBefore b ∘ fun o => (o.1, (l, c.widen a b, o.1) :: o.2)) =
      (p.outcomes (c.widen a b) (g.widen a b)).filter (Outcome.endsBefore b)
      from rfl, ih hp,
      List.map_map]
    rfl

/-- Inside the embedded text, a stretch matches in the larger text if it matches in the
smaller. -/
theorem matches_widen_iff (hseams : Seams a b) {p : Pattern Label}
    (hp : p.isRegular = true) {c d : Cursor} :
    Matches p (c.widen a b) (d.widen a b) ↔ Matches p c d := by
  have hfilter := filter_outcomes_widen hseams hp c []
  constructor
  · intro h
    obtain ⟨g, hg⟩ := h.exists_mem_outcomes []
    have hmem : (d.widen a b, g) ∈ (p.outcomes c []).map (Outcome.widen a b) := by
      rw [← hfilter, List.mem_filter]
      exact ⟨hg, by simp [Outcome.endsBefore, widen]⟩
    obtain ⟨o, ho, heq⟩ := List.mem_map.mp hmem
    obtain rfl : o.1 = d := widen_injective (congrArg Prod.fst heq)
    exact matches_of_mem_outcomes ho
  · intro h
    obtain ⟨g, hg⟩ := h.exists_mem_outcomes []
    have hmem := List.mem_map_of_mem (f := Outcome.widen a b) hg
    rw [← hfilter, List.mem_filter] at hmem
    exact matches_of_mem_outcomes hmem.1

/-! ## Matches of the larger text -/

/-- Every match in `a ++ s ++ b` lies inside `s`. -/
def Confined (p : Pattern Label) (a s b : Text) : Prop :=
  ∀ c d, c.text = a ++ s ++ b → Matches p c d →
    a.length ≤ c.offset ∧ d.offset ≤ a.length + s.length

variable {s : Text} {p : Pattern Label}

/-- **If no match leaves the embedded text, the matches in the larger text are those in
the smaller, moved.** -/
theorem matches_embed_iff (hseams : Seams a b) (hp : p.isRegular = true)
    (hin : Confined p a s b) {c d : Cursor} (hc : c.text = a ++ s ++ b) :
    Matches p c d ↔
      ∃ c' d', c'.text = s ∧ c = c'.widen a b ∧ d = d'.widen a b ∧ Matches p c' d' := by
  constructor
  · intro h
    obtain ⟨hstart, hstop⟩ := hin c d hc h
    have hle := h.offset_le
    obtain ⟨c', hc', rfl⟩ := exists_widen hc hstart (by omega)
    obtain ⟨d', -, rfl⟩ := exists_widen (h.text_eq.trans hc) (by omega) hstop
    exact ⟨c', d', hc', rfl, rfl, (matches_widen_iff hseams hp).mp h⟩
  · rintro ⟨c', d', -, rfl, rfl, h⟩
    exact (matches_widen_iff hseams hp).mpr h

/-- If no match leaves the embedded text, the preferred match at a position stays the
same. -/
theorem matchAt_widen (hseams : Seams a b) (hp : p.isRegular = true)
    (hin : Confined p a s b) {c : Cursor} (hc : c.text = s) :
    p.matchAt (c.widen a b) = (p.matchAt c).map (Match.widen a b) := by
  have hall : (p.outcomes (c.widen a b) []).filter (Outcome.endsBefore b) =
      p.outcomes (c.widen a b) [] := by
    rw [List.filter_eq_self]
    intro o ho
    have hmatch := matches_of_mem_outcomes ho
    have htext : (c.widen a b).text = a ++ s ++ b := by rw [text_widen, hc]
    have hstop := (hin _ _ htext hmatch).2
    have hlength := congrArg List.length (hmatch.text_eq.trans htext)
    simp only [text, offset, List.length_append, List.length_reverse] at hlength hstop
    simp only [Outcome.endsBefore, decide_eq_true_eq]
    omega
  have hfilter := filter_outcomes_widen hseams hp c []
  rw [show Groups.widen a b ([] : Groups Label) = [] from rfl, hall] at hfilter
  rw [matchAt_eq, matchAt_eq, hfilter]
  cases p.outcomes c [] <;> rfl

/-- Where nothing is left but `b`, no match starts, since it would lie outside `s`. -/
private theorem not_matches_of_reads (hin : Confined p a s b) {t r u : Text}
    {c d : Cursor} (htext : t.reverse ++ r = a ++ s ++ b) (hbehind : r.length < b.length)
    (hu : Reads ⟨t, r⟩ u c) : ¬Matches p c d := by
  intro h
  have hstop := (hin c d (hu.text_eq.trans htext) h).2
  have hlength := congrArg List.length htext
  have hle := Nat.le_trans hu.offset_le h.offset_le
  simp only [offset, List.length_append, List.length_reverse] at hlength hstop hle
  omega

/-- The walk through `s` and the walk through the larger text, from the same place on,
list the same matches.  Both skip alike, and behind `s` the walk through the larger text
finds nothing more. -/
private theorem matchesFrom_widen (hseams : Seams a b) (hp : p.isRegular = true)
    (hin : Confined p a s b) {skip : Nat} {t r : Text} (ht : t.reverse ++ r = s) :
    p.matchesFrom skip (t ++ a.reverse) (r ++ b) =
      (p.matchesFrom skip t r).map (Match.widen a b) := by
  have hhere := matchAt_widen hseams hp hin (c := ⟨t, r⟩) ht
  rw [show (⟨t, r⟩ : Cursor).widen a b = ⟨t ++ a.reverse, r ++ b⟩ from rfl] at hhere
  induction r generalizing skip t with
  | nil =>
    rw [List.nil_append] at hhere ⊢
    cases b with
    | nil =>
      rw [matchesFrom, matchesFrom, hhere]
      split
      · cases p.matchAt ⟨t, []⟩ <;> rfl
      · rfl
    | cons y b =>
      -- No match starts behind the second seam: it would have to end there, too.
      have hnone : ∀ skip, p.matchesFrom skip (y :: (t ++ a.reverse)) b = [] :=
        fun skip =>
        matchesFrom_eq_nil fun u c d =>
          not_matches_of_reads hin (by simp [← ht]) (by simp)
      cases skip with
      | succ skip =>
        simp only [matchesFrom, hnone]
        rfl
      | zero =>
        rw [matchesFrom, matchesFrom, hhere, if_pos rfl]
        cases p.matchAt ⟨t, []⟩ <;> simp [hnone]
  | cons x r ih =>
    have hnext :=
      matchAt_widen hseams hp hin (c := ⟨x :: t, r⟩) (by simpa [text] using ht)
    have hlater : ∀ skip, p.matchesFrom skip (x :: (t ++ a.reverse)) (r ++ b) =
        (p.matchesFrom skip (x :: t) r).map (Match.widen a b) := fun skip =>
      ih (t := x :: t) (by simpa using ht) hnext
    cases skip with
    | succ skip => exact hlater skip
    | zero =>
      rw [List.cons_append] at hhere ⊢
      rw [matchesFrom, matchesFrom, hhere]
      cases p.matchAt ⟨t, x :: r⟩ with
      | none => exact hlater 0
      | some m =>
        have hlength : (m.widen a b).length = m.length := by
          simp only [Match.length, Match.widen, offset_widen]
          omega
        simp only [Option.map_some, List.map_cons, hlength, hlater]

/-- **If no match leaves the embedded text, the matches of the larger text are those of
the smaller.** -/
theorem matchesIn_embed (hseams : Seams a b) (hp : p.isRegular = true)
    (hin : Confined p a s b) :
    p.matchesIn (a ++ s ++ b) = (p.matchesIn s).map (Match.widen a b) := by
  have hpass : p.matchesFrom 0 [] (a ++ (s ++ b)) =
      p.matchesFrom 0 (a.reverse ++ []) (s ++ b) := by
    refine matchesFrom_append fun u v c d ha hv hu h => ?_
    have htext : c.text = a ++ s ++ b := by
      rw [hu.text_eq]
      simp [text]
    have hstart := (hin c d htext h).1
    have hpos := List.length_pos_iff.mpr hv
    rw [hu.offset_eq, ha, List.length_append] at hstart
    simp only [offset, List.length_nil] at hstart
    omega
  rw [matchesIn, List.append_assoc, hpass, List.append_nil]
  exact matchesFrom_widen hseams hp hin (t := []) rfl

/-- The first match of the larger text is that of `s`, moved. -/
theorem find_embed (hseams : Seams a b) (hp : p.isRegular = true)
    (hin : Confined p a s b) :
    p.find (a ++ s ++ b) = (p.find s).map (Match.widen a b) := by
  rw [find_eq_head?, find_eq_head?, matchesIn_embed hseams hp hin, List.head?_map]

end Pattern

/-! ## Groups of a moved match -/

namespace Match

variable {Label : Type} [BEq Label] {a b : Text}

/-- What a group has recorded moves along with its match. -/
theorem group?_widen (m : Match Label) (l : Label) :
    (m.widen a b).group? l = (m.group? l).map fun place =>
      (place.1.widen a b, place.2.widen a b) :=
  Groups.lookup_map_places (Cursor.widen a b) m.groups l

/-- Moving a match does not change the texts of its groups. -/
theorem groupText?_widen [LawfulBEq Label] {m : Match Label}
    (hm : Pattern.StretchesOnly m.groups) (l : Label) :
    (m.widen a b).groupText? l = m.groupText? l := by
  rw [groupText?, groupText?, group?_widen]
  cases h : m.group? l with
  | none => rfl
  | some place =>
    obtain ⟨u, hu⟩ := hm.exists_reads_of_group? h
    simp only [Option.map_some, hu.widen.textTo_eq, hu.textTo_eq]

end Match

end StrategyDialect
