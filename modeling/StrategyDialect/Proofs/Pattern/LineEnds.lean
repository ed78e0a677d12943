import StrategyDialect.Proofs.Pattern.Occurrence
import StrategyDialect.Proofs.Text.LineEnds

/-!
# Patterns and line ends

A text with a carriage return before each newline has the positions of the text without
them, and one more inside each line end, between the carriage return and the newline.  A
pattern is indifferent to line ends if its matches at the old positions are the old
ones, moved, and none starts at a new position.

Most patterns are not indifferent: one that reads a single blank stops inside a line
end.  But a pattern that goes on with a run of blanks then reads the newline, too, and
is where it would have been.  So the question is what the *remaining* search does inside
a line end, and there are four answers that matter (`Inside`).  From what the remaining
search does it follows what the search for a pattern does that is handed this remaining
search (`Pattern.inside`), and whether the two searches agree at the old positions
(`Pattern.admitsReturns`).  Both are computed from the pattern alone;
`Pattern.holds_first` and `Pattern.agree_first` say that the computations are right, by
one induction on the pattern each.

A run of blanks reaches both ends of a line end and its inside, and prefers the far end.
It may therefore be followed by a search that succeeds inside a line end, if only that
search succeeds behind the newline as well: this is `Inside.defers`, and the reason why
it is one of the answers.

## Main definitions

* `Cursor.crlf`, `Match.crlf`: positions and matches, moved
* `Inside`: what a search does inside a line end
* `Pattern.inside`, `Pattern.admitsReturns`: how patterns treat line ends
* `Pattern.IgnoresReturns`: patterns that are indifferent to line ends

## Main statements

* `Pattern.agree_first`: the search in a text with carriage returns
* `Pattern.IgnoresReturns.matchesIn_crlf`, `Pattern.IgnoresReturns.find_crlf`,
  `Pattern.IgnoresReturns.occursIn_crlf`: the matches of such a text
-/

namespace StrategyDialect

/-! ## Positions -/

/-- The position in the text with carriage returns that corresponds to a position of the
text. -/
def Cursor.crlf (c : Cursor) : Cursor :=
  ⟨c.before.lfcr, c.rest.crlf⟩

namespace Cursor

variable {c d : Cursor} {u : Text}

/-- A moved position has moved by the number of line ends before it. -/
theorem offset_crlf (c : Cursor) :
    c.crlf.offset = (Text.crlf c.before.reverse).length := by
  rw [offset, crlf, ← Text.reverse_lfcr, List.length_reverse]

/-- What is read between moved positions is what was read, with its carriage returns. -/
theorem Reads.crlf (h : c.Reads u d) : c.crlf.Reads u.crlf d.crlf := by
  refine ⟨?_, ?_⟩
  · show c.rest.crlf = u.crlf ++ d.rest.crlf
    rw [h.rest_eq, Text.crlf_append]
  · show d.before.lfcr = u.crlf.reverse ++ c.before.lfcr
    rw [h.before_eq, Text.reverse_crlf, Text.lfcr_append]

/-- A condition sees the same kinds of characters on both sides. -/
theorem meets_crlf (c : Cursor) (e : Edge) : c.crlf.meets e = c.meets e := by
  have hbefore : c.crlf.before.head? = c.before.head? := Text.head?_lfcr c.before
  have hafter : isWordAt c.crlf.rest.head? = isWordAt c.rest.head? :=
    Text.any_head?_crlf rfl rfl c.rest
  have hend : c.crlf.rest.head?.isNone = c.rest.head?.isNone := by
    rw [show c.crlf.rest = c.rest.crlf from rfl, Text.head?_crlf, Option.isNone_map]
  cases e <;> simp only [meets, Edge.holds, hbefore, hafter, hend]

end Cursor

/-- The recorded places, moved to the text with carriage returns. -/
def Groups.crlf {Label : Type} (g : Groups Label) : Groups Label :=
  g.map fun place => (place.1, place.2.1.crlf, place.2.2.crlf)

/-- A match, moved to the text with carriage returns. -/
def Match.crlf {Label : Type} (m : Match Label) : Match Label :=
  ⟨m.start.crlf, m.stop.crlf, Groups.crlf m.groups⟩

/-! ## Inside a line end -/

/-- What a search does inside a line end, between the carriage return and the newline. -/
inductive Inside where
  /-- It fails. -/
  | fails
  /-- It does what it does behind the newline. -/
  | skips
  /-- It fails if it fails behind the newline. -/
  | defers
  /-- Nothing is known about it. -/
  | free
deriving DecidableEq

namespace Inside

variable {Label α β : Type} {i j : Inside} {accept : Pattern.Search Label α}
  {accept' : Pattern.Search Label β}

/-- The search does so inside every line end. -/
def Holds (i : Inside) (accept : Pattern.Search Label α) : Prop :=
  match i with
  | fails => ∀ b r g, accept ⟨'\r' :: b, '\n' :: r⟩ g = none
  | skips => ∀ b r g, accept ⟨'\r' :: b, '\n' :: r⟩ g = accept ⟨'\n' :: '\r' :: b, r⟩ g
  | defers =>
    ∀ b r g, accept ⟨'\n' :: '\r' :: b, r⟩ g = none →
      accept ⟨'\r' :: b, '\n' :: r⟩ g = none
  | free => True

/-- What is left where two searches have no more in common than their failures inside
line ends. -/
def kept : Inside → Inside
  | fails => fails
  | skips | defers | free => free

/-- What is left where a search may be replaced by one that succeeds behind the
newline. -/
def afterRounds : Inside → Inside
  | fails => fails
  | skips | defers => defers
  | free => free

/-- What two searches do when one of them is tried after the other. -/
def or : Inside → Inside → Inside
  | fails, fails => fails
  | skips, skips => skips
  | free, _ | _, free => free
  | _, _ => defers

/-- Of the four answers, all but one imply that the search defers.  The remaining one
says nothing. -/
theorem Holds.defers (h : i.Holds accept) (hi : i ≠ free) : defers.Holds accept := by
  intro b r g hbehind
  cases i with
  | fails => exact h b r g
  | skips => rw [h b r g, hbehind]
  | defers => exact h b r g hbehind
  | free => exact absurd rfl hi

/-- What is known of a search that fails wherever another one fails inside a line
end. -/
theorem Holds.kept (h : i.Holds accept)
    (hfails : ∀ b r, (∀ g, accept ⟨'\r' :: b, '\n' :: r⟩ g = none) →
      ∀ g, accept' ⟨'\r' :: b, '\n' :: r⟩ g = none) : i.kept.Holds accept' := by
  cases i with
  | fails => exact fun b r => hfails b r (h b r)
  | skips | defers | free => trivial

/-- What is known of a search that may be preceded by rounds of a repetition.  The
rounds read nothing inside a line end, so there the answer is that of the search
itself. -/
theorem Holds.afterRounds {accept' : Pattern.Search Label α} (h : i.Holds accept)
    (hinside : ∀ b r g, accept' ⟨'\r' :: b, '\n' :: r⟩ g =
      accept ⟨'\r' :: b, '\n' :: r⟩ g)
    (hnone : ∀ c g, accept' c g = none → accept c g = none) :
    i.afterRounds.Holds accept' := by
  cases i with
  | fails => exact fun b r g => (hinside b r g).trans (h b r g)
  | skips => exact fun b r g hbehind => by rw [hinside, h b r g, hnone _ g hbehind]
  | defers => exact fun b r g hbehind => by rw [hinside, h b r g (hnone _ g hbehind)]
  | free => trivial

/-- What is known of two searches, of which the second is tried if the first fails. -/
theorem Holds.or {accept' other : Pattern.Search Label α} (h : i.Holds accept)
    (h' : j.Holds other) (heq : ∀ c g, accept' c g = (accept c g).or (other c g)) :
    (i.or j).Holds accept' := by
  -- Unless nothing is known of one of them, both defer to what is behind the line end.
  have hdefers : i ≠ .free → j ≠ .free → Inside.defers.Holds accept' := by
    intro hi hj b r g hbehind
    rw [heq, Option.or_eq_none_iff] at hbehind ⊢
    exact ⟨h.defers hi b r g hbehind.1, h'.defers hj b r g hbehind.2⟩
  cases i with
  | fails =>
    cases j with
    | fails => exact fun b r g => by rw [heq, h b r g, h' b r g, Option.or_none]
    | skips | defers => exact hdefers (by simp) (by simp)
    | free => trivial
  | skips =>
    cases j with
    | skips => exact fun b r g => by rw [heq, heq, h b r g, h' b r g]
    | fails | defers => exact hdefers (by simp) (by simp)
    | free => trivial
  | defers =>
    cases j with
    | fails | skips | defers => exact hdefers (by simp) (by simp)
    | free => trivial
  | free => trivial

end Inside

namespace Pattern

open Cursor

variable {Label α β : Type}

/-! ## The search, one step at a time -/

/-- The ends that have been collected come last, because the farthest end of a run is
preferred. -/
private theorem runEndsThen_eq_append (k : CharClass) (nearer : List Cursor)
    (b r : Text) : runEndsThen k nearer b r = runEndsThen k [] b r ++ nearer := by
  induction r generalizing nearer b with
  | nil => rfl
  | cons x r ih =>
    rw [runEndsThen, runEndsThen]
    split
    · rw [ih, ih [⟨b, x :: r⟩], List.append_assoc]
      rfl
    · rfl

/-- A run goes on as long as it can, and is content with less if it has to be. -/
theorem first_run_cons (k : CharClass) (accept : Search Label α) (b : Text)
    (x : Char) (r : Text) (g : Groups Label) :
    first (run k) accept ⟨b, x :: r⟩ g =
      if k.contains x then (first (run k) accept ⟨x :: b, r⟩ g).or (accept ⟨b, x :: r⟩ g)
      else accept ⟨b, x :: r⟩ g := by
  simp only [first, runEnds, runEndsThen]
  split
  · rw [runEndsThen_eq_append, List.findSome?_append, List.findSome?_singleton]
  · rw [List.findSome?_singleton]

/-- At the end of the text a run reads nothing. -/
theorem first_run_nil (k : CharClass) (accept : Search Label α) (b : Text)
    (g : Groups Label) : first (run k) accept ⟨b, []⟩ g = accept ⟨b, []⟩ g :=
  List.findSome?_singleton

/-- A run may read nothing, so if it fails with what follows, then so does what follows
alone. -/
theorem eq_none_of_first_run {k : CharClass} {accept : Search Label α} {c : Cursor}
    {g : Groups Label} (h : first (run k) accept c g = none) : accept c g = none := by
  have hmem : c ∈ runEnds k c := mem_runEnds_iff.mpr ⟨[], by simp, reads_nil_iff.mpr rfl⟩
  exact List.findSome?_eq_none_iff.mp h c hmem

/-- A run that reads a newline is not sent back into the line end. -/
private theorem first_run_or_inside {accept : Search Label α}
    (h : Inside.defers.Holds accept) (k : CharClass) (b r : Text) (g : Groups Label) :
    (first (run k) accept ⟨'\n' :: '\r' :: b, r⟩ g).or (accept ⟨'\r' :: b, '\n' :: r⟩ g) =
      first (run k) accept ⟨'\n' :: '\r' :: b, r⟩ g := by
  cases hbehind : first (run k) accept ⟨'\n' :: '\r' :: b, r⟩ g with
  | some found => rfl
  | none => rw [h b r g (eq_none_of_first_run hbehind), Option.or_none]

/-- The second side of an alternative is tried if the first one fails. -/
theorem first_alt (p q : Pattern Label) (accept : Search Label α) (c : Cursor)
    (g : Groups Label) :
    first (alt p q) accept c g = (first p accept c g).or (first q accept c g) := by
  rw [first]
  dsimp only
  cases first p accept c g <;> rfl

/-- One more round is tried before what follows the repetition, and what follows is
tried if this fails. -/
theorem repeatUpTo_cons (step : Search Label α → Search Label α)
    (accept : Search Label α) (x : Char) (bound : Text) (c : Cursor) (g : Groups Label) :
    repeatUpTo step accept (x :: bound) c g =
      (step (repeatUpTo step accept bound) c g).or (accept c g) := by
  rw [repeatUpTo]
  dsimp only
  cases step (repeatUpTo step accept bound) c g <;> rfl

/-- There may be no round, so a repetition fails only if what follows fails. -/
theorem eq_none_of_repeatUpTo {step : Search Label α → Search Label α}
    {accept : Search Label α} {bound : Text} {c : Cursor} {g : Groups Label}
    (h : repeatUpTo step accept bound c g = none) : accept c g = none := by
  cases bound with
  | nil => exact h
  | cons x bound =>
    rw [repeatUpTo_cons, Option.or_eq_none_iff] at h
    exact h.2

/-- At the end of a text, nothing is found that has to be read. -/
theorem first_end {p : Pattern Label} (hp : p.canBeEmpty = false)
    (accept : Search Label α) (b : Text) (g : Groups Label) :
    first p accept ⟨b, []⟩ g = none := by
  have hnone : p.outcomes ⟨b, []⟩ g = [] := by
    refine outcomes_eq_nil_iff.mpr fun d hd => ?_
    have hlt := length_rest_lt_of_matches hp hd
    exact absurd hlt (Nat.not_lt_zero _)
  rw [first_eq_findSome?, hnone, List.findSome?_nil]

/-! ## Patterns inside a line end -/

/-- What the search for a pattern does inside a line end, given what the remaining
search does. -/
def inside : Pattern Label → Inside → Inside
  | empty, i => i
  | one k, _ => if k.contains '\n' then .free else .fails
  | edge e, i => if e.holds (some '\r') (some '\n') then i.kept else .fails
  | run k, i => if k.contains '\n' then (if i = .free then .free else .skips) else i.kept
  | seq p q, i => p.inside (q.inside i)
  | alt p q, i => (p.inside i).or (q.inside i)
  | star p, i => if p.inside .free = .fails then i.afterRounds else .free
  | group _ p, i => (p.inside i.kept).kept

/-- Rounds that fail inside a line end leave the search to what follows. -/
private theorem repeatUpTo_inside {p : Pattern Label}
    (hp : ∀ accept : Search Label α, Inside.fails.Holds (first p accept))
    (accept : Search Label α) (bound b r : Text) (g : Groups Label) :
    repeatUpTo (first p) accept bound ⟨'\r' :: b, '\n' :: r⟩ g =
      accept ⟨'\r' :: b, '\n' :: r⟩ g := by
  cases bound with
  | nil => rfl
  | cons x bound => rw [repeatUpTo_cons, hp _ b r g, Option.none_or]

/-- A repetition whose rounds fail inside line ends does there what the remaining search
does. -/
private theorem holds_repeatUpTo {p : Pattern Label}
    (hp : ∀ accept : Search Label α, Inside.fails.Holds (first p accept)) {i : Inside}
    {accept : Search Label α} (h : i.Holds accept) (bound : Text) :
    i.afterRounds.Holds (repeatUpTo (first p) accept bound) :=
  h.afterRounds (fun b r g => repeatUpTo_inside hp accept bound b r g) fun _ _ =>
    eq_none_of_repeatUpTo

/-- The answer for a run.  It is the one pattern for which all four answers differ,
since a run of blanks can leave a line end on the far side. -/
private theorem holds_run (k : CharClass) {i : Inside} {accept : Search Label α}
    (h : i.Holds accept) :
    ((run k : Pattern Label).inside i).Holds (first (run k) accept) := by
  rw [inside]
  split
  next hk =>
    split
    · trivial
    next hi =>
      intro b r g
      rw [first_run_cons, if_pos hk, first_run_or_inside (h.defers hi)]
  next hk =>
    refine h.kept fun b r hfails g => ?_
    rw [first_run_cons, if_neg hk, hfails g]

/-- **What the search for a pattern does inside a line end.** -/
theorem holds_first (p : Pattern Label) {i : Inside} {accept : Search Label α}
    (h : i.Holds accept) : (p.inside i).Holds (first p accept) := by
  induction p generalizing i accept with
  | empty => exact h
  | one k =>
    rw [inside]
    split
    · trivial
    next hk =>
      intro b r g
      rw [first]
      exact if_neg hk
  | edge e =>
    rw [inside]
    split
    · refine h.kept fun b r hfails g => ?_
      rw [first]
      dsimp only
      rw [hfails g, ite_self]
    next he =>
      intro b r g
      rw [first]
      exact if_neg he
  | run k => exact holds_run k h
  | seq p q ihp ihq => exact ihp (ihq h)
  | alt p q ihp ihq => exact (ihp h).or (ihq h) fun c g => first_alt p q accept c g
  | star p ih =>
    rw [inside]
    split
    next hp =>
      -- A round fails inside a line end whatever comes after it, so none is made.
      have hfails : ∀ accept : Search Label α, Inside.fails.Holds (first p accept) := by
        intro accept
        have hfree : Inside.free.Holds accept := trivial
        have hround := ih hfree
        rwa [hp] at hround
      exact h.afterRounds
        (fun b r g => repeatUpTo_inside hfails accept _ b r g) fun _ _ =>
        eq_none_of_repeatUpTo
    · trivial
  | group l p ih =>
    rw [inside]
    -- The remaining search may look at the groups, so it is only known to fail.
    cases hp : p.inside i.kept with
    | fails =>
      intro b r g
      have hinner : i.kept.Holds fun d g' =>
          accept d ((l, ⟨'\r' :: b, '\n' :: r⟩, d) :: g') :=
        h.kept fun b r hfails g => hfails _
      have hround := ih hinner
      rw [hp] at hround
      exact hround b r g
    | skips | defers | free => trivial

/-- A pattern that does not match inside line ends fails there, whatever the remaining
search does. -/
theorem first_inside {p : Pattern Label} (hp : p.inside .free = .fails)
    (accept : Search Label α) : Inside.fails.Holds (first p accept) := by
  have hfree : Inside.free.Holds accept := trivial
  have hfails := holds_first p hfree
  rwa [hp] at hfails

/-! ## Patterns at the old positions -/

/-- Whether the search for a pattern is the same in the text with carriage returns,
given what the remaining search does inside line ends. -/
def admitsReturns : Pattern Label → Inside → Bool
  | empty, _ | edge _, _ => true
  | one k, i => k.contains '\r' = k.contains '\n' && (!k.contains '\n' || i = .skips)
  | run k, i => k.contains '\r' = k.contains '\n' && (!k.contains '\n' || i ≠ .free)
  | seq p q, i => p.admitsReturns (q.inside i) && q.admitsReturns i
  | alt p q, i => p.admitsReturns i && q.admitsReturns i
  | star p, i => !p.canBeEmpty && p.inside .free = .fails && p.admitsReturns i.afterRounds
  | group _ p, i => p.admitsReturns i.kept

/-- At positions with fewer than `n` characters behind them, the second search finds in
the text with carriage returns what the first finds in the text, moved by `f`. -/
def Agree (n : Nat) (f : α → β) (accept : Search Label α) (accept' : Search Label β) :
    Prop :=
  ∀ c g, c.rest.length < n → accept' c.crlf (Groups.crlf g) = (accept c g).map f

variable {p : Pattern Label} {i : Inside} {n m : Nat} {f : α → β}
  {accept : Search Label α} {accept' : Search Label β}

/-- Searches that agree with more characters behind them agree with fewer. -/
private theorem Agree.mono (h : Agree n f accept accept') (hle : m ≤ n) :
    Agree m f accept accept' :=
  fun c g hlt => h c g (by omega)

/-- Two pairs of searches that agree also agree when they are tried one after the
other. -/
private theorem Agree.or {other : Search Label α} {other' : Search Label β}
    (h : Agree n f accept accept') (h' : Agree m f other other') :
    Agree (min n m) f (fun c g => (accept c g).or (other c g)) fun c g =>
      (accept' c g).or (other' c g) := by
  intro c g hlt
  obtain ⟨hn, hm⟩ := lt_min_iff.mp hlt
  dsimp only
  rw [h c g hn, h' c g hm, Option.map_or]

/-- A class that holds both parts of a line end reads it in two steps. -/
private theorem agree_one {k : CharClass}
    (hk : admitsReturns (one k : Pattern Label) i = true) (hi : i.Holds accept')
    (h : Agree n f accept accept') :
    Agree (n + 1) f (first (one k) accept) (first (one k) accept') := by
  simp only [admitsReturns, Bool.and_eq_true, Bool.or_eq_true, Bool.not_eq_true',
    decide_eq_true_eq] at hk
  obtain ⟨hsame, hread⟩ := hk
  rintro ⟨b, r⟩ g hlt
  cases r with
  | nil => rfl
  | cons x r =>
    have hnext := h ⟨x :: b, r⟩ g (by simpa using hlt)
    by_cases hx : x = '\n'
    · subst hx
      simp only [first, crlf, Text.crlf_newline_cons, hsame]
      split
      next hin =>
        obtain rfl : i = .skips := hread.resolve_left (by simp [hin])
        rw [hi]
        exact hnext
      · rfl
    · simp only [first, crlf, Text.crlf_cons hx]
      split
      · rw [crlf, Text.lfcr_cons hx] at hnext
        exact hnext
      · rfl

/-- A run that reads line ends prefers their ends to their insides. -/
private theorem agree_run {k : CharClass}
    (hk : admitsReturns (run k : Pattern Label) i = true) (hi : i.Holds accept')
    (h : Agree n f accept accept') :
    Agree n f (first (run k) accept) (first (run k) accept') := by
  simp only [admitsReturns, Bool.and_eq_true, Bool.or_eq_true, Bool.not_eq_true',
    decide_eq_true_eq] at hk
  obtain ⟨hsame, hread⟩ := hk
  rintro ⟨b, r⟩ g hlt
  induction r generalizing b with
  | nil =>
    rw [crlf, Text.crlf_nil, first_run_nil, first_run_nil]
    exact h ⟨b, []⟩ g hlt
  | cons x r ih =>
    have hhere := h ⟨b, x :: r⟩ g hlt
    have hnext := ih (x :: b) (by simp at hlt ⊢; omega)
    -- At a newline, the longer text has one end more: the inside of the line end.
    by_cases hx : x = '\n'
    · subst hx
      simp only [crlf, Text.crlf_newline_cons, Text.lfcr_newline_cons] at hhere hnext ⊢
      rw [first_run_cons, first_run_cons k accept, first_run_cons, hsame]
      split
      next hin =>
        have hdefers := hi.defers (hread.resolve_left (by simp [hin]))
        rw [first_run_or_inside hdefers, hnext, hhere, Option.map_or]
      · exact hhere
    · simp only [crlf, Text.crlf_cons hx, Text.lfcr_cons hx] at hhere hnext ⊢
      rw [first_run_cons, first_run_cons k accept]
      split
      · rw [hnext, hhere, Option.map_or]
      · exact hhere

/-- At the end of a text there are no rounds. -/
private theorem repeatUpTo_end (hp : p.canBeEmpty = false) (accept : Search Label α)
    (bound b : Text) (g : Groups Label) :
    repeatUpTo (first p) accept bound ⟨b, []⟩ g = accept ⟨b, []⟩ g := by
  cases bound with
  | nil => rfl
  | cons x bound => rw [repeatUpTo_cons, first_end hp, Option.none_or]

/-- Every round reads something, so a bound that suffices without carriage returns
suffices with them. -/
private theorem agree_repeatUpTo (hp : p.canBeEmpty = false)
    (hround : ∀ {n : Nat} {accept : Search Label α} {accept' : Search Label β},
      i.afterRounds.Holds accept' →
      Agree n f accept accept' → Agree (n + 1) f (first p accept) (first p accept'))
    (hfails : ∀ accept' : Search Label β, Inside.fails.Holds (first p accept'))
    (hi : i.Holds accept') (h : Agree n f accept accept') (bound bound' : Text)
    (hbound : n ≤ bound.length + 1) (hbound' : n ≤ bound'.length + 1) :
    Agree n f (repeatUpTo (first p) accept bound)
      (repeatUpTo (first p) accept' bound') := by
  induction n generalizing bound bound' with
  | zero => exact fun c g hlt => absurd hlt (Nat.not_lt_zero _)
  | succ n ih =>
    rintro ⟨b, r⟩ g hlt
    -- At the end of the text no round can be made; before it, a round shortens the rest.
    cases r with
    | nil =>
      rw [repeatUpTo_end hp, crlf, Text.crlf_nil, repeatUpTo_end hp]
      exact h ⟨b, []⟩ g hlt
    | cons x r =>
      rw [List.length_cons] at hlt
      obtain ⟨y, rounds, rfl⟩ := List.exists_cons_of_length_pos (l := bound) (by omega)
      obtain ⟨y', rounds', rfl⟩ := List.exists_cons_of_length_pos (l := bound') (by omega)
      rw [List.length_cons] at hbound hbound'
      have hmore : Agree n f (repeatUpTo (first p) accept rounds)
          (repeatUpTo (first p) accept' rounds') :=
        ih (h.mono (Nat.le_succ n)) rounds rounds' (by omega) (by omega)
      have hboth := (hround (holds_repeatUpTo hfails hi rounds') hmore).or h
      rw [min_self] at hboth
      rw [repeatUpTo_cons, repeatUpTo_cons]
      exact hboth ⟨b, x :: r⟩ g hlt

/-- **The search in a text with carriage returns** finds what the search in the text
finds, if the remaining searches do.  A pattern that has to read something needs this of
the remaining search further on only. -/
theorem agree_first (hp : p.admitsReturns i = true) (hi : i.Holds accept')
    (h : Agree n f accept accept') :
    Agree (n + (!p.canBeEmpty).toNat) f (first p accept) (first p accept') := by
  induction p generalizing i n accept accept' with
  | empty => exact h
  | one k => exact agree_one hp hi h
  | edge e =>
    intro c g hlt
    simp only [first, meets_crlf]
    split
    · exact h c g hlt
    · rfl
  | run k => exact agree_run hp hi h
  | seq p q ihp ihq =>
    rw [admitsReturns, Bool.and_eq_true] at hp
    have hboth := ihp hp.1 (holds_first q hi) (ihq hp.2 hi h)
    refine hboth.mono ?_
    rw [canBeEmpty, Bool.not_and]
    cases p.canBeEmpty <;> cases q.canBeEmpty <;> simp
  | alt p q ihp ihq =>
    rw [admitsReturns, Bool.and_eq_true] at hp
    have hboth := (ihp hp.1 hi h).or (ihq hp.2 hi h)
    intro c g hlt
    rw [first_alt, first_alt]
    refine hboth.mono ?_ c g hlt
    rw [canBeEmpty]
    cases p.canBeEmpty <;> cases q.canBeEmpty <;> simp
  | star p ih =>
    simp only [admitsReturns, Bool.and_eq_true, Bool.not_eq_true',
      decide_eq_true_eq] at hp
    obtain ⟨⟨hne, hfails⟩, hround⟩ := hp
    intro c g hlt
    have hlonger := Text.length_le_length_crlf c.rest
    -- The bound on the rounds is larger in the longer text, and is reached in neither.
    have hrounds := agree_repeatUpTo hne
      (fun hi' h' => by simpa [hne] using ih hround hi' h') (first_inside hfails) hi
      (h.mono hlt) c.rest (Text.crlf c.rest) (Nat.le_refl _) (by omega)
    exact hrounds c g (Nat.lt_succ_self _)
  | group l p ih =>
    intro c g hlt
    have hinner : i.kept.Holds fun d g' => accept' d ((l, c.crlf, d) :: g') :=
      hi.kept fun b r hfails g => hfails _
    have hagree : Agree n f (fun d g' => accept d ((l, c, d) :: g')) fun d g' =>
        accept' d ((l, c.crlf, d) :: g') := fun d g' hlt' => h d ((l, c, d) :: g') hlt'
    exact ih hp hinner hagree c g hlt

/-! ## Matches -/

/-- Patterns that are indifferent to line ends: every match reads something, none starts
inside a line end, and carriage returns are admitted everywhere. -/
structure IgnoresReturns (p : Pattern Label) : Prop where
  reads : p.canBeEmpty = false
  inside : p.inside .free = .fails
  admits : p.admitsReturns .free = true

namespace IgnoresReturns

variable {c : Cursor} {t : Text}

/-- At a moved position the preferred match is the old one, moved.  It is
`Pattern.agree_first` for a remaining search that accepts whatever it is given. -/
theorem matchAt_crlf (hp : p.IgnoresReturns) (c : Cursor) :
    p.matchAt c.crlf = (p.matchAt c).map Match.crlf := by
  have haccept : Agree (c.rest.length + 1) Match.crlf
      (fun (d : Cursor) (g : Groups Label) => some (⟨c, d, g⟩ : Match Label))
      (fun d g => some ⟨c.crlf, d, g⟩) := fun d g _ => rfl
  have hfree : Inside.free.Holds fun (d : Cursor) (g : Groups Label) =>
      some (⟨c.crlf, d, g⟩ : Match Label) := trivial
  exact agree_first hp.admits hfree haccept c [] (by omega)

/-- No match starts inside a line end, which is the other half of being indifferent. -/
theorem matchAt_inside (hp : p.IgnoresReturns) (b r : Text) :
    p.matchAt ⟨'\r' :: b, '\n' :: r⟩ = none :=
  first_inside hp.inside _ b r []

/-- Where no match starts, the next position is that behind the character, line end or
not. -/
private theorem matchesFrom_cons_crlf (hp : p.IgnoresReturns) {b r : Text} {x : Char}
    (hnone : p.matchAt ⟨b, x :: r⟩ = none) :
    p.matchesFrom 0 b.lfcr (Text.crlf (x :: r)) =
      p.matchesFrom 0 (Text.lfcr (x :: b)) (Text.crlf r) := by
  have hhere : p.matchAt ⟨b.lfcr, Text.crlf (x :: r)⟩ = none := by
    have hmoved := hp.matchAt_crlf ⟨b, x :: r⟩
    rwa [hnone] at hmoved
  by_cases hx : x = '\n'
  · subst hx
    rw [Text.crlf_newline_cons] at hhere ⊢
    rw [matchesFrom, hhere]
    dsimp only
    rw [matchesFrom, hp.matchAt_inside]
    rfl
  · rw [Text.crlf_cons hx] at hhere ⊢
    rw [matchesFrom, hhere, Text.lfcr_cons hx]

/-- The walks through the two texts list the same matches.  At a newline the walk with
carriage returns makes two steps, and the second one is a step inside a line end. -/
private theorem matchesFrom_crlf (hp : p.IgnoresReturns) (b r : Text) :
    p.matchesFrom 0 b.lfcr (Text.crlf r) = (p.matchesFrom 0 b r).map Match.crlf := by
  -- A match is passed over at once, so the induction is on the length of what is left.
  induction hn : r.length using Nat.strongRecOn generalizing b r with
  | ind n ih =>
    have hhere : p.matchAt ⟨b.lfcr, Text.crlf r⟩ = (p.matchAt ⟨b, r⟩).map Match.crlf :=
      hp.matchAt_crlf ⟨b, r⟩
    cases hm : p.matchAt ⟨b, r⟩ with
    | some m =>
      have hmatch := matches_of_mem_outcomes (mem_outcomes_of_matchAt_eq_some hm).2
      obtain ⟨u, hu⟩ := hmatch.exists_reads
      have hne : u ≠ [] := ne_nil_of_reads hp.reads hmatch hu
      obtain ⟨start, ⟨b', r'⟩, g⟩ := m
      obtain ⟨rfl, rfl⟩ : r = u ++ r' ∧ b' = u.reverse ++ b := ⟨hu.rest_eq, hu.before_eq⟩
      rw [hm, Text.crlf_append] at hhere
      have hbefore : Text.lfcr (u.reverse ++ b) = (Text.crlf u).reverse ++ b.lfcr := by
        rw [Text.lfcr_append, Text.reverse_crlf]
      have hstop : (⟨start, ⟨u.reverse ++ b, r'⟩, g⟩ : Match Label).crlf.stop =
          ⟨(Text.crlf u).reverse ++ b.lfcr, Text.crlf r'⟩ :=
        congrArg (Cursor.mk · _) hbefore
      have hshorter : r'.length < n := by
        have := List.length_pos_iff.mpr hne
        rw [← hn, List.length_append]
        omega
      rw [matchesFrom_of_matchAt hne hm rfl, Text.crlf_append,
        matchesFrom_of_matchAt (mt Text.crlf_eq_nil_iff.mp hne) hhere hstop,
          List.map_cons,
        ← ih r'.length hshorter (u.reverse ++ b) r' rfl, hbefore]
    | none =>
      cases r with
      | nil =>
        rw [hm, Text.crlf_nil] at hhere
        simp [matchesFrom, hm, hhere]
      | cons x r =>
        rw [hp.matchesFrom_cons_crlf hm, matchesFrom, hm]
        exact ih r.length (by simp [← hn]) (x :: b) r rfl

/-- **The matches of a text with carriage returns** are those of the text, moved. -/
theorem matchesIn_crlf (hp : p.IgnoresReturns) (t : Text) :
    p.matchesIn t.crlf = (p.matchesIn t).map Match.crlf :=
  hp.matchesFrom_crlf [] t

/-- The first match is the old one, moved. -/
theorem find_crlf (hp : p.IgnoresReturns) (t : Text) :
    p.find t.crlf = (p.find t).map Match.crlf := by
  rw [find_eq_head?, find_eq_head?, hp.matchesIn_crlf, List.head?_map]

/-- A pattern that is indifferent to line ends occurs with carriage returns if it does
without them. -/
theorem occursIn_crlf [DecidableEq Label] (hp : p.IgnoresReturns) (t : Text) :
    p.occursIn t.crlf = p.occursIn t := by
  have hoccurs : ∀ t, p.occursIn t = true ↔ p.find t ≠ none := by
    intro t
    rw [occursIn_iff, Ne, find_eq_none_iff]
    push Not
    rfl
  rw [Bool.eq_iff_iff, hoccurs, hoccurs, hp.find_crlf, Ne, Option.map_eq_none_iff]

end IgnoresReturns

/-! ## Literals -/

/-- A literal that starts with a visible character does not start inside a line end. -/
theorem inside_literal {t : Text} (ht : t.IsVisible) (i : Inside) :
    (literal t : Pattern Label).inside i = .fails := by
  obtain ⟨x, u, rfl⟩ := List.exists_cons_of_ne_nil ht.1
  have hx : ¬(CharClass.single x).contains '\n' = true := by
    rw [CharClass.contains_single]
    exact fun h => ht.newline_not_mem (h ▸ List.mem_cons_self)
  exact if_neg hx

/-- A literal without blanks reads no line end, whatever comes after it. -/
theorem admitsReturns_literal {t : Text} (ht : ∀ x ∈ t, isBlank x = false) (i : Inside) :
    (literal t : Pattern Label).admitsReturns i = true := by
  induction t with
  | nil => rfl
  | cons x t ih =>
    have hone : ∀ i, (one (.single x) : Pattern Label).admitsReturns i = true := by
      intro i
      have hx : isBlank x = false := ht x (by simp)
      have hr : '\r' ≠ x := by
        rintro rfl
        cases hx
      have hn : '\n' ≠ x := by
        rintro rfl
        cases hx
      simp [admitsReturns, CharClass.contains, hr, hn]
    have hstep : (literal (x :: t) : Pattern Label) = seq (one (.single x)) (literal t) :=
      rfl
    rw [hstep, admitsReturns, hone, ih fun y hy => ht y (by simp [hy])]
    rfl

end Pattern

/-! ## Groups -/

namespace Match

variable {Label : Type} [BEq Label]

/-- What a group has recorded moves along. -/
theorem group?_crlf (m : Match Label) (l : Label) :
    m.crlf.group? l = (m.group? l).map fun place => (place.1.crlf, place.2.crlf) :=
  Groups.lookup_map_places Cursor.crlf m.groups l

/-- The texts of the groups get carriage returns, too. -/
theorem groupText?_crlf [LawfulBEq Label] {m : Match Label}
    (hm : Pattern.StretchesOnly m.groups) (l : Label) :
    m.crlf.groupText? l = (m.groupText? l).map Text.crlf := by
  rw [groupText?, groupText?, group?_crlf]
  cases h : m.group? l with
  | none => rfl
  | some place =>
    obtain ⟨u, hu⟩ := hm.exists_reads_of_group? h
    simp only [Option.map_some, hu.crlf.textTo_eq, hu.textTo_eq]

end Match

end StrategyDialect
