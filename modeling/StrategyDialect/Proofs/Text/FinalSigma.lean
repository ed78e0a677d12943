import StrategyDialect.Proofs.Text.LetterCase
import StrategyDialect.Proofs.Text.Lines

/-!
# Sigma at the end of a word

Lower case goes letter by letter, with one exception.  A capital sigma becomes `ς` at
the end of a word and `σ` elsewhere, so what a text becomes may depend on what follows
it (`Text.lowerBetween`).  It does so in one case only (`Text.EndsInSigma`): the last
word of the text ends in a capital sigma, and the text that follows goes on with a
letter, so that the word does not end there after all.  Then one `ς` is exchanged for a
`σ` (`Text.exists_lowerBetween_sigma`).

Hence two texts that differ in lower case may agree once the same letters are put behind
both.  This happens exactly if one of them ends in a capital sigma and the other reads,
in lower case, as if this sigma were written `σ` (`Text.sigmaTwins_iff`).  That it
happens in no other way rests on the tables: only sigmas become small sigmas, so the
last sigma of each text is also the last one in lower case, and there the two can be
compared.

## Main definitions

* `Text.lowerBetween`: the lower case of a text between two others
* `Text.EndsInSigma`: texts whose lower case depends on what follows
* `Text.SigmaTwins`: texts that only such a sigma tells apart

## Main statements

* `Text.lower_append`: the lower case of two texts put together
* `Text.lowerBetween_of_not_endsInSigma`, `Text.exists_lowerBetween_sigma`: when what
  follows makes a difference, and which
* `Text.sigmaTwins_iff`: when two texts agree only once something follows them
-/

namespace StrategyDialect

/-! ### The small sigmas -/

/-- A small sigma, inside a word or at its end. -/
def isSmallSigma (c : Char) : Bool :=
  c = 'σ' || c = 'ς'

/-- What is checked of the tables: only the capital sigma is mapped to a small one. -/
theorem lowerTables_checked :
    (∀ r ∈ lowerRuns, ∀ n ∈ ['σ'.toNat, 'ς'.toNat], r.target ≤ n →
      n - r.target ≤ r.last - r.first →
        r.first + (n - r.target) = 'Σ'.toNat) ∧
      ∀ e ∈ lowerExpansions, ∀ n ∈ e.2, isSmallSigma (Char.ofNat n) = false := by
  decide +kernel

/-- A code point of a character other than the first one is that of the character. -/
private theorem eq_toNat_of_ofNat_eq {n : Nat} {c : Char} (h : Char.ofNat n = c)
    (hc : c.toNat ≠ 0) : n = c.toNat := by
  rw [← h, Char.toNat_ofNat] at hc ⊢
  split at hc
  next hvalid => rw [if_pos hvalid]
  next => exact absurd rfl hc

/-- **Only sigmas become small sigmas.** No other letter has one in its lower case, not
even among several characters; this is read off the tables. -/
theorem eq_sigma_of_mem_lowerChar {c x : Char} (hx : isSmallSigma x = true)
    (h : x ∈ lowerChar c) : c = 'Σ' ∨ isSmallSigma c = true := by
  obtain ⟨hruns, hexpansions⟩ := lowerTables_checked
  rcases mapCase_cases lowerRuns lowerExpansions c
    with ⟨r, hr, n, hn, heq⟩ | ⟨e, he, -, heq⟩ | heq
  · left
    obtain rfl : x = Char.ofNat n := by
      rw [lowerChar, heq] at h
      exact List.mem_singleton.mp h
    -- A run maps a stretch of letters in order, so the one that gets here is known.
    have hcode : n ∈ ['σ'.toNat, 'ς'.toNat] := by
      rw [isSmallSigma, Bool.or_eq_true, decide_eq_true_eq, decide_eq_true_eq] at hx
      rcases hx with hx | hx
      · simp [eq_toNat_of_ofNat_eq hx (by decide)]
      · simp [eq_toNat_of_ofNat_eq hx (by decide)]
    rw [CaseRun.counterpart?, Option.ite_none_right_eq_some, Option.some_inj] at hn
    obtain ⟨⟨hfirst, hlast, -⟩, hn⟩ := hn
    have hsigma := hruns r hr n hcode (by omega) (by omega)
    have hc : c.toNat = 'Σ'.toNat := by omega
    exact Char.ext (UInt32.toNat_inj.mp hc)
  · exfalso
    rw [lowerChar, heq] at h
    obtain ⟨n, hn, rfl⟩ := List.mem_map.mp h
    rw [hexpansions e he n hn] at hx
    cases hx
  · right
    rw [lowerChar, heq] at h
    rwa [← List.mem_singleton.mp h]

namespace Text

variable {before t u v head tail a b : Text} {c : Char}

/-! ### Letters next to a place -/

/-- One step of the search for a cased letter: characters such as apostrophes are passed
over. -/
theorem meetsCased_cons (c : Char) (t : Text) :
    meetsCased (c :: t) = if isCaseIgnorable c then meetsCased t else isCased c := by
  rw [meetsCased, meetsCased, List.dropWhile_cons]
  cases isCaseIgnorable c <;> rfl

/-- A letter next to a text is found in the text, unless all of it is ignored. -/
theorem meetsCased_append (t u : Text) :
    meetsCased (t ++ u) = if t.all isCaseIgnorable then meetsCased u
    else meetsCased t := by
  induction t with
  | nil => rfl
  | cons c t ih =>
    rw [List.cons_append, meetsCased_cons, meetsCased_cons, ih, List.all_cons]
    cases isCaseIgnorable c <;> rfl

/-! ### Lower case in a context -/

/-- The lower case of `t` between two texts, of which the first is read backwards. -/
def lowerBetween (before : Text) : (t after : Text) → Text
  | [], _ => []
  | c :: t, after =>
    (if c = 'Σ' then [if endsWord before (t ++ after) then 'ς' else 'σ'] else lowerChar c)
      ++ lowerBetween (c :: before) t after

/-- What a text puts into lower case depends on what stands before and behind it, and
both are named here.  The text before is read backwards, as in the definition. -/
theorem lowerAfter_append (before t u : Text) :
    lowerAfter before (t ++ u) = lowerBetween before t u
      ++ lowerAfter (t.reverse ++ before) u := by
  induction t generalizing before with
  | nil => rfl
  | cons c t ih => simp [lowerAfter, lowerBetween, ih]

/-- A text on its own has nothing before it and nothing behind it. -/
theorem lower_eq (t : Text) : lower t = lowerBetween [] t [] := by
  have happend := lowerAfter_append [] t []
  rwa [List.append_nil, lowerAfter, List.append_nil] at happend

/-- The lower case between two texts can be taken apart as well, each part standing
between what is left on either side. -/
theorem lowerBetween_append (before t u after : Text) :
    lowerBetween before (t ++ u) after =
      lowerBetween before t (u ++ after)
        ++ lowerBetween (t.reverse ++ before) u after := by
  induction t generalizing before with
  | nil => rfl
  | cons c t ih => simp [lowerBetween, ih]

/-- All that counts of what follows is whether a letter stands there. -/
theorem lowerBetween_congr (h : meetsCased u = meetsCased v) (before t : Text) :
    lowerBetween before t u = lowerBetween before t v := by
  induction t generalizing before with
  | nil => rfl
  | cons c t ih => simp only [lowerBetween, endsWord, meetsCased_append, h, ih]

/-- Without a capital sigma, lower case goes letter by letter. -/
theorem lowerBetween_of_not_mem (h : 'Σ' ∉ t) (before after : Text) :
    lowerBetween before t after = t.flatMap lowerChar := by
  induction t generalizing before with
  | nil => rfl
  | cons c t ih =>
    obtain ⟨hc, ht⟩ := List.ne_and_not_mem_of_not_mem_cons h
    rw [lowerBetween, if_neg (Ne.symm hc), ih ht, List.flatMap_cons]

/-- **The lower case of two texts put together**, of which the second has no capital
sigma. -/
theorem lower_append (h : 'Σ' ∉ u) (t : Text) :
    lower (t ++ u) = lowerBetween [] t u ++ u.flatMap lowerChar := by
  rw [lower_eq, lowerBetween_append, List.append_nil, lowerBetween_of_not_mem h]

/-! ### Texts that end in a capital sigma -/

/-- A capital sigma between `head` and `tail` ends the last word of the text: it follows
a letter, and is followed by characters that are ignored. -/
structure IsFinalSigma (head tail : Text) : Prop where
  meetsCased_head : meetsCased head.reverse = true
  isCaseIgnorable_tail : ∀ c ∈ tail, isCaseIgnorable c = true

/-- The last word of the text ends in a capital sigma. -/
def EndsInSigma (t : Text) : Prop :=
  ∃ head tail, t = head ++ 'Σ' :: tail ∧ IsFinalSigma head tail

/-- In other texts, what follows makes no difference: no capital sigma is left to be
judged by it. -/
theorem lowerBetween_of_not_endsInSigma (h : ¬EndsInSigma t) (u v : Text) :
    lowerBetween [] t u = lowerBetween [] t v := by
  -- Each capital sigma is followed by a character that is not ignored, or does not
  -- follow a letter.
  suffices hall : ∀ before t,
      (∀ head tail, t = head ++ 'Σ' :: tail → meetsCased (head.reverse ++ before) = true →
      tail.all isCaseIgnorable = false) →
      lowerBetween before t u = lowerBetween before t v by
    refine hall [] t fun head tail ht hcased => ?_
    rw [List.append_nil] at hcased
    rw [← Bool.not_eq_true, List.all_eq_true]
    exact fun hignorable => h ⟨head, tail, ht, hcased, hignorable⟩
  intro before t
  induction t generalizing before with
  | nil => exact fun _ => rfl
  | cons c t ih =>
    intro hopen
    have hlater := ih (c :: before) fun head tail ht hcased => by
      refine hopen (c :: head) tail (by simp [ht]) ?_
      simpa using hcased
    rw [lowerBetween, lowerBetween, hlater]
    split
    next hc =>
      have hsame : endsWord before (t ++ u) = endsWord before (t ++ v) := by
        rw [endsWord, endsWord, meetsCased_append, meetsCased_append]
        cases hbefore : meetsCased before with
        | false => rfl
        | true => rw [hopen [] t (by simp [hc]) (by simpa using hbefore)]; rfl
      rw [hsame]
    next => rfl

/-- **In a text that ends in a capital sigma, what follows decides on one letter.**
Written small, the sigma is the letter that it becomes in front of another letter, and
it is the last sigma there. -/
theorem exists_lowerBetween_sigma (h : IsFinalSigma head tail) :
    ∃ start rest, (∀ c ∈ rest, isSmallSigma c = false) ∧
      lower (head ++ 'Σ' :: tail) = start ++ 'ς' :: rest ∧
      lower (head ++ 'σ' :: tail) = start ++ 'σ' :: rest ∧
      ∀ after, meetsCased after = true →
        lowerBetween [] (head ++ 'Σ' :: tail) after = start ++ 'σ' :: rest := by
  have htail : 'Σ' ∉ tail :=
    fun hmem => absurd (h.isCaseIgnorable_tail _ hmem) (by decide)
  have hall : tail.all isCaseIgnorable = true :=
    List.all_eq_true.mpr h.isCaseIgnorable_tail
  -- To the letters before it, each of the two is a letter that follows.
  have hhead : ∀ x ∈ ['Σ', 'σ'], ∀ u,
      lowerBetween [] head (x :: u) = lowerBetween [] head ['σ'] := by
    intro x hx u
    have hletter : isCaseIgnorable x = false ∧ isCased x = meetsCased ['σ'] := by
      revert x
      decide
    refine lowerBetween_congr ?_ [] head
    rw [meetsCased_cons, if_neg (by simp [hletter]), hletter.2]
  have hcapital : ∀ after, lowerBetween [] (head ++ 'Σ' :: tail) after =
      lowerBetween [] head ['σ'] ++ (if meetsCased after then 'σ' else 'ς')
        :: tail.flatMap lowerChar := by
    intro after
    rw [lowerBetween_append, List.cons_append, hhead 'Σ' (by simp), lowerBetween,
      if_pos rfl, List.append_nil, endsWord, h.meetsCased_head, meetsCased_append,
      if_pos hall, lowerBetween_of_not_mem htail]
    cases meetsCased after <;> rfl
  have hsmall : lower (head ++ 'σ' :: tail) =
      lowerBetween [] head ['σ'] ++ 'σ' :: tail.flatMap lowerChar := by
    have hself : lowerChar 'σ' = ['σ'] := by decide
    rw [lower_eq, lowerBetween_append, List.cons_append, hhead 'σ' (by simp),
      lowerBetween, if_neg (by decide), hself, lowerBetween_of_not_mem htail]
    rfl
  refine ⟨_, _, ?_, (lower_eq _).trans (hcapital []), hsmall, fun after hafter => ?_⟩
  · intro c hc
    rw [← Bool.not_eq_true]
    intro hsigma
    obtain ⟨y, hy, hmem⟩ := List.mem_flatMap.mp hc
    have hignorable := h.isCaseIgnorable_tail y hy
    rcases eq_sigma_of_mem_lowerChar hsigma hmem with rfl | hsmall
    · exact htail hy
    · rw [isSmallSigma, Bool.or_eq_true, decide_eq_true_eq, decide_eq_true_eq] at hsmall
      rcases hsmall with rfl | rfl <;> exact absurd hignorable (by decide)
  · rw [hcapital after, hafter]
    rfl

/-- **The last sigma of a text** is there only once. -/
private theorem eq_of_last_sigma {start rest start' rest' : Text} {x y : Char}
    (hx : isSmallSigma x = true) (hy : isSmallSigma y = true)
    (hrest : ∀ c ∈ rest, isSmallSigma c = false)
    (hrest' : ∀ c ∈ rest', isSmallSigma c = false)
    (h : start ++ x :: rest = start' ++ y :: rest') :
    start = start' ∧ x = y ∧ rest = rest' := by
  -- Read backwards, the last sigma is the first one.
  have hreverse : rest.reverse ++ x :: start.reverse =
      rest'.reverse ++ y :: start'.reverse := by
    simpa using congrArg List.reverse h
  have hother : ∀ {u : Text}, (∀ c ∈ u, isSmallSigma c = false) →
      ∀ c ∈ u.reverse, (!isSmallSigma c) = true := by
    intro u hu c hc
    rw [hu c (List.mem_reverse.mp hc)]
    rfl
  obtain ⟨hrests, hstarts⟩ :=
    append_inj_of_class (k := fun c => !isSmallSigma c) hreverse (hother hrest)
      (hother hrest')
    (forall_mem_head?_cons (by simp [hx]) _) (forall_mem_head?_cons (by simp [hy]) _)
  obtain ⟨hxy, hstarts⟩ := List.cons.inj hstarts
  exact ⟨List.reverse_injective hstarts, hxy, List.reverse_injective hrests⟩

/-! ### Texts that only a sigma tells apart -/

/-- `a` ends in a capital sigma, and `b` reads, in lower case, as if this sigma were
written `σ`. -/
def IsMedialOf (b a : Text) : Prop :=
  ∃ head tail, a = head ++ 'Σ' :: tail ∧ IsFinalSigma head tail ∧
    lower b = lower (head ++ 'σ' :: tail)

/-- Texts of which one is the other with a `σ` for the capital sigma at its end, case
apart. -/
def SigmaTwins (a b : Text) : Prop :=
  IsMedialOf b a ∨ IsMedialOf a b

/-- A text that reads as if the capital sigma at the end of another were small does not
end in one itself. -/
theorem IsMedialOf.not_endsInSigma (h : IsMedialOf b a) : ¬EndsInSigma b := by
  rintro ⟨head', tail', rfl, hfinal'⟩
  obtain ⟨head, tail, rfl, hfinal, hlower⟩ := h
  obtain ⟨start, rest, hrest, -, hsmall, -⟩ := exists_lowerBetween_sigma hfinal
  obtain ⟨start', rest', hrest', hcapital', -, -⟩ := exists_lowerBetween_sigma hfinal'
  rw [hcapital', hsmall] at hlower
  exact absurd
    (eq_of_last_sigma (by decide) (by decide) hrest' hrest hlower).2.1 (by decide)

/-- Such texts differ, and agree once a letter follows them. -/
theorem IsMedialOf.ne_and_eq (h : IsMedialOf b a) (hu : meetsCased u = true) :
    lower a ≠ lower b ∧ lowerBetween [] a u = lowerBetween [] b u := by
  have hb : lowerBetween [] b u = lower b := by
    rw [lower_eq]
    exact lowerBetween_of_not_endsInSigma h.not_endsInSigma u []
  obtain ⟨head, tail, rfl, hfinal, hlower⟩ := h
  obtain ⟨start, rest, hrest, hcapital, hsmall, hafter⟩ :=
    exists_lowerBetween_sigma hfinal
  rw [hb, hlower, hcapital, hsmall, hafter u hu]
  exact ⟨by simp, rfl⟩

/-- If only the first of two texts ends in a capital sigma, and they agree in front of a
letter, the other reads as if this sigma were small. -/
private theorem isMedialOf_of_eq (hletter : meetsCased u = true) (ha : EndsInSigma a)
    (hb : ¬EndsInSigma b) (h : lowerBetween [] a u = lowerBetween [] b u) :
    IsMedialOf b a := by
  obtain ⟨head, tail, rfl, hfinal⟩ := ha
  obtain ⟨start, rest, -, -, hsmall, hafter⟩ := exists_lowerBetween_sigma hfinal
  refine ⟨head, tail, rfl, hfinal, ?_⟩
  rw [lower_eq, lowerBetween_of_not_endsInSigma hb [] u, ← h, hafter u hletter, hsmall]

/-- **Two texts agree only once a letter follows them** if one has a capital sigma at
its end where the other has a `σ`, case apart. -/
theorem sigmaTwins_iff (hu : 'Σ' ∉ u) (hletter : meetsCased u = true) :
    SigmaTwins a b ↔ lower a ≠ lower b ∧ lower (a ++ u) = lower (b ++ u) := by
  rw [lower_append hu, lower_append hu, List.append_cancel_right_eq]
  constructor
  · rintro (h | h)
    · exact h.ne_and_eq hletter
    · obtain ⟨hne, heq⟩ := h.ne_and_eq hletter
      exact ⟨hne.symm, heq.symm⟩
  · rintro ⟨hne, heq⟩
    by_cases ha : EndsInSigma a <;> by_cases hb : EndsInSigma b
    · -- The two capital sigmas would be the last ones of one text, and the texts would
      -- agree to begin with.
      obtain ⟨head, tail, rfl, hfinal⟩ := ha
      obtain ⟨head', tail', rfl, hfinal'⟩ := hb
      obtain ⟨start, rest, hrest, hcapital, -, hafter⟩ := exists_lowerBetween_sigma hfinal
      obtain ⟨start', rest', hrest', hcapital', -, hafter'⟩ :=
        exists_lowerBetween_sigma hfinal'
      rw [hafter u hletter, hafter' u hletter] at heq
      obtain ⟨rfl, -, rfl⟩ := eq_of_last_sigma (by decide) (by decide) hrest hrest' heq
      exact absurd (hcapital.trans hcapital'.symm) hne
    · exact .inl (isMedialOf_of_eq hletter ha hb heq)
    · exact .inr (isMedialOf_of_eq hletter hb ha heq.symm)
    · rw [lowerBetween_of_not_endsInSigma ha u [],
        lowerBetween_of_not_endsInSigma hb u [], ← lower_eq, ← lower_eq] at heq
      exact absurd heq hne

end Text

end StrategyDialect
