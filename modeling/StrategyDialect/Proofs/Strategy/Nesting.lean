import StrategyDialect.Proofs.Strategy.Defaults

/-!
# Nesting of blocks

How deep a text is nested is counted in one pass (`Text.nesting?`), which fails where a
brace closes a block that was not opened.  The pass composes (`Text.nesting?_append`),
and it may start at any depth (`Text.nesting?_add`), so the texts around a strategy can
be dealt with one by one.

Two other notions are expressed through it.  A text is *balanced* if no part of it from
the start closes more blocks than it opens and all are closed in the end: the pass leads
from depth zero to depth zero (`Text.isBalanced_iff`).  And a block is left open by a
text if the pass over the text does not fail (`Block.lengthFrom?_eq_none_iff`).

## Main definitions

* `Text.nesting?`: the depth after a text
* `Text.IsBalanced`: texts that close the blocks they open, and no others

## Main statements

* `Text.nesting?_eq_some_iff`: the depth in terms of the braces
* `Block.exists_lt_of_length?_eq_none`: a block that is open before a balanced text is
  closed behind it
-/

namespace StrategyDialect

namespace Text

/-! ## The depth after a text -/

/-- The number of open blocks after a text with `depth` open blocks before it, unless a
brace closes a block and none is open. -/
def nesting? : (depth : Nat) → Text → Option Nat
  | depth, [] => some depth
  | depth, c :: t =>
    if c = '{' then nesting? (depth + 1) t
    else if c = '}' then
      match depth with
      | 0 => none
      | depth + 1 => nesting? depth t
    else nesting? depth t

variable {m n : Nat} {c : Char} {s t : Text}

@[simp] theorem nesting?_nil : nesting? m [] = some m :=
  rfl

@[simp] theorem nesting?_open : nesting? m ('{' :: t) = nesting? (m + 1) t :=
  rfl

@[simp] theorem nesting?_close_zero : nesting? 0 ('}' :: t) = none :=
  rfl

@[simp] theorem nesting?_close_succ : nesting? (m + 1) ('}' :: t) = nesting? m t :=
  rfl

/-- Other characters keep the depth.  With the four lemmas before it, the pass is
computed character by character. -/
theorem nesting?_cons_of_ne (hopen : c ≠ '{') (hclose : c ≠ '}') :
    nesting? m (c :: t) = nesting? m t := by
  simp [nesting?, hopen, hclose]

/-- A character opens a block, closes one, or does neither. -/
theorem brace_cases (c : Char) : c = '{' ∨ c = '}' ∨ c ≠ '{' ∧ c ≠ '}' := by
  by_cases hopen : c = '{'
  · exact .inl hopen
  · by_cases hclose : c = '}'
    · exact .inr (.inl hclose)
    · exact .inr (.inr ⟨hopen, hclose⟩)

/-- The pass over two texts goes on in the second at the depth where the first has
led. -/
theorem nesting?_append : nesting? m (s ++ t) = (nesting? m s).bind (nesting? · t) := by
  induction s generalizing m with
  | nil => simp
  | cons c s ih =>
    rw [List.cons_append]
    rcases brace_cases c with rfl | rfl | ⟨hopen, hclose⟩
    · simp [ih]
    · cases m <;> simp [ih]
    · simp [nesting?_cons_of_ne hopen hclose, ih]

/-- In particular it does so at a depth that is known, and this is the form in which the
pieces of a frame are put together. -/
theorem nesting?_append_of_some (h : nesting? m s = some n) :
    nesting? m (s ++ t) = nesting? n t := by
  rw [nesting?_append, h, Option.bind_some]

/-- Texts that keep the depth keep it together, such as the lines of a header. -/
theorem nesting?_flatMap {α : Type} {xs : List α} {f : α → Text}
    (h : ∀ x ∈ xs, nesting? m (f x) = some m) : nesting? m (xs.flatMap f) = some m := by
  induction xs with
  | nil => simp
  | cons x xs ih =>
    rw [List.flatMap_cons, nesting?_append_of_some (h x List.mem_cons_self)]
    exact ih fun y hy => h y (List.mem_cons_of_mem _ hy)

/-- Blocks that are open from the start can be added. -/
theorem nesting?_add (h : nesting? m t = some n) (k : Nat) :
    nesting? (m + k) t = some (n + k) := by
  induction t generalizing m with
  | nil =>
    obtain rfl : m = n := by simpa using h
    simp
  | cons c t ih =>
    rcases brace_cases c with rfl | rfl | ⟨hopen, hclose⟩
    · rw [nesting?_open] at h ⊢
      rw [Nat.add_right_comm]
      exact ih h
    · cases m with
      | zero => simp at h
      | succ m =>
        rw [nesting?_close_succ] at h
        rw [Nat.add_right_comm, nesting?_close_succ]
        exact ih h
    · rw [nesting?_cons_of_ne hopen hclose] at h ⊢
      exact ih h

/-- A text without braces keeps the depth, whatever else is in it. -/
theorem nesting?_of_not_mem (hopen : '{' ∉ t) (hclose : '}' ∉ t) :
    nesting? m t = some m := by
  induction t with
  | nil => simp
  | cons c t ih =>
    rw [List.mem_cons, not_or] at hopen hclose
    rw [nesting?_cons_of_ne (Ne.symm hopen.1) (Ne.symm hclose.1)]
    exact ih hopen.2 hclose.2

/-- **The depth in terms of the braces**: no part from the start closes more blocks than
are open, and the blocks that are left are counted. -/
theorem nesting?_eq_some_iff : nesting? m t = some n ↔
    (∀ u, u <+: t → u.count '}' ≤ m + u.count '{') ∧
    n + t.count '}' = m + t.count '{' := by
  induction t generalizing m with
  | nil =>
    simp only [nesting?_nil, Option.some.injEq, List.prefix_nil, forall_eq,
      List.count_nil]
    omega
  | cons c t ih =>
    -- A part from the start is empty, or it is `c` and a part of the rest.
    have hfronts : (∀ u, u <+: c :: t → u.count '}' ≤ m + u.count '{') ↔
        ∀ u, u <+: t → (c :: u).count '}' ≤ m + (c :: u).count '{' := by
      constructor
      · exact fun h u hu => h (c :: u) (List.cons_prefix_cons.mpr ⟨rfl, hu⟩)
      · intro h u hu
        rcases List.prefix_cons_iff.mp hu with rfl | ⟨v, rfl, hv⟩
        · simp
        · exact h v hv
    rw [hfronts]
    rcases brace_cases c with rfl | rfl | ⟨hopen, hclose⟩
    · have hcount : ∀ u : Text, ('{' :: u).count '}' = u.count '}' := fun u =>
        List.count_cons_of_ne (by decide)
      simp only [nesting?_open, ih, hcount, List.count_cons_self]
      refine and_congr (forall₂_congr fun u _ => ?_) ?_ <;> omega
    · have hcount : ∀ u : Text, ('}' :: u).count '{' = u.count '{' := fun u =>
        List.count_cons_of_ne (by decide)
      simp only [hcount, List.count_cons_self]
      cases m with
      | zero =>
        -- The brace alone closes one block too many.
        simp only [nesting?_close_zero, reduceCtorEq, false_iff, not_and]
        intro h
        exact absurd (h [] List.nil_prefix) (by simp)
      | succ m =>
        rw [nesting?_close_succ, ih]
        refine and_congr (forall₂_congr fun u _ => ?_) ?_ <;> omega
    · have hcount : ∀ u : Text, (c :: u).count '{' = u.count '{' :=
        fun u => List.count_cons_of_ne hopen
      have hcount' : ∀ u : Text, (c :: u).count '}' = u.count '}' := fun u =>
        List.count_cons_of_ne hclose
      rw [nesting?_cons_of_ne hopen hclose, ih]
      simp only [hcount, hcount']

/-! ## Balanced texts -/

/-- A text that closes the blocks it opens and no others: no part from the start has
more closing than opening braces, and the whole text has equally many. -/
structure IsBalanced (t : Text) : Prop where
  count_le : ∀ u, u <+: t → u.count '}' ≤ u.count '{'
  count_eq : t.count '{' = t.count '}'

/-- A text is balanced if the pass over it leads from depth zero back to depth zero. -/
theorem isBalanced_iff : IsBalanced t ↔ nesting? 0 t = some 0 := by
  simp only [nesting?_eq_some_iff, Nat.zero_add]
  constructor
  · rintro ⟨hle, heq⟩
    exact ⟨hle, heq.symm⟩
  · rintro ⟨hle, heq⟩
    exact ⟨hle, heq.symm⟩

instance (t : Text) : Decidable (IsBalanced t) :=
  decidable_of_iff _ isBalanced_iff.symm

end Text

/-! ## Where blocks are closed -/

namespace Block

open Text

variable {m n : Nat} {c : Char} {s t r : Text}

/-- An opening brace has one more block to be closed. -/
theorem lengthFrom?_open :
    lengthFrom? m ('{' :: t) = (lengthFrom? (m + 1) t).map (· + 1) :=
  rfl

/-- The last closing brace ends the walk. -/
theorem lengthFrom?_close_one : lengthFrom? 1 ('}' :: t) = some 1 :=
  rfl

/-- Any other closing brace has one block less to be closed. -/
theorem lengthFrom?_close_succ :
    lengthFrom? (m + 2) ('}' :: t) = (lengthFrom? (m + 1) t).map (· + 1) :=
  rfl

/-- Any other character is walked over. -/
theorem lengthFrom?_cons_of_ne (hopen : c ≠ '{') (hclose : c ≠ '}') :
    lengthFrom? m (c :: t) = (lengthFrom? m t).map (· + 1) := by
  simp [lengthFrom?, hopen, hclose]

/-- A block is left open by the texts that close only blocks inside it. -/
theorem lengthFrom?_eq_none_iff :
    lengthFrom? (m + 1) t = none ↔ ∃ n, nesting? m t = some n := by
  induction t generalizing m with
  | nil => simp [lengthFrom?]
  | cons c t ih =>
    rcases brace_cases c with rfl | rfl | ⟨hopen, hclose⟩
    · rw [lengthFrom?_open, Option.map_eq_none_iff, nesting?_open, ih]
    · cases m with
      | zero => simp [lengthFrom?_close_one]
      | succ m =>
        rw [lengthFrom?_close_succ, Option.map_eq_none_iff, nesting?_close_succ, ih]
    · rw [lengthFrom?_cons_of_ne hopen hclose, Option.map_eq_none_iff,
        nesting?_cons_of_ne hopen hclose, ih]

/-- What leaves a block open is passed over in the search for its end. -/
theorem lengthFrom?_append (h : nesting? m t = some n) :
    lengthFrom? (m + 1) (t ++ r) = (lengthFrom? (n + 1) r).map (· + t.length) := by
  induction t generalizing m with
  | nil =>
    obtain rfl : m = n := by simpa using h
    simp
  | cons c t ih =>
    have hnext : ∀ x : Option Nat,
        (x.map (· + t.length)).map (· + 1) = x.map (· + (c :: t).length) := by
      intro x
      rw [Option.map_map, List.length_cons]
      rfl
    rw [List.cons_append, ← hnext]
    rcases brace_cases c with rfl | rfl | ⟨hopen, hclose⟩
    · rw [lengthFrom?_open, ih (by simpa using h)]
    · cases m with
      | zero => simp at h
      | succ m => rw [lengthFrom?_close_succ, ih (by simpa using h)]
    · rw [nesting?_cons_of_ne hopen hclose] at h
      rw [lengthFrom?_cons_of_ne hopen hclose, ih h]

/-- **A block that is open before a balanced text is closed behind it.**  Here `p` opens
`n` blocks more than it closes, and `q` closes these. -/
theorem exists_lt_of_length?_eq_none {p q u v : Text} (hp : nesting? 0 p = some n)
    (hs : nesting? 0 s = some 0) (hq : nesting? n q = some 0) (huv : p = u ++ '{' :: v)
    (hopen : length? ('{' :: v) = none) :
    ∃ k, length? ('{' :: (v ++ s ++ q)) = some k ∧ ('{' :: (v ++ s)).length < k := by
  rw [length?, lengthFrom?_open, Option.map_eq_none_iff, lengthFrom?_eq_none_iff] at hopen
  -- Of the blocks that are open behind `p`, `j` were opened in `v`, and one by the brace.
  obtain ⟨j, hj⟩ := hopen
  have hlt : j < n := by
    rw [huv, nesting?_append, Option.bind_eq_some_iff] at hp
    obtain ⟨i, -, hi⟩ := hp
    have hbrace : nesting? (i + 1) v = some (j + (i + 1)) := by
      simpa using nesting?_add hj (i + 1)
    rw [nesting?_open, hbrace] at hi
    have := Option.some.inj hi
    omega
  have hvs : nesting? 0 (v ++ s) = some j := by
    rw [nesting?_append_of_some hj]
    simpa using nesting?_add hs j
  -- If `q` left the block of the brace open, it would not close all blocks.
  obtain ⟨k, hk⟩ : ∃ k, lengthFrom? (j + 1) q = some k := by
    rw [← Option.ne_none_iff_exists', Ne, lengthFrom?_eq_none_iff]
    rintro ⟨i, hi⟩
    have hall := nesting?_add hi (n - j)
    rw [Nat.add_sub_cancel' (Nat.le_of_lt hlt), hq] at hall
    have := Option.some.inj hall
    omega
  refine ⟨k + (v ++ s).length + 1, ?_, ?_⟩
  · rw [length?, lengthFrom?_open, lengthFrom?_append hvs, hk]
    rfl
  · have hpos := lengthFrom?_pos hk
    simp only [List.length_cons]
    omega

end Block

end StrategyDialect
