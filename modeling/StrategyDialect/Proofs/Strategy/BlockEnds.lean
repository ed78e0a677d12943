import Mathlib.Order.Bounds.Basic
import StrategyDialect.Proofs.Strategy.EntryBodies
import StrategyDialect.Proofs.Strategy.Nesting
import StrategyDialect.Proofs.Text.Utf8

/-!
# Where blocks end

The end of a block is found by a walk from its opening brace that counts the blocks that
are open.  The walk ends where none is open any more.  This is the first place at all
where as many braces have been closed as opened (`Block.EndsAt`), and the walk finds it
if there is one.

A walk could also meet a closing brace while no block is open, and would have to give up
(`Block.Walk.underflow`).  This cannot happen from an opening brace: its own block is
open until the walk ends (`Block.walk_succ`).  And the parameters of a strategy are read
with walks from opening braces only, whatever the dialect is: the head of an entry
method ends with a brace, and so does the declaration of a property, of which the brace
is the tail.

The walk counts bytes, as positions in a file do; everything else counts characters.

## Main definitions

* `Block.stop?`: where the block ends that starts at a position
* `Block.IsEven`, `Block.EndsAt`: stretches with as many closing as opening braces, and
  the first of them
* `Block.walk`: the walk, with all its outcomes

## Main statements

* `Block.length?_cons_eq_some_iff`: a block is a balanced text between two braces
* `Block.walk_succ`: inside a block, a walk ends at the brace that closes the block, if
  there is one
* `Dialect.walks_end`: the walks from all braces, and the braces from which parameters
  are read
-/

namespace StrategyDialect

namespace Block

open Text

/-! ## The end of a block -/

/-- The position behind the block that starts at a position. -/
def stop? (source : Text) (start : Nat) : Option Nat :=
  (length? (source.drop start)).map (start + ·)

/-- A stretch of a text that is not empty and has as many closing as opening braces. -/
structure IsEven (source : Text) (start stop : Nat) : Prop where
  lt : start < stop
  le : stop ≤ source.length
  count_eq : (source.extract start stop).count '}' = (source.extract start stop).count '{'

/-- The block that starts at `start` ends at `stop`: this is the first end of a stretch
with as many closing as opening braces, it is behind a closing brace, and everywhere
before it more braces have been opened than closed. -/
structure EndsAt (source : Text) (start stop : Nat) : Prop where
  isLeast : IsLeast {k | IsEven source start k} stop
  close : source[stop - 1]? = some '}'
  count_lt : ∀ k, start < k → k < stop →
    (source.extract start k).count '}' < (source.extract start k).count '{'

variable {m n k start stop offset : Nat} {source t u r : Text}

/-- A block is left where nothing inside it is open. -/
theorem lengthFrom?_succ_eq_some_iff :
    lengthFrom? (m + 1) t = some n ↔
      ∃ u v, t = u ++ '}' :: v ∧ nesting? m u = some 0 ∧ n = u.length + 1 := by
  constructor
  · intro h
    induction t generalizing m n with
    | nil => cases h
    | cons c t ih =>
      rcases brace_cases c with rfl | rfl | ⟨hopen, hclose⟩
      · rw [lengthFrom?_open, Option.map_eq_some_iff] at h
        obtain ⟨n, h, rfl⟩ := h
        obtain ⟨u, v, rfl, hu, rfl⟩ := ih h
        exact ⟨'{' :: u, v, rfl, by simpa using hu, rfl⟩
      · cases m with
        | zero =>
          obtain rfl := Option.some.inj h
          exact ⟨[], t, rfl, rfl, rfl⟩
        | succ m =>
          rw [lengthFrom?_close_succ, Option.map_eq_some_iff] at h
          obtain ⟨n, h, rfl⟩ := h
          obtain ⟨u, v, rfl, hu, rfl⟩ := ih h
          exact ⟨'}' :: u, v, rfl, by simpa using hu, rfl⟩
      · rw [lengthFrom?_cons_of_ne hopen hclose, Option.map_eq_some_iff] at h
        obtain ⟨n, h, rfl⟩ := h
        obtain ⟨u, v, rfl, hu, rfl⟩ := ih h
        exact ⟨c :: u, v, rfl, by rwa [nesting?_cons_of_ne hopen hclose], rfl⟩
  · rintro ⟨u, v, rfl, hu, rfl⟩
    rw [lengthFrom?_append hu, lengthFrom?_close_one, Option.map_some, Nat.add_comm]

/-- **A block** is a balanced text between two braces. -/
theorem length?_cons_eq_some_iff :
    length? ('{' :: t) = some n ↔
      ∃ u v, t = u ++ '}' :: v ∧ IsBalanced u ∧ n = u.length + 2 := by
  rw [length?, lengthFrom?_open, Option.map_eq_some_iff]
  simp only [lengthFrom?_succ_eq_some_iff, isBalanced_iff]
  constructor
  · rintro ⟨_, ⟨u, v, ht, hu, rfl⟩, rfl⟩
    exact ⟨u, v, ht, hu, rfl⟩
  · rintro ⟨u, v, ht, hu, rfl⟩
    exact ⟨u.length + 1, ⟨u, v, ht, hu, rfl⟩, rfl⟩

/-- Behind a brace, more braces have been opened than closed as long as nothing else has
been closed. -/
theorem count_take_lt (hu : ∀ w, w <+: u → w.count '}' ≤ w.count '{') (hpos : 0 < k)
    (hk : k ≤ u.length + 1) :
    (('{' :: (u ++ r)).take k).count '}' < (('{' :: (u ++ r)).take k).count '{' := by
  obtain ⟨j, rfl⟩ := Nat.exists_eq_succ_of_ne_zero (Nat.ne_of_gt hpos)
  rw [List.take_succ_cons, List.take_append_of_le_length (by omega), List.count_cons_self,
    List.count_cons_of_ne (by decide)]
  have hle := hu (u.take j) (List.take_prefix j u)
  omega

/-! ## Stretches of a source -/

/-- A stretch given by its length, as the walks have it, instead of by its end. -/
theorem extract_add (source : Text) (start n : Nat) :
    source.extract start (start + n) = (source.drop start).take n := by
  rw [List.extract_eq_take_drop, Nat.add_sub_cancel_left]

/-- The rest of a source from one of its characters on. -/
theorem exists_drop_eq_cons {c : Char} (h : source[start]? = some c) :
    ∃ t, source.drop start = c :: t := by
  rw [← List.head?_drop] at h
  exact List.head?_eq_some_iff.mp h

/-- In a block, no stretch from its start is even before the block ends. -/
theorem count_extract_lt (h : source.drop start = '{' :: (u ++ r))
    (hu : ∀ w, w <+: u → w.count '}' ≤ w.count '{') (hstart : start < k)
    (hk : k ≤ start + (u.length + 1)) :
    (source.extract start k).count '}' < (source.extract start k).count '{' := by
  obtain ⟨j, rfl⟩ := Nat.exists_eq_add_of_le (Nat.le_of_lt hstart)
  rw [extract_add, h]
  exact count_take_lt hu (by omega) (by omega)

/-- A balanced text between two braces is a block that ends behind the second: no
shorter stretch is even, since the first brace is still open in it. -/
theorem endsAt_of_drop_eq (h : source.drop start = '{' :: (u ++ '}' :: r))
    (hu : IsBalanced u) : EndsAt source start (start + (u.length + 2)) := by
  have hlength := congrArg List.length h
  simp only [List.length_drop, List.length_cons, List.length_append] at hlength
  have hlt : ∀ k, start < k → k < start + (u.length + 2) →
      (source.extract start k).count '}' < (source.extract start k).count '{' :=
    fun k hstart hk => count_extract_lt h hu.count_le hstart (by omega)
  have htake : source.extract start (start + (u.length + 2)) = '{' :: (u ++ ['}']) := by
    rw [extract_add, h, List.take_succ_cons, List.take_length_add_append]
    rfl
  refine ⟨⟨⟨by omega, by omega, ?_⟩, fun k hk => ?_⟩, ?_, hlt⟩
  · rw [htake]
    simp [hu.count_eq]
  · by_contra hless
    exact absurd hk.count_eq (Nat.ne_of_lt (hlt k hk.lt (by omega)))
  · rw [show start + (u.length + 2) - 1 = start + (u.length + 1) by omega,
      ← List.getElem?_drop, h]
    simp

/-- The end that is found is the end of the block. -/
theorem endsAt_of_stop?_eq_some (hopen : source[start]? = some '{')
    (h : stop? source start = some stop) : EndsAt source start stop := by
  obtain ⟨t, ht⟩ := exists_drop_eq_cons hopen
  rw [stop?, ht, Option.map_eq_some_iff] at h
  obtain ⟨n, hn, rfl⟩ := h
  obtain ⟨u, v, rfl, hu, rfl⟩ := length?_cons_eq_some_iff.mp hn
  exact endsAt_of_drop_eq ht hu

/-- A block without an end has no even stretch. -/
theorem not_isEven_of_stop?_eq_none (hopen : source[start]? = some '{')
    (h : stop? source start = none) (k : Nat) : ¬IsEven source start k := by
  intro hk
  obtain ⟨t, ht⟩ := exists_drop_eq_cons hopen
  rw [stop?, ht, Option.map_eq_none_iff, length?, lengthFrom?_open,
    Option.map_eq_none_iff, lengthFrom?_eq_none_iff] at h
  obtain ⟨n, hn⟩ := h
  have hlength := congrArg List.length ht
  simp only [List.length_drop, List.length_cons] at hlength
  have hlt := count_extract_lt (r := []) (by simpa using ht)
    (by simpa using (nesting?_eq_some_iff.mp hn).1) hk.lt (by have := hk.le; omega)
  exact absurd hk.count_eq (Nat.ne_of_lt hlt)

/-! ## Walks -/

/-- How a walk through a text ends. -/
inductive Walk where
  /-- All blocks are closed before the position. -/
  | closed (stop : Nat)
  /-- There is no more text, and blocks are open. -/
  | unclosed
  /-- A brace closes a block, and none is open. -/
  | underflow
deriving DecidableEq

/-- The walk through a text that starts at `offset`, counted in bytes, with `depth`
blocks that are open. -/
def walk (depth offset : Nat) : Text → Walk
  | [] => .unclosed
  | c :: t =>
    if c = '{' then walk (depth + 1) (offset + c.utf8Size) t
    else if c = '}' then
      match depth with
      | 0 => .underflow
      | 1 => .closed (offset + 1)
      | depth + 2 => walk (depth + 1) (offset + c.utf8Size) t
    else walk depth (offset + c.utf8Size) t

/-- The number of bytes before a character. -/
def byteOffset (source : Text) (n : Nat) : Nat :=
  (toUtf8 (source.take n)).length

/-- The bytes before a later character are those before the earlier one and those of the
characters between the two. -/
theorem byteOffset_add (source : Text) (m n : Nat) :
    byteOffset source (m + n) = byteOffset source m
      + (toUtf8 ((source.drop m).take n)).length := by
  rw [byteOffset, byteOffset, List.take_add, Utf8.toUtf8_append, List.length_append]

/-- The walk that ends behind some characters of the text, or with the text. -/
def Walk.behind (offset : Nat) (t : Text) (found : Option Nat) : Walk :=
  found.elim .unclosed fun n => .closed (offset + (toUtf8 (t.take n)).length)

/-- Where a walk ends behind the first character, the byte that it has reached is
counted from behind that character.  This is what a step of the induction needs. -/
theorem Walk.behind_cons (offset : Nat) (c : Char) (t : Text) (found : Option Nat) :
    behind offset (c :: t) (found.map (· + 1)) =
      behind (offset + c.utf8Size) t found := by
  cases found with
  | none => rfl
  | some n => simp [behind, Utf8.length_toUtf8_cons, Nat.add_assoc]

/-- A character that is no brace is walked over. -/
theorem walk_cons_of_ne {c : Char} (hopen : c ≠ '{') (hclose : c ≠ '}') :
    walk m offset (c :: t) = walk m (offset + c.utf8Size) t := by
  simp [walk, hopen, hclose]

/-- **Inside a block**, a walk ends behind the brace that closes the block, or there is
none.  What is left to walk through is again inside a block, so a block is open at every
closing brace. -/
theorem walk_succ (m offset : Nat) (t : Text) :
    walk (m + 1) offset t = .behind offset t (lengthFrom? (m + 1) t) := by
  induction t generalizing m offset with
  | nil => rfl
  | cons c t ih =>
    rcases brace_cases c with rfl | rfl | ⟨hopen, hclose⟩
    · rw [lengthFrom?_open, Walk.behind_cons, ← ih]
      rfl
    · cases m with
      | zero => rfl
      | succ m =>
        rw [lengthFrom?_close_succ, Walk.behind_cons, ← ih]
        rfl
    · rw [lengthFrom?_cons_of_ne hopen hclose, Walk.behind_cons, ← ih,
        walk_cons_of_ne hopen hclose]

/-- A walk from a brace ends where the block ends that starts there. -/
theorem walk_of_getElem? (hopen : source[start]? = some '{') :
    walk 0 (byteOffset source start) (source.drop start) =
      (stop? source start).elim .unclosed fun stop =>
        .closed (byteOffset source stop) := by
  obtain ⟨t, ht⟩ := exists_drop_eq_cons hopen
  have hwalk : walk 0 (byteOffset source start) ('{' :: t) =
      .behind (byteOffset source start) ('{' :: t) (length? ('{' :: t)) := by
    rw [length?, lengthFrom?_open, Walk.behind_cons, ← walk_succ]
    rfl
  rw [ht, hwalk, stop?, ht]
  cases length? ('{' :: t) with
  | none => rfl
  | some n =>
    show Walk.closed _ = .closed _
    rw [byteOffset_add, ht]

/-- What a walk from a brace finds.  It finds an end exactly if there is an even
stretch, and this is the end of the block; in bytes it is behind a character of the
source.  The walk never gives up. -/
structure WalkEnds (source : Text) (start : Nat) : Prop where
  exists_iff : (∃ stop, stop? source start = some stop) ↔ ∃ stop, IsEven source start stop
  endsAt : ∀ stop, stop? source start = some stop → EndsAt source start stop
  walk_eq : walk 0 (byteOffset source start) (source.drop start) =
    (stop? source start).elim .unclosed fun stop => .closed (byteOffset source stop)
  isBoundary : ∀ e, walk 0 (byteOffset source start) (source.drop start) = .closed e →
    e ≤ (toUtf8 source).length ∧ Utf8.IsValid ((toUtf8 source).take e) ∧
    Utf8.IsValid ((toUtf8 source).drop e)
  ne_underflow : walk 0 (byteOffset source start) (source.drop start) ≠ .underflow

/-- The bytes before a character are a text, and so are the others. -/
theorem isBoundary_byteOffset (source : Text) (n : Nat) :
    byteOffset source n ≤ (toUtf8 source).length ∧
      Utf8.IsValid ((toUtf8 source).take (byteOffset source n)) ∧
      Utf8.IsValid ((toUtf8 source).drop (byteOffset source n)) := by
  have hsplit : toUtf8 source = toUtf8 (source.take n) ++ toUtf8 (source.drop n) := by
    rw [← Utf8.toUtf8_append, List.take_append_drop]
  rw [hsplit]
  exact ⟨by simp [byteOffset], ⟨_, List.take_left⟩, ⟨_, List.drop_left⟩⟩

/-- **A walk from a brace ends with the block**, and never with a closing brace too
many. -/
theorem walkEnds_of_getElem? (hopen : source[start]? = some '{') :
    WalkEnds source start := by
  have hwalk := walk_of_getElem? hopen
  refine ⟨⟨?_, ?_⟩, fun stop => endsAt_of_stop?_eq_some hopen, hwalk, fun e he => ?_, ?_⟩
  · rintro ⟨stop, hstop⟩
    exact ⟨stop, (endsAt_of_stop?_eq_some hopen hstop).isLeast.1⟩
  · rintro ⟨stop, heven⟩
    rw [← Option.ne_none_iff_exists']
    exact fun hnone => not_isEven_of_stop?_eq_none hopen hnone stop heven
  · rw [hwalk] at he
    cases hstop : stop? source start with
    | none =>
      rw [hstop] at he
      cases he
    | some stop =>
      rw [hstop] at he
      cases he
      exact isBoundary_byteOffset source stop
  · rw [hwalk]
    cases stop? source start <;> exact Walk.noConfusion

end Block

/-! ## The braces of a strategy -/

namespace Dialect

open Text Cursor Pattern Block

variable {d : Dialect} {source : Text}

/-- The head of an entry method ends with a brace. -/
theorem getElem?_of_mem_entryHeads {m : Match Empty}
    (hm : m ∈ d.entryHeadPattern.matchesIn source) :
    source[m.stop.offset - 1]? = some '{' := by
  obtain ⟨htext, hat⟩ := matchAt_of_mem_matchesIn hm
  have hmatch := matches_of_matchAt_eq_some hat
  obtain ⟨front, rest, -, hstop⟩ := exists_front_of_matches hmatch
  rw [← htext, ← hmatch.text_eq, hstop]
  simp [text, offset]

/-- The bodies of the entry method are found from the braces of its heads. -/
theorem entryBodies_eq_map_stop? (d : Dialect) (source : Text) :
    d.entryBodies source = (d.entryHeadPattern.matchesIn source).map fun m =>
      ⟨m.stop.offset - 1, (stop? source (m.stop.offset - 1)).getD source.length⟩ := by
  rw [entryBodies_eq]
  refine List.map_congr_left fun m _ => ?_
  rw [bodyAt, stop?]
  cases length? (source.drop (m.stop.offset - 1)) <;> rfl

/-- Where the tail of a declaration is a brace, its default is looked for behind the
block. -/
theorem exists_of_mem_declarations {m : Match DeclarationPart}
    (hm : m ∈ d.declarationPattern.matchesIn source)
    (htail : m.groupText? .tail = some ['{']) :
    ∃ f, m.group? .tail = some (f, m.stop) ∧ source[f.offset]? = some '{' ∧
      inlineDefault? ['{'] m.stop.rest =
        (stop? source f.offset).bind fun stop =>
          Assignment.value? (source.drop stop) := by
  obtain ⟨htext, hat⟩ := matchAt_of_mem_matchesIn hm
  obtain ⟨f, t, -, hgroup, hreads⟩ := exists_tail_of_matchAt_eq_some hat
  rw [Match.groupText?, hgroup, Option.map_some, hreads.textTo_eq] at htail
  obtain rfl := Option.some.inj htail
  have hsource : source = f.before.reverse ++ '{' :: m.stop.rest := by
    rw [← htext, ← (matches_of_matchAt_eq_some hat).text_eq, hreads.text_eq,
      text_eq_append, hreads.rest_eq]
    rfl
  have hoffset : f.offset = f.before.reverse.length := by
    rw [offset, List.length_reverse]
  have hdrop : source.drop f.offset = '{' :: m.stop.rest := by
    rw [hsource, hoffset, List.drop_left]
  refine ⟨f, hgroup, ?_, ?_⟩
  · rw [← List.head?_drop, hdrop]
    rfl
  · rw [inlineDefault?, if_pos rfl, stop?, hdrop]
    show ((length? ('{' :: m.stop.rest)).bind fun n =>
      Assignment.value? (('{' :: m.stop.rest).drop n)) = _
    rw [← hdrop, Option.bind_map]
    refine Option.bind_congr fun n _ => ?_
    rw [Function.comp_apply, List.drop_drop]

/-- **Walks from braces end with the block**, and parameters are read with no others: in
every source and for every dialect, the bodies of the entry method start at braces, and
so do the blocks behind which a default is looked for. -/
theorem walks_end (d : Dialect) (source : Text) :
    (∀ start, source[start]? = some '{' → WalkEnds source start) ∧
      (∀ m ∈ d.entryHeadPattern.matchesIn source, source[m.stop.offset - 1]? = some '{') ∧
      d.entryBodies source = (d.entryHeadPattern.matchesIn source).map (fun m =>
        ⟨m.stop.offset - 1, (stop? source (m.stop.offset - 1)).getD source.length⟩) ∧
      ∀ m ∈ d.declarationPattern.matchesIn source, m.groupText? .tail = some ['{'] →
        ∃ f, m.group? .tail = some (f, m.stop) ∧ source[f.offset]? = some '{' ∧
          inlineDefault? ['{'] m.stop.rest =
            (stop? source f.offset).bind fun stop =>
              Assignment.value? (source.drop stop) :=
  ⟨fun _ => walkEnds_of_getElem?, fun _ => getElem?_of_mem_entryHeads,
    entryBodies_eq_map_stop? d source,
    fun _ => exists_of_mem_declarations⟩

/-- A property with a body that has a character of two bytes, and an entry method that
is cut off. -/
def cutOffEntry : Text :=
  "é[Input]int N\x7b'é'\x7d=3;void CalcBar()\x7b".toList

/-- The body of the property ends, that of the method does not. -/
theorem walks_end_cutOffEntry :
    cutOffEntry[13]? = some '{' ∧ EndsAt cutOffEntry 13 18 ∧
      walk 0 14 (cutOffEntry.drop 13) = .closed 20 ∧
      cutOffEntry[35]? = some '{' ∧ (¬∃ stop, IsEven cutOffEntry 35 stop) ∧
      (∃ m ∈ powerLanguage.entryHeadPattern.matchesIn cutOffEntry,
        cutOffEntry[m.stop.offset - 1]? = some '{') ∧
      ∃ m ∈ powerLanguage.declarationPattern.matchesIn cutOffEntry,
        m.groupText? .tail = some ['{'] ∧
        ∃ f, m.group? .tail = some (f, m.stop) ∧ cutOffEntry[f.offset]? = some '{' := by
  have hproperty : cutOffEntry[13]? = some '{' := by decide
  have hmethod : cutOffEntry[35]? = some '{' := by cbv
  have hstop : stop? cutOffEntry 13 = some 18 := by decide
  have hnone : stop? cutOffEntry 35 = none := by cbv
  have hheads : powerLanguage.entryHeadPattern.matchesIn cutOffEntry ≠ [] :=
    List.ne_nil_of_length_pos (by decide +kernel)
  have htails : (powerLanguage.declarationPattern.matchesIn cutOffEntry).any
      (·.groupText? .tail == some ['{']) = true := by decide +kernel
  obtain ⟨hwalks, hbraces, -, htail⟩ := walks_end powerLanguage cutOffEntry
  obtain ⟨head, hhead⟩ := List.exists_mem_of_ne_nil _ hheads
  obtain ⟨m, hm, hbrace⟩ := List.any_eq_true.mp htails
  obtain ⟨f, hgroup, hf, -⟩ := htail m hm (eq_of_beq hbrace)
  refine ⟨hproperty, (hwalks 13 hproperty).endsAt 18 hstop, ?_, hmethod, ?_,
    ⟨head, hhead, hbraces head hhead⟩, m, hm, eq_of_beq hbrace, f, hgroup, hf⟩
  · have hwalk := (hwalks 13 hproperty).walk_eq
    rwa [hstop] at hwalk
  · rw [← (hwalks 35 hmethod).exists_iff, hnone]
    rintro ⟨stop, h⟩
    cases h

end Dialect

end StrategyDialect
