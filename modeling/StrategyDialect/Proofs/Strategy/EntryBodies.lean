import StrategyDialect.Proofs.Strategy.Extraction

/-!
# Bodies of the entry method

The search for the entry method takes matches that do not overlap, so a head that starts
inside another one is passed over.  No body is lost: a head ends with the first closing
parenthesis, and the blanks and the brace after it, so two heads that overlap end with
the same brace (`Dialect.stop_eq_of_overlap`).  The bodies that are computed are
therefore the bodies of all heads (`Dialect.any_entryBodies_iff`).

A method may also be given by an expression, and no search looks for these.

## Main definitions

* `Dialect.EndsEntryHead`: a text that ends with the head of an entry method
* `Dialect.InBlockBody`, `Dialect.InExpressionBody`: the positions in a body of the
  entry method

## Main statements

* `Dialect.any_entryBodies_iff`: the bodies that are computed are the blocks of the
  entry method
-/

namespace StrategyDialect

namespace Dialect

open Text Cursor Pattern

/-! ### Bodies -/

/-- A text that ends with the head of an entry method, up to where its body starts. -/
def EndsEntryHead (d : Dialect) (front : Text) : Prop :=
  ∃ u w w' arguments w'' : Text, isWordAt u.getLast? = false ∧ w ≠ [] ∧ w.IsBlank ∧
    w'.IsBlank ∧ ')' ∉ arguments ∧
    w''.IsBlank ∧
    front = u
      ++ ("void".toList ++ w ++ d.entryMethod ++ w' ++ ['('] ++ arguments ++ [')'] ++ w'')

/-- Whether a position lies in a block that is the body of an entry method.  A block
that is not closed reaches to the end of the source. -/
def InBlockBody (d : Dialect) (source : Text) (n : Nat) : Prop :=
  ∃ front rest : Text, source = front ++ '{' :: rest ∧ d.EndsEntryHead front ∧
    front.length ≤ n ∧
    ∀ k, Block.length? ('{' :: rest) = some k → n < front.length + k

/-- The number of characters up to the semicolon that ends an expression inside `depth`
open blocks.  The semicolons in blocks belong to the expression. -/
def expressionLength? (depth : Nat) : Text → Option Nat
  | [] => none
  | c :: t =>
    if c = ';' ∧ depth = 0 then some 1
    else
      (expressionLength? (if c = '{' then depth + 1 else if c = '}' then depth - 1
        else depth) t).map (· + 1)

/-- Whether a position lies in an arrow and an expression that are the body of an entry
method.  An expression that is not ended reaches to the end of the source. -/
def InExpressionBody (d : Dialect) (source : Text) (n : Nat) : Prop :=
  ∃ front rest : Text, source = front ++ "=>".toList ++ rest ∧ d.EndsEntryHead front ∧
    front.length ≤ n ∧
    ∀ k, expressionLength? 0 rest = some k → n < front.length + 2 + k

/-! ### Heads -/

variable {d : Dialect} {c e : Cursor} {source : Text}

/-- The head of an entry method, piece by piece: `void`, the name of the method, the
arguments up to the first closing parenthesis, and the brace. -/
theorem matches_entryHeadPattern_iff :
    Matches d.entryHeadPattern c e ↔
      c.meets .wordBoundary = true ∧
        ∃ w w' arguments w'' : Text, w ≠ [] ∧ w.IsBlank ∧ w'.IsBlank ∧
          ')' ∉ arguments ∧ w''.IsBlank ∧
          c.Reads ("void".toList ++ w ++ d.entryMethod ++ w' ++ ['('] ++ arguments
            ++ [')'] ++ w'' ++ ['{']) e := by
  have hsplit : d.entryHeadPattern = Pattern.sequence
      ([boundary, literal "void".toList, blanks1, literal d.entryMethod,
        blanks, char '('] ++ [run (.noneOf ")".toList), char ')', blanks, char '{']) :=
          rfl
  have hclass : ")".toList = [')'] := by decide
  rw [hsplit, matches_sequence_append_iff]
  show (∃ f, Matches (d.entryMethodPattern : Pattern Empty) c f ∧ _) ↔ _
  simp only [matches_entryMethodPattern_iff, matches_sequence_cons_iff,
    matches_sequence_nil_iff, matches_run_iff, matches_blanks_iff, matches_char_iff,
    hclass, CharClass.contains_noneOf, List.mem_singleton]
  constructor
  · rintro ⟨f, ⟨hc, w, w', hne, hw, hw', hf⟩, g, ⟨arguments, harguments, hg⟩, h, hh, i,
      ⟨w'', hw'', hi⟩, j, hj, rfl⟩
    exact ⟨hc, w, w', arguments, w'', hne, hw, hw',
      fun hmem => harguments _ hmem rfl, hw'',
      (((hf.trans hg).trans hh).trans hi).trans hj⟩
  · rintro ⟨hc, w, w', arguments, w'', hne, hw, hw', harguments, hw'', hreads⟩
    obtain ⟨i, hi, hj⟩ := reads_append_iff.mp hreads
    obtain ⟨h, hh, hi⟩ := reads_append_iff.mp hi
    obtain ⟨g, hg, hh⟩ := reads_append_iff.mp hh
    obtain ⟨f, hf, hg⟩ := reads_append_iff.mp hg
    refine ⟨f, ⟨hc, w, w', hne, hw, hw', hf⟩, g, ⟨arguments, ?_, hg⟩, h, hh, i,
      ⟨w'', hw'', hi⟩, e, hj, rfl⟩
    rintro x hx rfl
    exact harguments hx

/-- A head is a text up to its first closing parenthesis, blanks and a brace. -/
theorem exists_close_of_matches_entryHeadPattern (hd : d.Accepted)
    (h : Matches d.entryHeadPattern c e) :
    ∃ inner w : Text, ')' ∉ 'v' :: inner ∧ w.IsBlank ∧
      c.Reads ('v' :: inner ++ ')' :: (w ++ ['{'])) e := by
  obtain ⟨-, w, w', arguments, w'', -, hw, hw', harguments, hw'', hreads⟩ :=
    matches_entryHeadPattern_iff.mp h
  have hvoid : "void".toList = 'v' :: "oid".toList := by decide
  have hblank : ∀ {w : Text}, w.IsBlank → ')' ∉ w :=
    fun hw hmem => absurd (hw _ hmem) (by decide)
  have hname : ')' ∉ d.entryMethod :=
    fun hmem => absurd (isNameChar_of_mem hd.entryMethod hmem) (by decide)
  refine ⟨"oid".toList ++ w ++ d.entryMethod ++ w' ++ ['('] ++ arguments,
    w'', ?_, hw'', ?_⟩
  · simp [hblank hw, hblank hw', hname, harguments]
  · rw [hvoid] at hreads
    simpa using hreads

/-- Two cuts of a text at the first occurrence of a character are the same. -/
private theorem append_cons_inj {x : Char} {t u v w : Text} (ht : x ∉ t) (hu : x ∉ u)
    (h : t ++ x :: v = u ++ x :: w) : v = w := by
  have hother : ∀ {s : Text}, x ∉ s → ∀ y ∈ s, (y != x) = true := by
    intro s hs y hy
    rw [bne_iff_ne]
    rintro rfl
    exact hs hy
  have hstop : ∀ r : Text, ∀ y ∈ (x :: r).head?, (y != x) = false :=
    forall_mem_head?_cons (by simp)
  exact (List.cons.inj
    (append_inj_of_class h (hother ht) (hother hu) (hstop v) (hstop w)).2).2

/-- **Heads that overlap end with the same brace.**  The later head starts before the
earlier one ends, so the closing parenthesis of both is the first one behind the later
start. -/
theorem stop_eq_of_overlap (hd : d.Accepted) {f g : Cursor} (htext : f.text = c.text)
    (hfirst : Matches d.entryHeadPattern f g) (hsecond : Matches d.entryHeadPattern c e)
    (hle : f.offset ≤ c.offset) (hlt : c.offset < g.offset) : g = e := by
  obtain ⟨inner, w, hinner, hw, hf⟩ := exists_close_of_matches_entryHeadPattern hd hfirst
  obtain ⟨inner', w', hinner', hw', hc⟩ :=
    exists_close_of_matches_entryHeadPattern hd hsecond
  obtain ⟨v, hv⟩ := exists_reads_of_offset_le htext hle
  obtain ⟨left, hleft⟩ :=
    exists_reads_of_offset_le (htext.symm.trans hf.text_eq.symm) (Nat.le_of_lt hlt)
  -- What is left of the first head at the start of the second, in both views.
  have hsplit : 'v' :: inner ++ ')' :: (w ++ ['{']) = v ++ left :=
    hf.textTo_eq.symm.trans (hv.trans hleft).textTo_eq
  have hrest : left ++ g.rest = 'v' :: inner' ++ ')' :: (w' ++ ['{']) ++ e.rest :=
    hleft.rest_eq.symm.trans hc.rest_eq
  rcases List.append_eq_append_iff.mp hsplit with ⟨s, -, hs⟩ | ⟨s, hs, rfl⟩
  · -- Behind the parentheses of the first head there is no letter for a second one to
    -- start with.
    cases left with
    | nil =>
      have hoffset := hleft.offset_eq
      rw [List.length_nil] at hoffset
      omega
    | cons x left =>
      obtain rfl : x = 'v' := (List.cons.inj hrest).1
      have hmem : 'v' ∈ ')' :: (w ++ ['{']) := by simp [hs]
      have hv : 'v' ∉ w := fun hmem => absurd (hw _ hmem) (by decide)
      simp [hv] at hmem
  · -- The second head has the closing parenthesis of the first.
    have hbrace : ∀ {w : Text}, w.IsBlank →
        '{' ∉ w := fun hw hmem => absurd (hw _ hmem) (by decide)
    have hs' : ')' ∉ s := fun hmem => hinner (by simp [hs, hmem])
    have hrest' : s ++ ')' :: (w ++ '{' :: g.rest) =
        'v' :: inner' ++ ')' :: (w' ++ '{' :: e.rest) := by
      simpa using hrest
    have hclosed : w ++ '{' :: g.rest = w' ++ '{' :: e.rest :=
      append_cons_inj hs' hinner' hrest'
    have hrests : g.rest = e.rest := append_cons_inj (hbrace hw) (hbrace hw') hclosed
    have htexts : g.text = e.text := hf.text_eq.trans (htext.trans hc.text_eq.symm)
    rw [text, text, hrests] at htexts
    have hbefores : g.before = e.before :=
      List.reverse_injective (List.append_cancel_right htexts)
    cases g
    cases e
    simp_all

/-! ### The bodies that are computed -/

/-- Where a block starts, its positions are those up to the brace that closes it. -/
theorem contains_bodyAt_iff {front rest : Text} {n : Nat}
    (hn : n < (front ++ '{' :: rest).length) :
    (bodyAt (front ++ '{' :: rest) front.length).contains n = true ↔
      front.length ≤ n ∧ ∀ k, Block.length? ('{' :: rest) = some k →
        n < front.length + k := by
  rw [bodyAt, List.drop_left]
  cases Block.length? ('{' :: rest) with
  | none => simpa [Span.contains] using fun _ => hn
  | some k => simp [Span.contains]

/-- What the search for heads finds is a head and its opening brace. -/
theorem exists_front_of_matches (h : Matches d.entryHeadPattern c e) :
    ∃ front rest : Text, d.EndsEntryHead front ∧ e = ⟨'{' :: front.reverse, rest⟩ := by
  obtain ⟨hc, w, w', arguments, w'', hne, hw, hw', harguments, hw'', hreads⟩ :=
    matches_entryHeadPattern_iff.mp h
  have hvoid : "void".toList = 'v' :: "oid".toList := by decide
  rw [meets_wordBoundary_start_iff (by rw [hreads.rest_eq, hvoid]; rfl)] at hc
  refine ⟨_, e.rest, ⟨c.before.reverse, w, w', arguments, w'', ?_, hne, hw, hw',
    harguments, hw'', rfl⟩, ?_⟩
  · rwa [List.getLast?_reverse]
  · have hbefore := hreads.before_eq
    cases e
    simpa using hbefore

/-- The search for heads finds a head and its opening brace. -/
theorem EndsEntryHead.exists_matches {front : Text} (h : d.EndsEntryHead front)
    (rest : Text) : ∃ c, Matches d.entryHeadPattern c ⟨'{' :: front.reverse, rest⟩ := by
  obtain ⟨u, w, w', arguments, w'', hu, hne, hw, hw', harguments, hw'', rfl⟩ := h
  have hvoid : "void".toList = 'v' :: "oid".toList := by decide
  refine ⟨⟨u.reverse, "void".toList ++ w ++ d.entryMethod ++ w' ++ ['('] ++ arguments
    ++ [')'] ++ w'' ++ ['{'] ++ rest⟩, matches_entryHeadPattern_iff.mpr
    ⟨?_, w, w', arguments, w'', hne, hw, hw', harguments, hw'', rfl, ?_⟩⟩
  · rw [meets_wordBoundary_start_iff (by rw [hvoid]; rfl)]
    rwa [List.head?_reverse]
  · simp

/-- A head is not empty, so the search goes on behind its start. -/
theorem offset_lt_of_matches_entryHeadPattern (h : Matches d.entryHeadPattern c e) :
    c.offset < e.offset := by
  obtain ⟨u, hu⟩ := h.exists_reads
  have hne : u ≠ [] := ne_nil_of_reads canBeEmpty_entryHeadPattern h hu
  have hlength := List.length_pos_iff.mpr hne
  rw [hu.offset_eq]
  omega

/-- **The bodies that are computed** are the blocks of the entry method, wherever its
heads stand. -/
theorem any_entryBodies_iff (hd : d.Accepted) {n : Nat} (hn : n < source.length) :
    (d.entryBodies source).any (·.contains n) = true ↔ d.InBlockBody source n := by
  have hbrace : ∀ front rest : Text,
      (Cursor.mk ('{' :: front.reverse) rest).offset - 1 = front.length := by
    simp [offset]
  have htext : ∀ front rest : Text,
      (Cursor.mk ('{' :: front.reverse) rest).text = front ++ '{' :: rest := by
    simp [text]
  rw [entryBodies_eq, List.any_map, List.any_eq_true]
  constructor
  · rintro ⟨m, hm, hcontains⟩
    obtain ⟨hmtext, hat⟩ := matchAt_of_mem_matchesIn hm
    have hmatch := matches_of_matchAt_eq_some hat
    obtain ⟨front, rest, hhead, hstop⟩ := exists_front_of_matches hmatch
    have hsource : source = front ++ '{' :: rest := by
      rw [← hmtext, ← hmatch.text_eq, hstop, htext]
    subst hsource
    rw [Function.comp_apply, hstop, hbrace, contains_bodyAt_iff hn] at hcontains
    exact ⟨front, rest, rfl, hhead, hcontains⟩
  · rintro ⟨front, rest, rfl, hhead, hinside⟩
    obtain ⟨c, hmatch⟩ := hhead.exists_matches rest
    have hc : c.text = front ++ '{' :: rest := by
      rw [← hmatch.text_eq, htext]
    -- The head may have been passed over, but some listed head ends with its brace.
    obtain ⟨m, hm, hle, hover⟩ := exists_mem_matchesIn hc hmatch
    obtain ⟨hmtext, hat⟩ := matchAt_of_mem_matchesIn hm
    have hfirst := matches_of_matchAt_eq_some hat
    have hlt : c.offset < m.stop.offset := by
      rcases hover with rfl | hlt
      · exact offset_lt_of_matches_entryHeadPattern hfirst
      · exact hlt
    have hstop := stop_eq_of_overlap hd (hmtext.trans hc.symm) hfirst hmatch hle hlt
    refine ⟨m, hm, ?_⟩
    rw [Function.comp_apply, hstop, hbrace, contains_bodyAt_iff hn]
    exact hinside

end Dialect

end StrategyDialect
