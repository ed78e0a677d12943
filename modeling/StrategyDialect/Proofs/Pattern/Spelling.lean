import Mathlib
import StrategyDialect.Pattern.Reader
import StrategyDialect.Proofs.Pattern.Reading
import StrategyDialect.Strategy.PatternText

/-!
# The textual form of patterns

A textual form is put together from pieces, and it is read piece by piece
(`PatternToken.Spells.append`).  One thing stands between that and a statement about each
piece by itself: the mark of a repetition may be followed by a question mark, which
belongs to it.  So a piece is read with any text behind it that starts with something
else (`PatternToken.Spells`), and no piece starts with a question mark.

What the tokens of a piece are assembled to is said together with the piece: the items
that it adds to the group that is being read (`Pattern.Writes`), or the alternatives that
it is a group of (`Pattern.WritesChoice`).  The lemmas about these two follow the grammar
of patterns, one for each way of putting pieces together.

A quoted text is one piece, whatever stands in it (`Pattern.writes_quote`).  This is why
no name makes a pattern malformed.

## Main definitions

* `PatternToken.Spells`: a text and the tokens that are read from it
* `Pattern.Writes`, `Pattern.WritesChoice`: a text with the items or the alternatives
  that are assembled from it

## Main statements

* `PatternToken.spells_quote`: a quoted text spells its characters
* `Pattern.Writes.append`, `Pattern.WritesChoice.group`: pieces next to each other, and a
  group
* `Pattern.WritesChoice.ofText_eq`: a text of alternatives is read as the pattern of them
-/

namespace StrategyDialect

open Pattern

namespace PatternToken

variable {t u : Text} {ts us : List PatternToken} {token : PatternToken}

/-- From `t` the given tokens are read, and nothing of what follows. -/
def Spells (t : Text) (ts : List PatternToken) : Prop :=
  ∀ n r, r.head? ≠ some '?' →
    ∃ k, readUpTo (t.length + n) (t ++ r) = (readUpTo (k + n) r).map (ts ++ ·)

/-- The empty text spells no tokens. -/
theorem spells_nil : Spells [] [] := by
  intro n r _
  refine ⟨0, ?_⟩
  rw [List.nil_append, List.length_nil]
  cases readUpTo (0 + n) r <;> rfl

/-- One token is read, and the others are left to the rounds that remain. -/
private theorem readUpTo_of_read {n : Nat} {c : Char} {r : Text}
    (h : read (c :: t) = .ok (token, r)) :
    readUpTo (n + 1) (c :: t) = (readUpTo n r).map (token :: ·) := by
  rw [readUpTo, h]
  · show (readUpTo n r >>= fun tokens => .ok (token :: tokens)) = _
    cases readUpTo n r <;> rfl
  · exact fun heq => List.cons_ne_nil _ _ heq

/-- A token that does not depend on what follows, and then other tokens. -/
theorem Spells.cons (hne : t ≠ []) (h : ∀ r, read (t ++ r) = .ok (token, r))
    (hu : Spells u us) : Spells (t ++ u) (token :: us) := by
  intro n r hr
  obtain ⟨c, t, rfl⟩ := List.exists_cons_of_ne_nil hne
  obtain ⟨k, hk⟩ := hu (t.length + n) r hr
  have hlength : (c :: t ++ u).length + n = u.length + (t.length + n) + 1 := by
    simp only [List.length_append, List.length_cons]
    omega
  have hread := h (u ++ r)
  rw [List.cons_append] at hread
  refine ⟨k + t.length, ?_⟩
  rw [hlength, List.append_assoc, List.cons_append, readUpTo_of_read hread, hk,
    Nat.add_assoc]
  cases readUpTo (k + (t.length + n)) r <;> rfl

/-- The mark of a repetition, which is not followed by a question mark. -/
theorem spells_repetition {c : Char} {least : Nat} {most : Option Nat}
    (h : ∀ r, read (c :: r) = .ok (repetition least most, afterReluctance r)) :
    Spells [c] [repetition least most] := by
  intro n r hr
  have hafter : afterReluctance r = r := by
    unfold afterReluctance
    split
    next => exact absurd rfl hr
    next => rfl
  have hread := h r
  rw [hafter] at hread
  refine ⟨0, ?_⟩
  show readUpTo (1 + n) (c :: r) = _
  rw [Nat.add_comm 1 n, readUpTo_of_read hread, Nat.zero_add]
  cases readUpTo n r <;> rfl

/-- Two texts spell their tokens one after the other, if the second does not start with
a question mark that the first could take for its own. -/
theorem Spells.append (ht : Spells t ts) (hu : Spells u us) (hhead : u.head? ≠ some '?') :
    Spells (t ++ u) (ts ++ us) := by
  intro n r hr
  have hnext : (u ++ r).head? ≠ some '?' := by
    cases u with
    | nil => exact hr
    | cons c u => exact hhead
  obtain ⟨k, hk⟩ := ht (u.length + n) (u ++ r) hnext
  obtain ⟨j, hj⟩ := hu (k + n) r hr
  have hlength : (t ++ u).length + n = t.length + (u.length + n) := by
    rw [List.length_append, Nat.add_assoc]
  refine ⟨j + k, ?_⟩
  rw [hlength, List.append_assoc, hk, Nat.add_left_comm, hj, Nat.add_assoc]
  cases readUpTo (j + (k + n)) r with
  | ok tokens => exact congrArg Except.ok (List.append_assoc ts us tokens).symm
  | error _ => rfl

/-- A whole text that spells some tokens is read as these.  The number of rounds is the
length of the text, and each token takes one character at least. -/
theorem Spells.readAll_eq (h : Spells t ts) : readAll t = .ok ts := by
  obtain ⟨k, hk⟩ := h 0 [] (by simp)
  have hend : readUpTo (k + 0) [] = .ok [] := by
    unfold readUpTo
    rfl
  rw [List.append_nil, hend] at hk
  rw [readAll]
  exact hk.trans (congrArg Except.ok (List.append_nil ts))

/-! ## Quoted texts -/

/-- The tokens of characters that stand for themselves. -/
def atoms (t : Text) : List PatternToken :=
  t.map fun c => .atom (.char c)

/-- Each of the characters that are quoted stands for itself behind a backslash. -/
theorem escape?_of_mem_specialChars {c : Char} (hc : c ∈ specialChars) :
    escape? c = some (.char c) := by
  change c ∈ (['\\', '.', '+', '*', '?', '(', ')', '|', '[', ']', '\x7b', '\x7d', '^',
    '$', '#', '&', '-', '~'] : List Char) at hc
  fin_cases hc <;> rfl

/-- A character without a meaning of its own is read as it stands. -/
theorem read_of_notMem_specialChars {c : Char} (hc : c ∉ specialChars) (r : Text) :
    read (c :: r) = .ok (.atom (.char c), r) := by
  have hne : ∀ x, x ∈ specialChars → c = x → False := by
    rintro x hx rfl
    exact hc hx
  rw [read]
  all_goals exact hne _ (by decide)

/-- **A quoted text spells its characters**, whatever they are. -/
theorem spells_quote (t : Text) : Spells (quote t) (atoms t) := by
  induction t with
  | nil => exact spells_nil
  | cons c t ih =>
    show Spells ((if specialChars.contains c then ['\\', c] else [c]) ++ quote t)
        (.atom (.char c) :: atoms t)
    split
    next hc =>
      have hescape : escape? c = some (.char c) :=
        escape?_of_mem_specialChars (by simpa using hc)
      refine ih.cons (by simp) fun r => ?_
      show (readEscape (c :: r)).map _ = _
      rw [readEscape, hescape]
      rfl
    next hc => exact ih.cons (by simp) (read_of_notMem_specialChars (by simpa using hc))

/-- A quoted text does not start with a question mark. -/
theorem head?_quote_ne (t : Text) : (quote t).head? ≠ some '?' := by
  cases t with
  | nil => simp [quote]
  | cons c t =>
    show ((if specialChars.contains c then ['\\', c] else [c])
      ++ quote t).head? ≠ some '?'
    split
    next => simp
    next hc =>
      rintro heq
      obtain rfl : c = '?' := by simpa using heq
      exact hc rfl

end PatternToken

/-! ## From tokens to patterns -/

namespace Pattern

open PatternToken

variable {t u name : Text} {ts us : List PatternToken} {names names' : List Text}
  {p : Pattern Text} {ps qs : List (Pattern Text)} {f : Frame} {k : CharClass}

/-- The names of groups are those of the tokens in order. -/
theorem groupNames_append (ts us : List PatternToken) :
    groupNames (ts ++ us) = groupNames ts ++ groupNames us :=
  List.filterMap_append

/-- Single characters open no groups. -/
theorem groupNames_atoms (t : Text) : groupNames (atoms t) = [] := by
  induction t with
  | nil => rfl
  | cons c t ih => exact ih

/-- Characters that stand for themselves are items of the innermost group. -/
theorem foldlM_atoms (t : Text) (f : Frame) (outer : List Frame) :
    (atoms t).foldlM readToken (f, outer) =
      .ok (⟨f.name, f.alternatives, (t.map char).reverse ++ f.items⟩, outer) := by
  induction t generalizing f with
  | nil => rfl
  | cons c t ih =>
    show (atoms t).foldlM readToken (f.push (char c), outer) = _
    rw [ih]
    simp [Frame.push]

/-- Tokens that come after others are read from where the others lead. -/
theorem foldlM_append_of_eq_ok {ts us : List PatternToken}
    {frames frames' : Frame × List Frame} (h : ts.foldlM readToken frames = .ok frames') :
    (ts ++ us).foldlM readToken frames = us.foldlM readToken frames' := by
  rw [List.foldlM_append, h]
  rfl

/-- `t` stands for the items `ps` of the group that it stands in, and names some groups
of its own. -/
structure Writes (t : Text) (names : List Text) (ps : List (Pattern Text)) : Prop where
  /-- The text does not belong to a repetition before it. -/
  head?_ne : t.head? ≠ some '?'
  exists_tokens : ∃ ts, Spells t ts ∧ groupNames ts = names ∧ ∀ f outer,
    ts.foldlM readToken (f, outer) =
      .ok (⟨f.name, f.alternatives, ps.reverse ++ f.items⟩, outer)

/-- `t` stands for the alternatives `qs` of the group that it stands in. -/
structure WritesChoice (t : Text) (names : List Text) (qs : List (Pattern Text)) :
    Prop where
  exists_tokens : ∃ ts, Spells t ts ∧ groupNames ts = names ∧
    ∀ name alternatives outer, ∃ f,
    ts.foldlM readToken (⟨name, alternatives, []⟩, outer) = .ok (f, outer) ∧
    f.name = name ∧
      f.finishAlternative.alternatives = qs.reverse ++ alternatives

/-! ### Items -/

/-- **A quoted text writes its own characters**, one item for each, whichever characters
they are. -/
theorem writes_quote (t : Text) : Writes (quote t) [] (t.map char) where
  head?_ne := head?_quote_ne t
  exists_tokens := ⟨atoms t, spells_quote t, groupNames_atoms t, foldlM_atoms t⟩

/-- A token that is an item by itself, such as a class or an escape. -/
theorem writes_atom (hne : t ≠ []) (hhead : t.head? ≠ some '?')
    (h : ∀ r, read (t ++ r) = .ok (.atom p, r)) : Writes t [] [p] where
  head?_ne := hhead
  exists_tokens := by
    refine ⟨[.atom p], ?_, rfl, fun _ _ => rfl⟩
    simpa using Spells.cons hne h spells_nil

/-- Two texts write their items one after the other, and the groups in them in this
order. -/
theorem Writes.append (ht : Writes t names ps) (hu : Writes u names' qs) :
    Writes (t ++ u) (names ++ names') (ps ++ qs) where
  head?_ne := by
    cases t with
    | nil => exact hu.head?_ne
    | cons c t => exact ht.head?_ne
  exists_tokens := by
    obtain ⟨ts, hts, hnames, hfold⟩ := ht.exists_tokens
    obtain ⟨us, hus, hnames', hfold'⟩ := hu.exists_tokens
    refine ⟨ts ++ us, hts.append hus hu.head?_ne,
      by rw [groupNames_append, hnames, hnames'], fun f outer => ?_⟩
    rw [foldlM_append_of_eq_ok (hfold f outer), hfold']
    simp

/-- The last item is repeated, if it is not too large. -/
theorem readToken_repetition {f : Frame} {outer : List Frame}
    {items : List (Pattern Text)} {least : Nat} {most : Option Nat}
    (hitems : f.items = p :: items)
    (hsize : p.size * max least (most.getD 1) ≤ largestSize) :
    readToken (f, outer) (.repetition least most) =
      .ok (⟨f.name, f.alternatives, p.repeated least most :: items⟩, outer) := by
  rw [readToken, Frame.repeatLast, hitems]
  dsimp only
  rw [if_pos hsize]
  rfl

/-- An item with the mark of a repetition behind it. -/
theorem Writes.repeated {c : Char} {least : Nat} {most : Option Nat}
    (ht : Writes t names [p]) (hc : c ≠ '?')
    (hread : ∀ r, read (c :: r) = .ok (.repetition least most, afterReluctance r))
    (hsize : p.size * max least (most.getD 1) ≤ largestSize) :
    Writes (t ++ [c]) names [p.repeated least most] where
  head?_ne := by
    cases t with
    | nil => simpa using hc
    | cons c t => exact ht.head?_ne
  exists_tokens := by
    obtain ⟨ts, hts, hnames, hfold⟩ := ht.exists_tokens
    refine ⟨ts ++ [.repetition least most],
      hts.append (spells_repetition hread) (by simpa using hc), ?_, ?_⟩
    · rw [groupNames_append, hnames]
      exact List.append_nil names
    · intro f outer
      rw [foldlM_append_of_eq_ok (hfold f outer), List.foldlM_cons,
        readToken_repetition rfl hsize]
      rfl

/-- Any number of rounds of a single item.  The size of the item is bounded, as the
reader refuses patterns that get too large. -/
theorem Writes.star (ht : Writes t names [p]) (hsize : p.size ≤ largestSize) :
    Writes (t ++ ['*']) names [p.anyNumber] := by
  have hrepeated : Writes (t ++ ['*']) names [p.repeated 0 none] :=
    ht.repeated (by decide) (fun _ => rfl) (by simpa using hsize)
  exact hrepeated

/-- At least one character of a class, which the reader makes of a class and a run of
it. -/
theorem Writes.plus (ht : Writes t names [one k]) :
    Writes (t ++ ['+']) names [seq (seq (one k) empty) (run k)] := by
  have hrepeated : Writes (t ++ ['+']) names [(one k).repeated 1 none] :=
    ht.repeated (by decide) (fun _ => rfl) (show 1 ≤ largestSize by decide)
  exact hrepeated

/-- An item by itself that need not stand there.  The question mark is not read as part
of the token. -/
theorem writes_optional_atom (hne : t ≠ []) (hhead : t.head? ≠ some '?')
    (h : ∀ r, read (t ++ r) = .ok (.atom p, r)) (hsize : p.size ≤ largestSize) :
    Writes (t ++ ['?']) [] [p.repeated 0 (some 1)] where
  head?_ne := by
    cases t with
    | nil => exact absurd rfl hne
    | cons c t => exact hhead
  exists_tokens := by
    refine ⟨[.atom p, .repetition 0 (some 1)],
      (spells_repetition fun _ => rfl).cons hne h, rfl, fun f outer => ?_⟩
    show (readToken (f.push p, outer) (.repetition 0 (some 1)) >>= _) = _
    rw [readToken_repetition rfl (by simpa using hsize)]
    rfl

/-! ### Groups -/

/-- A text that writes items is an alternative by itself. -/
theorem Writes.choice (ht : Writes t names ps) : WritesChoice t names [sequence ps] where
  exists_tokens := by
    obtain ⟨ts, hts, hnames, hfold⟩ := ht.exists_tokens
    refine ⟨ts, hts, hnames, fun name alternatives outer => ⟨_, hfold _ outer, rfl, ?_⟩⟩
    simp [Frame.finishAlternative]

/-- An alternative in front of others, from which a bar divides it. -/
theorem Writes.bar (ht : Writes t names ps) (hu : WritesChoice u names' qs) :
    WritesChoice (t ++ '|' :: u) (names ++ names') (sequence ps :: qs) where
  exists_tokens := by
    obtain ⟨ts, hts, hnames, hfold⟩ := ht.exists_tokens
    obtain ⟨us, hus, hnames', hfold'⟩ := hu.exists_tokens
    have hbar : Spells ('|' :: u) (.bar :: us) :=
      hus.cons (t := ['|']) (by simp) fun _ => rfl
    refine ⟨ts ++ .bar :: us, hts.append hbar (by simp), ?_,
      fun name alternatives outer => ?_⟩
    · rw [groupNames_append, hnames, ← hnames']
      rfl
    · obtain ⟨f, hf, hname, halternatives⟩ :=
        hfold' name (sequence ps :: alternatives) outer
      refine ⟨f, ?_, hname, by simpa using halternatives⟩
      rw [foldlM_append_of_eq_ok (hfold _ outer), ← hf]
      simp [List.foldlM_cons, readToken, Frame.finishAlternative, bind, Except.bind]

/-- The pattern of a group, which has a name or not. -/
def ofGroup (name : Option Text) (qs : List (Pattern Text)) : Pattern Text :=
  match name with
  | none => choice qs
  | some name => group name (choice qs)

/-- A group with what follows its closing parenthesis.  The reader keeps the
alternatives of the group in a frame of their own, and gives them to the frame outside
when the group is closed. -/
private theorem WritesChoice.groupThen {v : Text} {name : Option Text}
    (ht : WritesChoice t names qs)
    (hv : ∀ r, read ('(' :: v ++ r) = .ok (.opening name, r)) (hu : Spells u us)
    (hnames : groupNames us = [])
    (hfold : ∀ (f : Frame) (outer : List Frame),
        us.foldlM readToken (f.push (ofGroup name qs), outer) =
      .ok (⟨f.name, f.alternatives, p :: f.items⟩, outer)) :
    Writes ('(' :: v ++ (t ++ ')' :: u)) (name.toList ++ names) [p] where
  head?_ne := by simp
  exists_tokens := by
    obtain ⟨ts, hts, hts', hchoice⟩ := ht.exists_tokens
    have hclosing : Spells (')' :: u) (.closing :: us) :=
      hu.cons (t := [')']) (by simp) fun _ => rfl
    refine ⟨.opening name :: (ts ++ .closing :: us),
      (hts.append hclosing (by simp)).cons (by simp) hv, ?_, ?_⟩
    · have hafter : groupNames (ts ++ .closing :: us) = names := by
        rw [groupNames_append, hts', show groupNames (.closing :: us) = groupNames us
          from rfl, hnames, List.append_nil]
      rw [← hafter]
      cases name <;> rfl
    · intro f outer
      -- Inside the group the frame outside is only carried along.
      obtain ⟨g, hg, hname, halternatives⟩ := hchoice name [] (f :: outer)
      have hpattern : g.pattern = ofGroup name qs := by
        rw [Frame.pattern, halternatives]
        show (match g.name with
          | none => _
          | some name => _) = _
        rw [hname, List.append_nil, List.reverse_reverse]
        cases name <;> rfl
      show ((ts ++ .closing :: us).foldlM readToken (Frame.opened name, f :: outer)) = _
      change ts.foldlM readToken (Frame.opened name, f :: outer) =
        .ok (g, f :: outer) at hg
      rw [foldlM_append_of_eq_ok hg]
      show us.foldlM readToken (f.push g.pattern, outer) = _
      rw [hpattern, hfold]
      rfl

/-- A group is an item of the group around it. -/
theorem WritesChoice.group (ht : WritesChoice t names qs) (v : Text) (name : Option Text)
    (hv : ∀ r, read ('(' :: v ++ r) = .ok (.opening name, r)) :
    Writes ('(' :: v ++ (t ++ [')'])) (name.toList ++ names) [ofGroup name qs] :=
  ht.groupThen hv spells_nil rfl fun _ _ => rfl

/-- A group that need not stand there, because of the question mark behind it. -/
theorem WritesChoice.optionalGroup (ht : WritesChoice t names qs) (v : Text)
    (name : Option Text) (hv : ∀ r, read ('(' :: v ++ r) = .ok (.opening name, r))
    (hsize : (ofGroup name qs).size ≤ largestSize) :
    Writes ('(' :: v ++ (t ++ [')', '?'])) (name.toList ++ names)
      [(ofGroup name qs).repeated 0 (some 1)] := by
  refine ht.groupThen hv (spells_repetition fun _ => rfl) rfl fun f outer => ?_
  rw [List.foldlM_cons, readToken_repetition rfl (by simpa using hsize)]
  rfl

/-- **A text that stands for alternatives is read as the choice between them**, if it
gives no two groups the same name. -/
theorem WritesChoice.ofText_eq (ht : WritesChoice t names qs) (hnames : names.Nodup) :
    ofText t = .ok (Pattern.choice qs) := by
  obtain ⟨ts, hts, hts', hchoice⟩ := ht.exists_tokens
  obtain ⟨f, hf, hname, halternatives⟩ := hchoice none [] []
  have hpattern : f.pattern = Pattern.choice qs := by
    rw [Frame.pattern, halternatives]
    show (match f.name with
      | none => _
      | some name => _) = _
    rw [hname, List.append_nil, List.reverse_reverse]
  unfold ofText ofTokens
  rw [hts.readAll_eq]
  show (if ¬(groupNames ts).Nodup then _ else _) = _
  rw [if_neg (not_not_intro (hts' ▸ hnames))]
  show (ts.foldlM readToken (Frame.opened none, []) >>= _) = _
  rw [show ts.foldlM readToken (Frame.opened none, []) = .ok (f, []) from hf, ← hpattern]
  rfl

end Pattern

end StrategyDialect
