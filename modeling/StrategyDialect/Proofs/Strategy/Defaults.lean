import StrategyDialect.Proofs.Strategy.Frame

/-!
# Defaults inside a frame

The default of a parameter is read from what follows its name, or from the first
assignment to the name.  Both readings look at the text as far as they need it, so a
header before the strategy and a trailer after it could change them in two ways only: by
being looked at, or by moving an end that nothing in the strategy sets.  A trailer holds
no semicolon and no equals sign, so no value ends or begins there; a header holds no
equals sign, and every name in it is followed by something visible.

The one end that does move is that of a block which the strategy leaves open: the braces
of the trailer may close it.  `Block.lengthFrom?_eq_some_iff` says that this is all that
can happen.

## Main statements

* `Block.lengthFrom?_eq_some_iff`: blocks that close inside the strategy
* `Assignment.value?_append`: values before a trailer
* `Assignment.find_embed`: the first assignment to a name inside a frame
-/

namespace StrategyDialect

/-! ## Blocks -/

namespace Block

/-- A block is not empty: the brace that closes it is a part of it. -/
theorem lengthFrom?_pos {depth n : Nat} {t : Text} (h : lengthFrom? depth t = some n) :
    0 < n := by
  cases t with
  | nil => simp [lengthFrom?] at h
  | cons c t =>
    simp only [lengthFrom?] at h
    split at h
    · obtain ⟨k, -, rfl⟩ := Option.map_eq_some_iff.mp h
      exact Nat.succ_pos k
    · split at h
      · split at h
        · cases h
        · obtain rfl := Option.some.inj h
          exact Nat.one_pos
        · obtain ⟨k, -, rfl⟩ := Option.map_eq_some_iff.mp h
          exact Nat.succ_pos k
      · obtain ⟨k, -, rfl⟩ := Option.map_eq_some_iff.mp h
        exact Nat.succ_pos k

/-- **A block closes in a text** if it does in a longer text, but not behind the
shorter. -/
theorem lengthFrom?_eq_some_iff {depth n : Nat} {t : Text} (b : Text) :
    lengthFrom? depth t = some n ↔
      lengthFrom? depth (t ++ b) = some n ∧ n ≤ t.length := by
  -- One character more, on both sides.
  have hmap : ∀ {x y : Option Nat} {k : Nat}, (∀ n, x = some n ↔ y = some n ∧ n ≤ k) →
      ∀ n, x.map (· + 1) = some n ↔ y.map (· + 1) = some n ∧ n ≤ k + 1 := by
    intro x y k h n
    simp only [Option.map_eq_some_iff, h]
    constructor
    · rintro ⟨m, ⟨hm, hle⟩, rfl⟩
      exact ⟨⟨m, hm, rfl⟩, by omega⟩
    · rintro ⟨⟨m, hm, rfl⟩, hle⟩
      exact ⟨m, ⟨hm, by omega⟩, rfl⟩
  induction t generalizing depth n with
  | nil =>
    constructor
    · intro h
      cases h
    · rintro ⟨h, hle⟩
      have hpos := lengthFrom?_pos h
      simp only [List.length_nil] at hle
      omega
  | cons c t ih =>
    simp only [List.cons_append, lengthFrom?, List.length_cons]
    split
    · exact hmap (fun n => ih) n
    · split
      · split
        · simp
        · simp only [Option.some.injEq]
          omega
        · exact hmap (fun n => ih) n
      · exact hmap (fun n => ih) n

/-- A block that is closed stays the same whatever follows, and it lies within the
text. -/
theorem length?_append_of_some {n : Nat} {t : Text} (h : length? t = some n) (b : Text) :
    length? (t ++ b) = some n ∧ n ≤ t.length :=
  (lengthFrom?_eq_some_iff b).mp h

/-- What was left open closes behind the text, if at all. -/
theorem lt_of_length?_append {n : Nat} {t b : Text} (h : length? t = none)
    (hb : length? (t ++ b) = some n) : t.length < n := by
  by_contra hle
  have hsome : length? t = some n := (lengthFrom?_eq_some_iff b).mpr ⟨hb, by omega⟩
  simp [h] at hsome

end Block

/-! ## Values -/

namespace Assignment

open Text Wrapper

variable {a b t u r : Text}

/-- Without a semicolon no value ends, and so there is none. -/
theorem valueBeforeSemicolon?_of_not_mem (h : ';' ∉ t) :
    valueBeforeSemicolon? t = none := by
  have hdrop : t.dropWhile (· != ';') = [] := by
    have hall : ∀ x ∈ t, (x != ';') = true := by
      intro x hx
      have hne : x ≠ ';' := fun heq => h (heq ▸ hx)
      simpa using hne
    have happend : (t ++ []).dropWhile (· != ';') = [] :=
      List.dropWhile_append_of_pos hall
    simpa using happend
  rw [valueBeforeSemicolon?, List.span_eq_takeWhile_dropWhile, hdrop]

/-- A value before the first semicolon, given by what stands before that semicolon. -/
theorem valueBeforeSemicolon?_append_cons (h : ';' ∉ u) :
    valueBeforeSemicolon? (u ++ ';' :: r) = if (trim u).isEmpty then none
    else some (trim u) := by
  have hu : ∀ x ∈ u, (x != ';') = true := by
    intro x hx
    have hne : x ≠ ';' := fun heq => h (heq ▸ hx)
    simpa using hne
  rw [valueBeforeSemicolon?, List.span_eq_takeWhile_dropWhile,
    List.takeWhile_append_of_pos hu, List.dropWhile_append_of_pos hu]
  simp

/-- No value ends in a trailer, since a trailer holds no semicolon. -/
theorem valueBeforeSemicolon?_append (hb : Trailer b) :
    valueBeforeSemicolon? (t ++ b) = valueBeforeSemicolon? t := by
  have hsemicolon : ';' ∉ b := hb.not_mem (by decide)
  by_cases ht : ';' ∈ t
  · obtain ⟨u, r, rfl, hu⟩ := List.eq_append_cons_of_mem ht
    rw [List.append_assoc, List.cons_append, valueBeforeSemicolon?_append_cons hu,
      valueBeforeSemicolon?_append_cons hu]
  · have hboth : ';' ∉ t ++ b := by simp [ht, hsemicolon]
    rw [valueBeforeSemicolon?_of_not_mem hboth, valueBeforeSemicolon?_of_not_mem ht]

/-- A text whose first visible character is not an equals sign starts no value. -/
theorem value?_of_trimStart (h : (trimStart t).head? ≠ some '=') : value? t = none := by
  rw [value?]
  split
  next heq => simp [heq] at h
  next => rfl

/-- Without an equals sign no value begins. -/
theorem value?_eq_none_of_not_mem (h : '=' ∉ t) : value? t = none := by
  refine value?_of_trimStart fun hhead => h ?_
  exact (List.dropWhile_sublist _).subset (List.mem_of_mem_head? hhead)

/-- No value begins or ends in a trailer, since a trailer holds no equals sign and no
semicolon. -/
theorem value?_append (hb : Trailer b) : value? (t ++ b) = value? t := by
  have hequals : '=' ∉ b := hb.not_mem (by decide)
  have hangle : '>' ∉ b := hb.not_mem (by decide)
  cases ht : trimStart t with
  | nil =>
    -- A value would begin in the trailer.
    have happend : trimStart (t ++ b) = trimStart b := by
      rw [trimStart, List.dropWhile_append, ← trimStart, ht]
      rfl
    rw [value?_of_trimStart (t := t) (by simp [ht]), value?_of_trimStart]
    rw [happend]
    exact fun hhead =>
      hequals ((List.dropWhile_sublist _).subset (List.mem_of_mem_head? hhead))
  | cons x r =>
    have happend : trimStart (t ++ b) = x :: (r ++ b) := by
      rw [trimStart, List.dropWhile_append, ← trimStart, ht]
      rfl
    by_cases hx : x = '='
    · subst hx
      -- The character behind the equals sign may come from the trailer, but it is none
      -- of the two in question.
      have hhead : ∀ y ∉ b, ((r ++ b).head? = some y ↔ r.head? = some y) := by
        intro y hy
        cases r with
        | nil =>
          simp only [List.nil_append, List.head?_nil, reduceCtorEq, iff_false]
          exact fun hhead => hy (List.mem_of_mem_head? hhead)
        | cons z r => simp
      rw [value?, value?, ht, happend]
      simp only [hhead '=' hequals, hhead '>' hangle, valueBeforeSemicolon?_append hb]
    · rw [value?_of_trimStart (t := t) (by simp [ht, hx]),
        value?_of_trimStart (t := t ++ b) (by simp [happend, hx])]

/-! ## Names that are assigned to -/

/-- What stands before the header does not matter for a name in the strategy. -/
theorem hasOwnReceiver_append {before w : Text} (hw : ∀ x ∈ w.head?, x = '\n') :
    hasOwnReceiver (before ++ w) = hasOwnReceiver before := by
  have hnewline : isNameChar '\n' = false := by decide
  have hprefix : '\n' ∉ ".siht".toList := by decide
  cases before with
  | nil =>
    cases w with
    | nil => rfl
    | cons x w =>
      obtain rfl : x = '\n' := hw x rfl
      rfl
  | cons c before =>
    by_cases hc : c = '.'
    · subst hc
      have happend : afterPrefix? ".siht".toList ('.' :: before ++ w) =
          (afterPrefix? ".siht".toList ('.' :: before)).map (· ++ w) :=
        afterPrefix?_append fun x hx => by rwa [hw x hx]
      rw [List.cons_append] at happend ⊢
      rw [hasOwnReceiver, hasOwnReceiver, happend]
      cases afterPrefix? ".siht".toList ('.' :: before) with
      | none => rfl
      | some receiver =>
        -- Where `this` is all there was before the dot, a newline comes before it now.
        cases receiver with
        | cons y receiver => rfl
        | nil =>
          cases w with
          | nil => rfl
          | cons x w =>
            obtain rfl : x = '\n' := hw x rfl
            rfl
    · simp [hasOwnReceiver]

/-- The frame does not change the value that is assigned where a name ends. -/
theorem valueAt?_append {before after : Text} (ha : Header a) (hb : Trailer b) :
    valueAt? (before ++ a.reverse) (after ++ b) = valueAt? before after := by
  have hreceiver : ∀ x ∈ a.reverse.head?, x = '\n' := by
    intro x hx
    rw [List.head?_reverse] at hx
    have hne : a ≠ [] := by
      rintro rfl
      simp at hx
    rw [ha.getLast? hne] at hx
    exact (Option.some.inj hx).symm
  have hafter : (after ++ b).head?.any isNameChar = after.head?.any isNameChar := by
    cases after with
    | cons y after => rfl
    | nil =>
      cases b with
      | nil => rfl
      | cons y b => exact hb.isNameChar_eq_false (List.mem_cons_self ..)
  rw [valueAt?, valueAt?, hasOwnReceiver_append hreceiver, hafter, value?_append hb]

/-! ## The search for an assignment -/

variable {name before rest : Text} {spans spans' : List Span} {skip position : Nat}

/-- The characters of an earlier occurrence of the name are passed over. -/
theorem findFrom_skip (hskip : u.length = skip) :
    findFrom name spans skip position before (u ++ t) =
      findFrom name spans 0 (position + u.length) (u.reverse ++ before) t := by
  induction u generalizing skip position before with
  | nil =>
    subst hskip
    rfl
  | cons c u ih =>
    obtain rfl : u.length + 1 = skip := hskip
    rw [List.cons_append, findFrom, ih rfl]
    simp only [List.length_cons, List.reverse_cons, List.append_assoc,
      List.singleton_append]
    congr 1
    omega

/-- A name does not stand where no name starts. -/
private theorem afterPrefix?_eq_none (hname : name.IsIdentifier) {c : Char}
    (hc : CharClass.asciiNameStart.contains c = false) :
    afterPrefix? name (c :: rest) = none := by
  obtain ⟨x, n, rfl, hx, -⟩ := hname
  have hne : x ≠ c := by
    rintro rfl
    simp [hx] at hc
  rw [afterPrefix?, if_neg hne]

/-- A stretch in which no name starts is passed over. -/
theorem findFrom_append_of_no_start (hname : name.IsIdentifier)
    (h : ∀ x ∈ u, CharClass.asciiNameStart.contains x = false) :
    findFrom name spans 0 position before (u ++ t) =
      findFrom name spans 0 (position + u.length) (u.reverse ++ before) t := by
  induction u generalizing position before with
  | nil => rfl
  | cons c u ih =>
    rw [List.cons_append, findFrom, afterPrefix?_eq_none hname (h c (by simp))]
    dsimp only
    rw [ih fun x hx => h x (by simp [hx])]
    simp only [List.length_cons, List.reverse_cons, List.append_assoc,
      List.singleton_append]
    congr 1
    omega

/-- Where no name starts, no assignment to a name is found. -/
theorem findFrom_eq_none (hname : name.IsIdentifier)
    (h : ∀ x ∈ rest, CharClass.asciiNameStart.contains x = false) :
    findFrom name spans skip position before rest = none := by
  induction rest generalizing skip position before with
  | nil => rfl
  | cons c rest ih =>
    have hlater : ∀ {skip position before},
        findFrom name spans skip position before rest = none :=
      ih fun x hx => h x (by simp [hx])
    cases skip with
    | succ skip => rw [findFrom, hlater]
    | zero => rw [findFrom, afterPrefix?_eq_none hname (h c (by simp)), hlater]

/-- A name that stands before a mark ends before it. -/
private theorem exists_of_afterPrefix?_eq_some (hname : name.IsIdentifier) {z : Char}
    (hz : isWord z = false) {after : Text}
    (h : afterPrefix? name (u ++ z :: r) = some after) :
    ∃ m, u = name ++ m ∧ m ++ z :: r = after := by
  rcases List.append_eq_append_iff.mp (afterPrefix?_eq_some_iff.mp h)
    with ⟨m, rfl, hm⟩ | ⟨m, rfl, rfl⟩
  · cases m with
    | nil => exact ⟨[], by simp, hm⟩
    | cons y m =>
      obtain rfl : z = y := (List.cons.inj hm).1
      simp [hname.isWord (x := z) (by simp)] at hz
  · exact ⟨m, rfl, rfl⟩

/-- No value starts in a text whose first visible characters are others. -/
private theorem value?_eq_none_of_visible {z : Char} (hu : '=' ∉ u)
    (hblank : isBlank z = false) (hz : z ≠ '=') : value? (u ++ z :: r) = none := by
  refine value?_of_trimStart ?_
  rw [trimStart, List.dropWhile_append]
  split
  · simp [hblank, hz]
  next hne =>
    rw [List.isEmpty_iff] at hne
    obtain ⟨y, v, hv⟩ := List.exists_cons_of_ne_nil hne
    have hy : y ∈ u := (List.dropWhile_sublist isBlank).subset (by simp [hv])
    rw [hv]
    rintro heq
    obtain rfl : y = '=' := by simpa using heq
    exact hu hy

/-- **Nothing is found in a line end with names before it**, as long as there is no
equals sign. -/
theorem findFrom_append_of_endsLine (hname : name.IsIdentifier) (hequals : '=' ∉ u)
    {z : Char} {w : Text} (hz : z ∈ [';', '{', '}']) (hw : w.IsBlank) :
    findFrom name spans 0 position before (u ++ (z :: w ++ t)) =
      findFrom name spans 0 (position + (u ++ z :: w).length)
        ((u ++ z :: w).reverse ++ before) t := by
  have hmarks : ∀ z ∈ [';', '{', '}'], isWord z = false ∧ isBlank z = false ∧ z ≠ '=' ∧
      CharClass.asciiNameStart.contains z = false := by decide
  obtain ⟨hzword, hzblank, hzequals, hzstart⟩ := hmarks z hz
  have hend : ∀ x ∈ z :: w, CharClass.asciiNameStart.contains x = false := by
    intro x hx
    rcases List.mem_cons.mp hx with rfl | hx
    · exact hzstart
    · exact asciiNameStart_eq_false_of_isWord_eq_false
        (isWord_eq_false_of_isBlank (hw x hx))
  -- The induction is on the length: after an occurrence of the name the search goes on
  -- behind it.
  induction hn : u.length using Nat.strongRecOn generalizing u position before with
  | ind n ih =>
    cases u with
    | nil => exact findFrom_append_of_no_start hname hend
    | cons c u =>
      rw [List.cons_append, findFrom]
      cases hafter : afterPrefix? name (c :: (u ++ (z :: w ++ t))) with
      | none =>
        dsimp only
        rw [ih u.length (by simp [← hn]) (fun hmem => hequals (by simp [hmem])) rfl]
        simp only [List.length_append, List.length_cons, List.reverse_append,
          List.reverse_cons, List.append_assoc, List.cons_append]
        congr 1
        omega
      | some after =>
        have hafter' : afterPrefix? name (c :: u ++ z :: (w ++ t)) = some after := hafter
        obtain ⟨m, hm, rfl⟩ := exists_of_afterPrefix?_eq_some hname hzword hafter'
        have hvalue : value? (m ++ z :: (w ++ t)) = none :=
          value?_eq_none_of_visible (fun hmem => hequals (by simp [hm, hmem]))
            hzblank hzequals
        have hnone : (if spans.any (·.contains position) then none
            else valueAt? before (m ++ z :: (w ++ t))) = none := by
          simp [valueAt?, hvalue]
        obtain ⟨x, rest, rfl, -, -⟩ := hname
        obtain ⟨rfl, rfl⟩ : c = x ∧ u = rest ++ m := by simpa using hm
        have hshorter : m.length < n := by
          simp only [← hn, List.length_cons, List.length_append]
          omega
        dsimp only
        rw [hnone]
        dsimp only
        rw [List.append_assoc, findFrom_skip (show rest.length = (c :: rest).length - 1
          from rfl), ih m.length hshorter (fun hmem => hequals (by simp [hmem])) rfl]
        simp only [List.length_append, List.length_cons, List.reverse_append,
          List.reverse_cons, List.append_assoc, List.cons_append, List.nil_append]
        congr 1
        omega

/-- Nothing is found in a header: a name in it is followed by something other than an
equals sign, and the search goes on with the strategy as if it had started there. -/
theorem findFrom_append_of_header (hname : name.IsIdentifier) (ha : Header a) :
    findFrom name spans 0 0 [] (a ++ t) = findFrom name spans 0 a.length a.reverse t := by
  by_cases hne : a = []
  · subst hne
    rfl
  · obtain ⟨u, w, z, rfl, hz, hw⟩ := ha.endsLine hne
    have hequals : '=' ∉ u := fun hmem =>
      absurd (by simp [hmem] : '=' ∈ u ++ [z] ++ w ++ ['\n'])
        (ha.not_mem (by decide) (by decide))
    have hblank : (w ++ ['\n']).IsBlank := hw.append isBlank_newline
    have hsplit : u ++ [z] ++ w ++ ['\n'] = u ++ z :: (w ++ ['\n']) := by simp
    rw [hsplit, List.append_assoc]
    rw [findFrom_append_of_endsLine hname hequals hz hblank, Nat.zero_add,
      List.append_nil]

/-- Inside the strategy, the frame changes no step of the search. -/
private theorem findFrom_embed (hname : name.IsIdentifier) (ha : Header a)
    (hb : Trailer b) (hspans : ∀ i, position ≤ i → i < position + rest.length →
      spans'.any (·.contains (a.length + i)) = spans.any (·.contains i)) :
    findFrom name spans' skip (a.length + position) (before ++ a.reverse) (rest ++ b) =
      findFrom name spans skip position before rest := by
  induction rest generalizing skip position before with
  | nil =>
    exact findFrom_eq_none hname fun x hx =>
      asciiNameStart_eq_false_of_isWord_eq_false (hb.isWord_eq_false hx)
  | cons c rest ih =>
    have hlater : ∀ skip, findFrom name spans' skip (a.length + position + 1)
        (c :: before ++ a.reverse) (rest ++ b) =
        findFrom name spans skip (position + 1) (c :: before) rest := by
      intro skip
      rw [Nat.add_assoc]
      refine ih fun i hle hlt => hspans i (by omega) ?_
      simp only [List.length_cons]
      omega
    cases skip with
    | succ skip => exact hlater skip
    | zero =>
      -- A name does not run into the trailer, so both texts have it here or none.
      have hedge : ∀ x ∈ b.head?, x ∉ name := by
        intro x hx hmem
        have hfalse := hb.isWord_eq_false (List.mem_of_mem_head? hx)
        simp [hname.isWord hmem] at hfalse
      have hprefix := afterPrefix?_append (t := c :: rest) hedge
      rw [List.cons_append] at hprefix ⊢
      rw [findFrom, findFrom, hprefix]
      cases afterPrefix? name (c :: rest) with
      | none => exact hlater 0
      | some after =>
        have hhere := hspans position (Nat.le_refl _) (by simp)
        simp only [Option.map_some, hhere, valueAt?_append ha hb]
        split
        · rfl
        · exact hlater _

/-- **The first assignment to a name** stays the same when the strategy is put into a
frame. -/
theorem find_embed (hname : name.IsIdentifier) (ha : Header a) (hb : Trailer b)
    (hspans : ∀ i < t.length,
      spans'.any (·.contains (a.length + i)) = spans.any (·.contains i)) :
    find name spans' (a ++ t ++ b) = find name spans t := by
  have hinside : ∀ i, 0 ≤ i → i < 0 + t.length →
      spans'.any (·.contains (a.length + i)) = spans.any (·.contains i) := fun i _ hlt =>
    hspans i (by simpa using hlt)
  have hsearch : findFrom name spans' 0 (a.length + 0) ([] ++ a.reverse) (t ++ b) =
      findFrom name spans 0 0 [] t := findFrom_embed hname ha hb hinside
  rw [find, find, List.append_assoc, findFrom_append_of_header hname ha]
  exact hsearch

end Assignment

end StrategyDialect
