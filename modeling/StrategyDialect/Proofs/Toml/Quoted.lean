import Mathlib
import StrategyDialect.Proofs.Text.Classes
import StrategyDialect.Proofs.Text.Hex
import StrategyDialect.Toml.Quoted

/-!
# TOML strings read back

A string is written in one of four forms, and the reader finds out from the quotes which
one it is.  Main statement: whatever the form, the string is read back
(`TomlString.read_write`), as long as no quote follows that the reader could take for
one of the string.

Two points carry the argument.

* **An escape is read as the character that it was written for**
  (`TomlString.escapeChar_cases`), and it is no line end, so the reader of several lines
  does not take it for a line that is continued.
* **A string that is being read does not start with three quotes.**  The reader stops at
  the first three, so in double quotes every third one is escaped, and single quotes are
  chosen for strings without three in a row.  Up to two quotes at the end of the string
  run into the closing three, and `TomlString.closing?_append` says that they are told
  apart.

The statements are about a string with any text behind it, as it stands in a document.
-/

namespace StrategyDialect

namespace TomlString

variable {q c : Char} {s t u r rest : Text}

/-! ## The end of a string in tripled quotes -/

/-- No string ends where there are not three quotes in a row. -/
private theorem closing?_eq_none {a b c : Char} (h : ¬(a = q ∧ b = q ∧ c = q)) :
    closing? q (a :: b :: c :: t) = none := by
  match t with
  | [] => simp [closing?, h]
  | [d] =>
    have hfour : ¬(a = q ∧ b = q ∧ c = q ∧ d = q) := fun ⟨ha, hb, hc, _⟩ => h ⟨ha, hb, hc⟩
    simp [closing?, h, hfour]
  | d :: e :: t =>
    have hfour : ¬(a = q ∧ b = q ∧ c = q ∧ d = q) := fun ⟨ha, hb, hc, _⟩ => h ⟨ha, hb, hc⟩
    have hfive : ¬(a = q ∧ b = q ∧ c = q ∧ d = q ∧ e = q) := fun ⟨ha, hb, hc, _⟩ =>
      h ⟨ha, hb, hc⟩
    simp [closing?, h, hfour, hfive]

/-- **The string ends right here** if what is left of it consists of quotes; they are
told apart from the closing three. -/
theorem closing?_append (hu : ¬[q, q, q] <+: u) (hr : ∀ x ∈ r.head?, x ≠ q) :
    closing? q (u ++ ([q, q, q] ++ r)) = if ∀ x ∈ u, x = q then some (u, r)
      else none := by
  -- The end is looked for three characters ahead, so shorter rests stand apart.
  match u with
  | [] =>
    match r with
    | [] => simp [closing?]
    | [x] =>
      have hx : x ≠ q := hr x rfl
      simp [closing?, hx]
    | x :: y :: r =>
      have hx : x ≠ q := hr x rfl
      simp [closing?, hx]
  | [a] =>
    match r with
    | [] => by_cases ha : a = q <;> simp [closing?, ha]
    | x :: r =>
      have hx : x ≠ q := hr x rfl
      by_cases ha : a = q <;> simp [closing?, ha, hx]
  | [a, b] => by_cases ha : a = q <;> by_cases hb : b = q <;> simp [closing?, ha, hb]
  | a :: b :: c :: u =>
    have hnot : ¬(a = q ∧ b = q ∧ c = q) := by
      rintro ⟨rfl, rfl, rfl⟩
      exact hu ⟨u, rfl⟩
    have hall : ¬∀ x ∈ a :: b :: c :: u, x = q := fun h =>
      hnot ⟨h a (by simp), h b (by simp), h c (by simp)⟩
    rw [if_neg hall]
    exact closing?_eq_none hnot

/-! ## Escapes -/

/-- A character is found by its number, which is never that of a surrogate. -/
theorem charOf?_toNat (c : Char) : charOf? c.toNat = some c := by
  have hvalid : c.toNat.isValidChar := c.valid
  rw [charOf?, dif_pos hvalid]
  rfl

/-- Control characters are all in the first half of a byte, so two of the four digits
that they are written with are zero. -/
theorem toNat_lt_of_isControl (h : isControl c = true) : c.toNat < 0x80 := by
  simp only [isControl, Bool.or_eq_true, Bool.and_eq_true, decide_eq_true_eq,
    beq_iff_eq] at h
  omega

/-- `e` behind a backslash is an escape of `c`, whatever follows, and no line end. -/
def EscapeOf (c : Char) (e : Text) : Prop :=
  ∀ t, continuation? (e ++ t) = none ∧ readEscape? (e ++ t) = some (c, t)

/-- A control character is escaped by its number, if there is no shorter escape for
it. -/
theorem escapeOf_of_isControl (h : isControl c = true) :
    EscapeOf c ('u' :: Hex.write4 true c.toNat) := by
  intro t
  have hlt : c.toNat < 0x10000 := by
    have := toNat_lt_of_isControl h
    omega
  refine ⟨rfl, ?_⟩
  simp [readEscape?, shortEscape?, escapeWidth?, Hex.read?_write4 true hlt, charOf?_toNat]

/-- **A character between double quotes** stands for itself or is escaped. -/
theorem escapeChar_cases (inLines : Bool) (c : Char) :
    (escapeChar inLines c = [c] ∧ c ≠ '\\' ∧
      (isControl c = false ∨ inLines = true ∧ c = '\n')) ∨
      ∃ e, escapeChar inLines c = '\\' :: e ∧ EscapeOf c e := by
  unfold escapeChar
  split
  · exact .inr ⟨['b'], rfl, fun t => ⟨rfl, rfl⟩⟩
  · exact .inr ⟨['t'], rfl, fun t => ⟨rfl, rfl⟩⟩
  · cases inLines with
    | true => exact .inl ⟨rfl, by decide, .inr ⟨rfl, rfl⟩⟩
    | false => exact .inr ⟨['n'], rfl, fun t => ⟨rfl, rfl⟩⟩
  · exact .inr ⟨['f'], rfl, fun t => ⟨rfl, rfl⟩⟩
  · exact .inr ⟨['r'], rfl, fun t => ⟨rfl, rfl⟩⟩
  · exact .inr ⟨['\\'], rfl, fun t => ⟨rfl, rfl⟩⟩
  next hbackslash =>
    split
    next hcontrol => exact .inr ⟨_, rfl, escapeOf_of_isControl hcontrol⟩
    next hcontrol => exact .inl ⟨rfl, hbackslash, .inl (by simpa using hcontrol)⟩

/-! ## Double quotes -/

/-- Escaping goes on behind a character that is no quote, and counts quotes from zero
again. -/
theorem escapeFrom_cons {inLines : Bool} {limit quotes : Nat} (hc : c ≠ '"') :
    escapeFrom inLines limit quotes (c :: s) =
      escapeChar inLines c ++ escapeFrom inLines limit 0 s := by
  rw [escapeFrom]
  exact hc

/-- What a reader returns for the text after a character, with the character put back. -/
def withChar (c : Char) (x : Except TomlFault (Text × Text)) :
    Except TomlFault (Text × Text) :=
  x.map fun (s, rest) => (c :: s, rest)

/-- A character in front of a string that has been read. -/
theorem withChar_ok : withChar c (.ok (s, r)) = .ok (c :: s, r) :=
  rfl

/-- In double quotes, an escape is read as one character. -/
private theorem readBasic_escape (h : readEscape? t = some (c, rest)) :
    readBasic ('\\' :: t) = withChar c (readBasic rest) := by
  rw [readBasic]
  split
  next hnone => simp [h] at hnone
  next hsome =>
    obtain ⟨rfl, rfl⟩ : c = _ ∧ rest = _ := by simpa [h] using hsome
    rfl

/-- In double quotes, any other character is read as itself. -/
private theorem readBasic_cons (hquote : c ≠ '"') (hbackslash : c ≠ '\\')
    (hcontrol : isControl c = false) : readBasic (c :: t) = withChar c (readBasic t) := by
  rw [readBasic, if_neg (by simp [hcontrol])]
  · rfl
  · exact hquote
  · exact hbackslash

/-- A string on one line is read back.  Here every quote is escaped, so the number of
quotes that have gone before is of no interest. -/
theorem readBasic_escapeFrom (quotes : Nat) (s r : Text) :
    readBasic (escapeFrom false 0 quotes s ++ '"' :: r) = .ok (s, r) := by
  induction s generalizing quotes with
  | nil => simp [escapeFrom, readBasic]
  | cons c s ih =>
    by_cases hquote : c = '"'
    · subst hquote
      have hescape : "\\\"".toList = ['\\', '"'] := rfl
      rw [escapeFrom, if_neg (Nat.not_lt_zero _), hescape]
      show readBasic ('\\' :: '"' :: (escapeFrom false 0 0 s ++ '"' :: r)) = _
      rw [readBasic_escape rfl, ih, withChar_ok]
    · rw [escapeFrom_cons hquote]
      rcases escapeChar_cases false c
        with ⟨hplain, hbackslash, hcontrol⟩ | ⟨e, hescape, he⟩
      · have hcontrol : isControl c = false := by simpa using hcontrol
        rw [hplain]
        show readBasic (c :: (escapeFrom false 0 0 s ++ '"' :: r)) = _
        rw [readBasic_cons hquote hbackslash hcontrol, ih, withChar_ok]
      · rw [hescape, List.append_assoc, List.cons_append, readBasic_escape (he _).2,
          ih, withChar_ok]

/-! ## Tripled double quotes -/

/-- A string of several lines ends where the closing quotes are. -/
private theorem readBasicLines_end (h : closing? '"' t = some (s, r)) :
    readBasicLines t = .ok (s, r) := by
  rw [readBasicLines.eq_def, h]

/-- Within it, an escape is read as one character, unless the backslash continues the
line. -/
private theorem readBasicLines_escape (hclosing : closing? '"' ('\\' :: t) = none)
    (hline : continuation? t = none) (h : readEscape? t = some (c, rest)) :
    readBasicLines ('\\' :: t) = withChar c (readBasicLines rest) := by
  rw [readBasicLines, hclosing]
  dsimp only
  split
  next hsome => simp [hline] at hsome
  next =>
    split
    next hnone => simp [h] at hnone
    next hsome =>
      obtain ⟨rfl, rfl⟩ : c = _ ∧ rest = _ := by simpa [h] using hsome
      rfl

/-- A character that stands for itself on one of several lines is no carriage return. -/
private theorem ne_return (h : isControl c = false ∨ c = '\n') : c ≠ '\r' := by
  rintro rfl
  rcases h with h | h
  · exact absurd h (by decide)
  · exact absurd h (by decide)

/-- Within it, any other character is read as itself, a newline included. -/
private theorem readBasicLines_cons (hclosing : closing? '"' (c :: t) = none)
    (hbackslash : c ≠ '\\') (hcontrol : isControl c = false ∨ c = '\n') :
    readBasicLines (c :: t) = withChar c (readBasicLines t) := by
  have hallowed : ¬(isControl c = true ∧ c ≠ '\n') := by
    rintro ⟨hc, hne⟩
    exact hcontrol.elim (fun h => by simp [hc] at h) hne
  rw [readBasicLines, hclosing]
  · dsimp only
    rw [if_neg hallowed]
    rfl
  · exact hbackslash
  · intro _ h
    exact absurd h (ne_return hcontrol)

/-- What a character other than a double quote is written as does not start with one. -/
theorem head?_escapeChar (inLines : Bool) (hc : c ≠ '"') :
    ∃ y v, escapeChar inLines c = y :: v ∧ y ≠ '"' := by
  rcases escapeChar_cases inLines c with ⟨h, -, -⟩ | ⟨e, h, -⟩
  · exact ⟨c, [], h, hc⟩
  · exact ⟨'\\', e, h, by decide⟩

/-- The first character of a string that is written as a double quote is one, with less
than `limit` before it. -/
theorem escapeFrom_eq_quote_cons {inLines : Bool} {limit quotes : Nat} {u : Text}
    (h : escapeFrom inLines limit quotes s = '"' :: u) :
    quotes < limit ∧ ∃ s', s = '"' :: s' ∧
      u = escapeFrom inLines limit (quotes + 1) s' := by
  cases s with
  | nil => simp [escapeFrom] at h
  | cons c s =>
    by_cases hc : c = '"'
    · subst hc
      rw [escapeFrom] at h
      split at h
      next hlt => exact ⟨hlt, s, rfl, (List.cons.inj h).2.symm⟩
      next =>
        have hescape : "\\\"".toList = ['\\', '"'] := rfl
        rw [hescape] at h
        exact absurd (List.cons.inj h).1 (by decide)
    · obtain ⟨y, v, hv, hy⟩ := head?_escapeChar inLines hc
      rw [escapeFrom_cons hc, hv] at h
      exact absurd (List.cons.inj h).1 hy

/-- No string is written with three double quotes at its start. -/
theorem not_prefix_escapeFrom {inLines : Bool} (quotes : Nat) (s : Text) :
    ¬['"', '"', '"'] <+: escapeFrom inLines 2 quotes s := by
  rintro ⟨v, hv⟩
  obtain ⟨-, s₁, rfl, h₁⟩ := escapeFrom_eq_quote_cons hv.symm
  obtain ⟨-, s₂, rfl, h₂⟩ := escapeFrom_eq_quote_cons h₁.symm
  obtain ⟨hlt, -⟩ := escapeFrom_eq_quote_cons h₂.symm
  omega

/-- A string that is written as double quotes consists of them. -/
theorem escapeFrom_eq_self {inLines : Bool} {limit quotes : Nat}
    (h : ∀ x ∈ escapeFrom inLines limit quotes s, x = '"') :
    escapeFrom inLines limit quotes s = s := by
  induction s generalizing quotes with
  | nil => rfl
  | cons c s ih =>
    have hne : escapeFrom inLines limit quotes (c :: s) ≠ [] := by
      by_cases hc : c = '"'
      · subst hc
        rw [escapeFrom]
        split <;> simp
      · obtain ⟨y, v, hv, -⟩ := head?_escapeChar inLines hc
        simp [escapeFrom_cons hc, hv]
    obtain ⟨y, u, hu⟩ := List.exists_cons_of_ne_nil hne
    obtain rfl : y = '"' := h y (by simp [hu])
    obtain ⟨-, s', hs, rfl⟩ := escapeFrom_eq_quote_cons hu
    obtain ⟨rfl, rfl⟩ := List.cons.inj hs
    rw [hu, ih fun x hx => h x (by simp [hu, hx])]

/-- A string on several lines, or one that holds quotes, is read back. -/
theorem readBasicLines_escapeFrom (hr : ∀ x ∈ r.head?, x ≠ '"')
    (quotes : Nat) (s : Text) :
    readBasicLines (escapeFrom true 2 quotes s ++ (['"', '"', '"'] ++ r)) =
      .ok (s, r) := by
  have hclosing : ∀ quotes s,
      closing? '"' (escapeFrom true 2 quotes s ++ (['"', '"', '"'] ++ r)) =
      if ∀ x ∈ escapeFrom true 2 quotes s, x = '"'
        then some (escapeFrom true 2 quotes s, r) else none :=
    fun quotes s => closing?_append (not_prefix_escapeFrom quotes s) hr
  generalize ['"', '"', '"'] ++ r = e at hclosing ⊢
  -- The string may end in quotes; the induction stops where nothing but quotes is left.
  induction s generalizing quotes with
  | nil =>
    refine readBasicLines_end ((hclosing quotes []).trans (if_pos ?_))
    simp [escapeFrom]
  | cons c s ih =>
    have hhere := hclosing quotes (c :: s)
    split at hhere
    next hquotes =>
      rw [escapeFrom_eq_self hquotes] at hhere ⊢
      exact readBasicLines_end hhere
    next =>
      have hnext : ∀ quotes,
          withChar c (readBasicLines (escapeFrom true 2 quotes s ++ e)) =
            .ok (c :: s, r) := by
        intro quotes
        rw [ih, withChar_ok]
      by_cases hc : c = '"'
      · subst hc
        have hescape : "\\\"".toList = ['\\', '"'] := rfl
        rw [escapeFrom, hescape] at hhere ⊢
        split at hhere
        next hlt =>
          rw [if_pos hlt, ← hnext (quotes + 1)]
          exact readBasicLines_cons hhere (by decide) (.inl (by decide))
        next hlt =>
          rw [if_neg hlt, ← hnext 0]
          exact readBasicLines_escape hhere rfl rfl
      · rw [escapeFrom_cons hc] at hhere ⊢
        rw [← hnext 0]
        rcases escapeChar_cases true c
          with ⟨hplain, hbackslash, hcontrol⟩ | ⟨escape, hescape, he⟩
        · rw [hplain] at hhere ⊢
          exact readBasicLines_cons hhere hbackslash (hcontrol.imp_right And.right)
        · rw [hescape, List.append_assoc] at hhere ⊢
          exact readBasicLines_escape hhere (he _).1 (he _).2

/-! ## Single quotes -/

/-- A string in single quotes is read back, if it holds neither single quotes nor
control characters. -/
theorem readLiteral_append (hs : ∀ c ∈ s, c ≠ '\'' ∧ isControl c = false) (r : Text) :
    readLiteral (s ++ '\'' :: r) = .ok (s, r) := by
  induction s with
  | nil => rfl
  | cons c s ih =>
    obtain ⟨hquote, hcontrol⟩ := hs c (by simp)
    have hread : readLiteral (c :: (s ++ '\'' :: r)) =
        withChar c (readLiteral (s ++ '\'' :: r)) := by
      rw [readLiteral, if_neg (by simp [hcontrol])]
      · rfl
      · exact hquote
    rw [List.cons_append, hread, ih fun x hx => hs x (by simp [hx]), withChar_ok]

/-- In single quotes there are no escapes, and the only question is whether the string
ends. -/
private theorem readLiteralLines_cons (hclosing : closing? '\'' (c :: t) = none)
    (hcontrol : isControl c = false ∨ c = '\n') :
    readLiteralLines (c :: t) = withChar c (readLiteralLines t) := by
  have hallowed : ¬(isControl c = true ∧ c ≠ '\n') := by
    rintro ⟨hc, hne⟩
    exact hcontrol.elim (fun h => by simp [hc] at h) hne
  rw [readLiteralLines, hclosing]
  · dsimp only
    rw [if_neg hallowed]
    rfl
  · intro _ h
    exact absurd h (ne_return hcontrol)

/-- A string on several lines is read back, if it holds no three single quotes in a row
and no control characters but newlines. -/
theorem readLiteralLines_append (hs : ∀ c ∈ s, isControl c = false ∨ c = '\n')
    (hrun : ¬['\'', '\'', '\''] <:+: s) (hr : ∀ x ∈ r.head?, x ≠ '\'') :
    readLiteralLines (s ++ (['\'', '\'', '\''] ++ r)) = .ok (s, r) := by
  have hclosing : ∀ s, ¬['\'', '\'', '\''] <:+: s →
      closing? '\'' (s ++ (['\'', '\'', '\''] ++ r)) = if ∀ x ∈ s, x = '\''
      then some (s, r) else none :=
    fun s hrun => closing?_append (fun h => hrun h.isInfix) hr
  have hend : ∀ {s t}, closing? '\'' t = some (s, r) →
      readLiteralLines t = .ok (s, r) := by
    intro s t h
    rw [readLiteralLines.eq_def, h]
  -- The closing quotes stay folded, or the induction would take them for content.
  generalize ['\'', '\'', '\''] ++ r = e at hclosing ⊢
  induction s with
  | nil => exact hend ((hclosing [] hrun).trans (if_pos (by simp)))
  | cons c s ih =>
    have hhere := hclosing (c :: s) hrun
    split at hhere
    next => exact hend hhere
    next =>
      have hrest : ¬['\'', '\'', '\''] <:+: s :=
        fun h => hrun (h.trans (List.suffix_cons c s).isInfix)
      rw [List.cons_append] at hhere ⊢
      rw [readLiteralLines_cons hhere (hs c (by simp)),
        ih (fun x hx => hs x (by simp [hx])) hrest, withChar_ok]

/-! ## Runs of quotes -/

/-- The longest run is at least as long as the longest one so far. -/
private theorem le_longestRun_go (s : Text) (longest current : Nat) :
    longest ≤ longestRun.go q longest current s := by
  induction s generalizing longest current with
  | nil => exact Nat.le_refl _
  | cons d s ih =>
    rw [longestRun.go]
    split
    · exact (Nat.le_max_left _ _).trans (ih _ _)
    · exact ih _ _

/-- A run that goes on is counted together with what there was of it before. -/
private theorem le_longestRun_go_replicate {n : Nat} (hn : 0 < n) (s : Text)
    (longest current : Nat) :
    current + n ≤ longestRun.go q longest current (List.replicate n q ++ s) := by
  induction n generalizing longest current with
  | zero => cases hn
  | succ n ih =>
    rw [List.replicate_succ, List.cons_append, longestRun.go, if_pos rfl]
    rcases Nat.eq_zero_or_pos n with rfl | hpos
    · exact (Nat.le_max_right _ _).trans (le_longestRun_go _ _ _)
    · have := ih hpos (max longest (current + 1)) (current + 1)
      omega

/-- A run inside a text is no longer than the longest. -/
theorem le_longestRun {n : Nat} (hn : 0 < n) (h : List.replicate n q <:+: s) :
    n ≤ longestRun q s := by
  obtain ⟨u, v, rfl⟩ := h
  have hgo : ∀ longest current,
      n ≤ longestRun.go q longest current (u ++ List.replicate n q ++ v) := by
    intro longest current
    induction u generalizing longest current with
    | nil =>
      exact (Nat.le_add_left _ _).trans (le_longestRun_go_replicate hn v longest current)
    | cons d u ih =>
      rw [List.append_assoc, List.cons_append, longestRun.go, ← List.append_assoc]
      split
      · exact ih _ _
      · exact ih _ _
  exact hgo 0 0

/-! ## The forms -/

/-- The strings that can be written in a form.  Double quotes have escapes for
everything; what stands between single quotes is taken as it is. -/
def Form.Admits (s : Text) : Form → Prop
  | .basic => True
  | .literal => ∀ c ∈ s, c ≠ '\'' ∧ isControl c = false
  | .basicLines => True
  | .literalLines =>
    (∀ c ∈ s, isControl c = false ∨ c = '\n') ∧ ¬['\'', '\'', '\''] <:+: s

/-- **The form that is chosen for a string admits it.** -/
theorem admits_formOf (s : Text) : (formOf s).Admits s := by
  have hcontrol : (s.any fun c => isControl c && c != '\n') = false →
      ∀ c ∈ s, isControl c = false ∨ c = '\n' := by
    intro h c hc
    by_cases hnewline : c = '\n'
    · exact .inr hnewline
    · exact .inl (by simpa [hnewline] using List.any_eq_false.mp h c hc)
  -- The forms are tried from the plainest to the basic one, which admits everything.
  unfold formOf
  dsimp only
  split
  next => trivial
  next =>
    split
    next h =>
      simp only [Bool.and_eq_true, Bool.not_eq_true', List.contains_eq_mem,
        decide_eq_false_iff_not] at h
      obtain ⟨⟨hnone, hquote⟩, hnewline⟩ := h
      intro c hc
      refine ⟨fun heq => hquote (heq ▸ hc), ?_⟩
      exact (hcontrol hnone c hc).resolve_right fun heq => hnewline (heq ▸ hc)
    next =>
      split
      next => trivial
      next =>
        split
        next h =>
          simp only [Bool.and_eq_true, Bool.not_eq_true', decide_eq_true_eq] at h
          obtain ⟨hnone, hrun⟩ := h
          refine ⟨hcontrol hnone, fun hthree => ?_⟩
          have := le_longestRun (n := 3) (by omega) hthree
          omega
        next => split <;> trivial

/-- The newline that is put in front of a string is dropped again, and nothing else is. -/
theorem afterNewline_leadingNewline (ht : '\n' ∉ s → ∀ x ∈ t.head?, x ≠ '\n' ∧ x ≠ '\r') :
    afterNewline (leadingNewline s ++ t) = t := by
  rw [leadingNewline]
  split
  next => rfl
  next hnone =>
    have hhead := ht (by simpa using hnone)
    match t with
    | [] => rfl
    | c :: t =>
      obtain ⟨hnewline, hreturn⟩ := hhead c rfl
      rw [List.nil_append, afterNewline]
      · intro _ h
        exact hnewline (List.cons.inj h).1
      · intro _ h
        exact hreturn (List.cons.inj h).1

/-- No quote of the reader's follows a string. -/
def NoQuote (r : Text) : Prop :=
  ∀ x ∈ r.head?, x ≠ '"' ∧ x ≠ '\''

/-- What is written for a string without newlines does not start with part of one. -/
theorem head?_escapeFrom (hs : '\n' ∉ s) (quotes : Nat) :
    ∀ x ∈ (escapeFrom true 2 quotes s).head?, x ≠ '\n' ∧ x ≠ '\r' := by
  have hmark : ∀ {y : Char} {v : Text}, y ≠ '\n' ∧ y ≠ '\r' →
      ∀ x ∈ (y :: v).head?, x ≠ '\n' ∧ x ≠ '\r' := by
    intro y v hy x hx
    obtain rfl : y = x := by simpa using hx
    exact hy
  cases s with
  | nil => simp [escapeFrom]
  | cons c s =>
    by_cases hc : c = '"'
    · subst hc
      rw [escapeFrom]
      split
      · exact hmark (by decide)
      · exact hmark (y := '\\') (v := '"' :: escapeFrom true 2 0 s) (by decide)
    · rw [escapeFrom_cons hc]
      rcases escapeChar_cases true c with ⟨hplain, -, hcontrol⟩ | ⟨e, hescape, -⟩
      · rw [hplain]
        exact hmark ⟨fun heq => hs (by simp [heq]),
          ne_return (hcontrol.imp_right And.right)⟩
      · rw [hescape]
        exact hmark (by decide)

/-- A quote that two others do not follow opens a string on one line. -/
private theorem read_quote (ht : ∀ u, t ≠ '"' :: '"' :: u) :
    read ('"' :: t) = readBasic t := by
  rw [read]
  intro u h
  exact ht u h

/-- The same for a single quote. -/
private theorem read_singleQuote (ht : ∀ u, t ≠ '\'' :: '\'' :: u) :
    read ('\'' :: t) = readLiteral t := by
  rw [read]
  intro u h
  exact ht u h

/-- **A string is read back from each form that admits it.** -/
theorem read_writeAs {form : Form} (h : form.Admits s) (hr : NoQuote r) :
    read (writeAs s form ++ r) = .ok (s, r) := by
  cases form with
  | basic =>
    -- The reader must not take the two quotes of an empty string for the start of three.
    have hopen : ∀ u, escapeFrom false 0 0 s ++ '"' :: r ≠ '"' :: '"' :: u := by
      intro u heq
      cases hbody : escapeFrom false 0 0 s with
      | nil =>
        rw [hbody] at heq
        exact (hr '"' (by simp [(List.cons.inj heq).2])).1 rfl
      | cons y v =>
        rw [hbody] at heq
        obtain rfl : y = '"' := (List.cons.inj heq).1
        exact absurd (escapeFrom_eq_quote_cons hbody).1 (Nat.not_lt_zero _)
    rw [← readBasic_escapeFrom 0 s r, ← read_quote hopen]
    simp [writeAs]
  | literal =>
    have hopen : ∀ u, s ++ '\'' :: r ≠ '\'' :: '\'' :: u := by
      intro u heq
      cases s with
      | nil => exact (hr '\'' (by simp [(List.cons.inj heq).2])).2 rfl
      | cons y v => exact (h y (by simp)).1 (List.cons.inj heq).1
    rw [← readLiteral_append h r, ← read_singleQuote hopen]
    simp [writeAs]
  | basicLines =>
    have hquotes : "\"\"\"".toList = ['"', '"', '"'] := rfl
    -- A newline behind the opening quotes is dropped, so one is written if the string has
    -- newlines; if it has none, the string must not seem to start with one.
    have hbody : '\n' ∉ s → ∀ x ∈ (escapeFrom true 2 0 s ++ (['"', '"', '"'] ++ r)).head?,
        x ≠ '\n' ∧ x ≠ '\r' := by
      intro hnone x hx
      rw [List.head?_append] at hx
      cases hbody : (escapeFrom true 2 0 s).head? with
      | some y => exact head?_escapeFrom hnone 0 x (by simpa [hbody] using hx)
      | none =>
        obtain rfl : '"' = x := by simpa [hbody] using hx
        decide
    rw [← readBasicLines_escapeFrom (fun x hx => (hr x hx).1) 0 s,
      ← afterNewline_leadingNewline hbody, writeAs, hquotes]
    simp [read]
  | literalLines =>
    obtain ⟨hcontrol, hrun⟩ := h
    have hquotes : "'''".toList = ['\'', '\'', '\''] := rfl
    have hbody : '\n' ∉ s →
        ∀ x ∈ (s ++ (['\'', '\'', '\''] ++ r)).head?, x ≠ '\n' ∧ x ≠ '\r' := by
      intro hnone x hx
      cases s with
      | nil =>
        obtain rfl : '\'' = x := by simpa using hx
        decide
      | cons y v =>
        obtain rfl : y = x := by simpa using hx
        exact ⟨fun heq => hnone (by simp [heq]), ne_return (hcontrol y (by simp))⟩
    rw [← readLiteralLines_append hcontrol hrun fun x hx => (hr x hx).2,
      ← afterNewline_leadingNewline hbody, writeAs, hquotes]
    simp [read]

/-- **A string is read back**, in whichever of the four forms it is written.  The text
behind it must not begin with a quote, which would be taken for one of the string. -/
theorem read_write (s : Text) (hr : NoQuote r) : read (write s ++ r) = .ok (s, r) :=
  read_writeAs (admits_formOf s) hr

end TomlString

end StrategyDialect
