import StrategyDialect.Proofs.Text.Lines

/-!
# Line ends

A newline ends a line, and a carriage return may come before it.  `Text.crlf` puts a
carriage return before each newline of a text, and `Text.lfcr` does the same in a text
that is read backwards.

Positions move when characters are put in, so nothing here is said about positions
themselves.  A position is the text before it: `Text.crlf` respects concatenation, and
it preserves the order of the beginnings of a text (`Text.length_crlf_le_iff`).  What
the text is searched for is not touched: trimming and the first character of a kind
commute with `Text.crlf`, and the trimmed pieces between newlines stay the same, because
trimming drops a carriage return at the end of a piece.

## Main definitions

* `Text.crlf`, `Text.lfcr`: a carriage return before each newline

## Main statements

* `Text.trim_crlf`: trimming
* `Text.afterPrefix?_crlf`, `Text.afterPrefix?_lfcr`: beginnings without line ends
* `Text.length_crlf_le_iff`: the order of positions
* `Text.exists_mem_splitOn_crlf_iff`: the trimmed pieces between newlines
-/

namespace StrategyDialect

/-- A character, with a carriage return before it if it is a newline. -/
def returnBefore (c : Char) : Text :=
  if c = '\n' then ['\r', '\n'] else [c]

namespace Text

/-- The text with a carriage return before each newline. -/
def crlf (t : Text) : Text :=
  t.flatMap returnBefore

/-- The same for a text that is read backwards. -/
def lfcr (t : Text) : Text :=
  t.flatMap fun c => (returnBefore c).reverse

variable {c : Char} {s t u v : Text}

@[simp] theorem crlf_nil : crlf [] = [] :=
  rfl

@[simp] theorem crlf_append (t u : Text) : crlf (t ++ u) = crlf t ++ crlf u :=
  List.flatMap_append

@[simp] theorem crlf_newline_cons (t : Text) :
    crlf ('\n' :: t) = '\r' :: '\n' :: crlf t :=
  rfl

/-- A character that is no newline stays as it is.  This and the three lemmas before it
are how `Text.crlf` is computed, and none of the proofs below unfolds it. -/
theorem crlf_cons (h : c ≠ '\n') (t : Text) : crlf (c :: t) = c :: crlf t := by
  rw [crlf, List.flatMap_cons, returnBefore, if_neg h]
  rfl

@[simp] theorem lfcr_nil : lfcr [] = [] :=
  rfl

@[simp] theorem lfcr_append (t u : Text) : lfcr (t ++ u) = lfcr t ++ lfcr u :=
  List.flatMap_append

@[simp] theorem lfcr_newline_cons (t : Text) :
    lfcr ('\n' :: t) = '\n' :: '\r' :: lfcr t :=
  rfl

/-- Read backwards, too, a character that is no newline stays as it is. -/
theorem lfcr_cons (h : c ≠ '\n') (t : Text) : lfcr (c :: t) = c :: lfcr t := by
  rw [lfcr, List.flatMap_cons, returnBefore, if_neg h]
  rfl

/-- Turning a text round exchanges the two maps: what stands before a newline then
stands behind it. -/
theorem reverse_crlf (t : Text) : (crlf t).reverse = lfcr t.reverse := by
  rw [crlf, lfcr, List.reverse_flatMap]
  rfl

/-- The same the other way round, for a text that is read backwards to begin with. -/
theorem reverse_lfcr (t : Text) : (lfcr t).reverse = crlf t.reverse := by
  rw [← List.reverse_reverse (crlf t.reverse), reverse_crlf, List.reverse_reverse]

/-- A text without line ends stays as it is. -/
theorem crlf_eq_self (h : '\n' ∉ t) : crlf t = t := by
  induction t with
  | nil => rfl
  | cons c t ih =>
    rw [List.mem_cons, not_or] at h
    rw [crlf_cons (Ne.symm h.1), ih h.2]

/-- A text of visible characters, and not the empty one. -/
def IsVisible (t : Text) : Prop :=
  t ≠ [] ∧ ∀ x ∈ t, isBlank x = false

/-- A name has no line ends in it, nor any other blank. -/
theorem isVisible_of_isName (h : t.isName = true) : t.IsVisible :=
  ⟨ne_nil_of_isName h, fun _ hx =>
    isBlank_eq_false_of_isNameChar (isNameChar_of_mem h hx)⟩

/-- A qualified name has none either. -/
theorem isVisible_of_isQualifiedName (h : t.isQualifiedName = true) : t.IsVisible := by
  refine ⟨?_, fun x hx => isBlank_eq_false_of_mem h hx⟩
  rintro rfl
  cases h

/-- A visible text holds no carriage return. -/
theorem IsVisible.return_not_mem (h : t.IsVisible) : '\r' ∉ t := by
  intro hmem
  have hblank := h.2 '\r' hmem
  cases hblank

/-- A visible text holds no newline, so `Text.crlf` leaves it as it is. -/
theorem IsVisible.newline_not_mem (h : t.IsVisible) : '\n' ∉ t := by
  intro hmem
  have hblank := h.2 '\n' hmem
  cases hblank

/-- Nothing but carriage returns is put in, and nothing is lost. -/
theorem mem_crlf_iff (h : c ≠ '\r') : c ∈ crlf t ↔ c ∈ t := by
  induction t with
  | nil => rfl
  | cons d t ih =>
    by_cases hd : d = '\n'
    · subst hd
      simp [ih, h]
    · rw [crlf_cons hd, List.mem_cons, List.mem_cons, ih]

/-- Only the empty text becomes empty. -/
theorem crlf_eq_nil_iff : crlf t = [] ↔ t = [] := by
  cases t with
  | nil => simp
  | cons c t =>
    by_cases hc : c = '\n'
    · simp [hc]
    · simp [crlf_cons hc]

/-- The test for an empty text comes out the same. -/
theorem isEmpty_crlf (t : Text) : (crlf t).isEmpty = t.isEmpty := by
  rw [Bool.eq_iff_iff, List.isEmpty_iff, List.isEmpty_iff, crlf_eq_nil_iff]

/-- The first character: where it was a newline, it is a carriage return. -/
theorem head?_crlf (t : Text) :
    (crlf t).head? = t.head?.map fun c => if c = '\n' then '\r' else c := by
  cases t with
  | nil => rfl
  | cons c t =>
    by_cases hc : c = '\n'
    · simp [hc]
    · simp [crlf_cons hc, hc]

/-- The first character of a text that is read backwards stays the same. -/
theorem head?_lfcr (t : Text) : (lfcr t).head? = t.head? := by
  cases t with
  | nil => rfl
  | cons c t =>
    by_cases hc : c = '\n'
    · simp [hc]
    · simp [lfcr_cons hc]

/-- The last character stays the same, because carriage returns are put before newlines
and never at the end.  The first one may change: a newline in front gets one before
it. -/
theorem getLast?_crlf (t : Text) : (crlf t).getLast? = t.getLast? := by
  rw [← List.head?_reverse, reverse_crlf, head?_lfcr, List.head?_reverse]

/-- A character that is no line end comes first, or does not. -/
theorem head?_crlf_eq_some_iff (hr : c ≠ '\r') (hn : c ≠ '\n') :
    (crlf t).head? = some c ↔ t.head? = some c := by
  rw [head?_crlf]
  cases t with
  | nil => simp
  | cons d t =>
    by_cases hd : d = '\n'
    · simp [hd, Ne.symm hr, Ne.symm hn]
    · simp [hd]

/-- A kind of characters to which neither part of a line end belongs comes first, or
does not. -/
theorem any_head?_crlf {k : Char → Bool} (hr : k '\r' = false)
    (hn : k '\n' = false) (t : Text) : (crlf t).head?.any k = t.head?.any k := by
  rw [head?_crlf]
  cases t with
  | nil => rfl
  | cons d t =>
    by_cases hd : d = '\n'
    · simp [hd, hr, hn]
    · simp [hd]

/-! ## Beginnings -/

/-- A beginning whose characters are mapped to themselves, and of which no other
character is mapped to something that starts like it. -/
private theorem afterPrefix?_flatMap {f : Char → Text} {start : Text}
    (hsame : ∀ x ∈ start, f x = [x])
    (hother : ∀ x ∉ start, ∃ y r, f x = y :: r ∧ y ∉ start) (t : Text) :
    afterPrefix? start (t.flatMap f) = (afterPrefix? start t).map (·.flatMap f) := by
  -- The conditions are on the characters of the whole beginning, of which the induction
  -- takes a part.
  suffices hpart : ∀ part : Text, (∀ x ∈ part, x ∈ start) →
      afterPrefix? part (t.flatMap f) = (afterPrefix? part t).map (·.flatMap f) from
    hpart start fun _ hx => hx
  intro part hpart
  induction part generalizing t with
  | nil => rfl
  | cons c part ih =>
    have hc : c ∈ start := hpart c (by simp)
    cases t with
    | nil => rfl
    | cons d t =>
      rw [List.flatMap_cons]
      by_cases hd : d ∈ start
      · rw [hsame d hd, List.singleton_append, afterPrefix?, afterPrefix?]
        split
        · exact ih t fun x hx => hpart x (by simp [hx])
        · rfl
      · obtain ⟨y, r, hy, hystart⟩ := hother d hd
        have hne : c ≠ d := fun h => hd (h ▸ hc)
        have hne' : c ≠ y := fun h => hystart (h ▸ hc)
        rw [hy, List.cons_append, afterPrefix?, afterPrefix?, if_neg hne, if_neg hne']
        rfl

/-- A beginning without line ends is found as before, and what is left behind it is
changed in the same way.  A carriage return has to be excluded as well: it could be the
one that was put in. -/
theorem afterPrefix?_crlf {start : Text} (hr : '\r' ∉ start)
    (hn : '\n' ∉ start) (t : Text) :
    afterPrefix? start (crlf t) = (afterPrefix? start t).map crlf := by
  refine afterPrefix?_flatMap (fun x hx => ?_) (fun x hx => ?_) t
  · exact if_neg (ne_of_mem_of_not_mem hx hn)
  · by_cases h : x = '\n'
    · exact ⟨'\r', ['\n'], by simp [returnBefore, h], hr⟩
    · exact ⟨x, [], by simp [returnBefore, h], hx⟩

/-- Read backwards, a beginning without newlines is enough.  A carriage return that was
put in stands behind its newline now, where such a beginning does not reach. -/
theorem afterPrefix?_lfcr {start : Text} (hn : '\n' ∉ start) (t : Text) :
    afterPrefix? start (lfcr t) = (afterPrefix? start t).map lfcr := by
  refine afterPrefix?_flatMap (fun x hx => ?_) (fun x hx => ?_) t
  · rw [returnBefore, if_neg (ne_of_mem_of_not_mem hx hn)]
    rfl
  · by_cases h : x = '\n'
    · exact ⟨'\n', ['\r'], by simp [returnBefore, h], hn⟩
    · exact ⟨x, [], by simp [returnBefore, h], hx⟩

/-! ## Blanks -/

/-- The characters of a kind are the same ones, if the characters of line ends are not
among them.  Words of a text are compared through this. -/
theorem filter_crlf {k : Char → Bool} (hr : k '\r' = false)
    (hn : k '\n' = false) (t : Text) : (crlf t).filter k = t.filter k := by
  induction t with
  | nil => rfl
  | cons c t ih =>
    by_cases hc : c = '\n'
    · subst hc
      simp [hr, hn, ih]
    · rw [crlf_cons hc, List.filter_cons, List.filter_cons, ih]

/-- A blank text stays blank, and no other becomes blank. -/
theorem isAllBlank_crlf (t : Text) : isAllBlank (crlf t) = isAllBlank t := by
  induction t with
  | nil => rfl
  | cons c t ih =>
    rw [isAllBlank] at ih
    by_cases hc : c = '\n'
    · subst hc
      simp only [isAllBlank, crlf_newline_cons, List.all_cons, ih]
      rfl
    · simp only [isAllBlank, crlf_cons hc, List.all_cons, ih]

/-- Trimming at the start commutes with the line ends: what it drops is blank, and so is
a carriage return before a newline. -/
theorem trimStart_crlf (t : Text) : trimStart (crlf t) = crlf (trimStart t) := by
  have hreturn : isBlank '\r' = true := rfl
  have hnewline : isBlank '\n' = true := rfl
  induction t with
  | nil => rfl
  | cons c t ih =>
    by_cases hc : c = '\n'
    · subst hc
      rw [crlf_newline_cons, trimStart_cons_of_isBlank hreturn,
        trimStart_cons_of_isBlank hnewline, trimStart_cons_of_isBlank hnewline, ih]
    · rw [crlf_cons hc]
      cases hblank : isBlank c with
      | true =>
        rw [trimStart_cons_of_isBlank hblank, trimStart_cons_of_isBlank hblank, ih]
      | false =>
        rw [trimStart_cons_of_not_isBlank hblank,
          trimStart_cons_of_not_isBlank hblank, crlf_cons hc]

/-- The end of a text is the start of the reversed text, in which the parts of a line
end are swapped. -/
theorem trimEnd_crlf (t : Text) : trimEnd (crlf t) = crlf (trimEnd t) := by
  suffices hreversed : ∀ r : Text,
      (lfcr r).dropWhile isBlank = lfcr (r.dropWhile isBlank) by
    rw [trimEnd, trimEnd, reverse_crlf, hreversed, reverse_lfcr]
  intro r
  induction r with
  | nil => rfl
  | cons c r ih =>
    by_cases hc : c = '\n'
    · subst hc
      exact ih
    · rw [lfcr_cons hc]
      cases hblank : isBlank c with
      | true =>
        rw [List.dropWhile_cons_of_pos hblank, List.dropWhile_cons_of_pos hblank, ih]
      | false =>
        have hnot : ¬isBlank c = true := by simp [hblank]
        rw [List.dropWhile_cons_of_neg hnot,
          List.dropWhile_cons_of_neg hnot, lfcr_cons hc]

/-- **Trimming does not see which line ends it drops**, and keeps the others. -/
theorem trim_crlf (t : Text) : trim (crlf t) = crlf (trim t) := by
  rw [trim, trimStart_crlf, trimEnd_crlf, trim]

/-! ## Positions -/

/-- A text does not become shorter. -/
theorem length_le_length_crlf (t : Text) : t.length ≤ (crlf t).length := by
  induction t with
  | nil => exact Nat.le_refl _
  | cons c t ih =>
    by_cases hc : c = '\n'
    · subst hc
      simp only [crlf_newline_cons, List.length_cons]
      omega
    · simp only [crlf_cons hc, List.length_cons]
      omega

/-- A longer beginning of a text is longer also with the carriage returns put in, since
the characters that it has more are still there. -/
theorem length_crlf_lt_of_prefix (h : t <+: u) (hlt : t.length < u.length) :
    (crlf t).length < (crlf u).length := by
  obtain ⟨r, rfl⟩ := h
  have hle := length_le_length_crlf r
  rw [List.length_append] at hlt
  rw [crlf_append, List.length_append]
  omega

/-- **Positions keep their order.**  Of two beginnings of a text, the shorter one stays
the shorter. -/
theorem length_crlf_le_iff (ht : t <+: s) (hu : u <+: s) :
    (crlf t).length ≤ (crlf u).length ↔ t.length ≤ u.length := by
  constructor
  · intro hle
    by_contra hlt
    have hprefix := List.prefix_of_prefix_length_le hu ht (by omega)
    have := length_crlf_lt_of_prefix hprefix (by omega)
    omega
  · intro hle
    obtain ⟨r, rfl⟩ := List.prefix_of_prefix_length_le ht hu hle
    rw [crlf_append, List.length_append]
    exact Nat.le_add_right _ _

/-- The order of two beginnings of one text stays the same.  Positions are compared in
this way: a position is as far behind another one as the text before it is longer. -/
theorem length_crlf_lt_iff (ht : t <+: s) (hu : u <+: s) :
    (crlf t).length < (crlf u).length ↔ t.length < u.length := by
  have hle := length_crlf_le_iff hu ht
  omega

/-- What follows a beginning of a text follows the same beginning with carriage
returns. -/
theorem drop_length_crlf_take (t : Text) (n : Nat) :
    (crlf t).drop (crlf (t.take n)).length = crlf (t.drop n) := by
  have hsplit : crlf t = crlf (t.take n) ++ crlf (t.drop n) := by
    rw [← crlf_append, List.take_append_drop]
  rw [hsplit, List.drop_left]

/-! ## Lines -/

/-- **The trimmed pieces between newlines** are the same with and without carriage
returns. -/
theorem exists_mem_splitOn_crlf_iff (s : Text) :
    (∃ piece ∈ splitOn '\n' (crlf s), trim piece = t) ↔
      ∃ piece ∈ splitOn '\n' s, trim piece = t := by
  induction hn : s.length using Nat.strongRecOn generalizing s with
  | ind n ih =>
    by_cases hmem : '\n' ∈ s
    · obtain ⟨u, r, rfl, hu⟩ := List.eq_append_cons_of_mem hmem
      have hreturn : '\n' ∉ u ++ ['\r'] := by simp [hu]
      have hsplit : crlf (u ++ '\n' :: r) = (u ++ ['\r']) ++ '\n' :: crlf r := by
        simp [crlf_eq_self hu]
      have htrim : trim (u ++ ['\r']) = trim u := trim_append_of_isBlank rfl
      have hrest := ih r.length (by simp [← hn]; omega) r rfl
      rw [hsplit, splitOn_append, splitOn_append, splitOn_of_not_mem hreturn,
        splitOn_of_not_mem hu]
      simp only [List.singleton_append, List.mem_cons, exists_eq_or_imp, htrim, hrest]
    · rw [crlf_eq_self hmem]

end Text

end StrategyDialect
