import StrategyDialect.Proofs.Text.Classes

/-!
# Pieces of texts

Three small theories that the proofs about strategies share: how a text splits at the
end of a stretch of characters of one class (`Text.append_inj_of_class`), what trimming
leaves (`Text.exists_eq_append_trim`, `Text.trim_trim`), and which lines a text has.

Where only the trimmed lines matter (`Text.exists_mem_lines_iff`), the carriage return
is immaterial, because trimming drops it anyway.  So the lines can be traded for the
pieces between newlines, which append well (`Text.splitOn_append`).  The lines
themselves append behind a newline (`Text.lines_append`), where a carriage return is out
of reach.
-/

namespace StrategyDialect

namespace Text

/-! ## Stretches of one class -/

/-- What starts with a character starts with this character only. -/
theorem forall_mem_head?_cons {p : Char → Prop} {y : Char} (hy : p y) (r : Text) :
    ∀ x ∈ (y :: r).head?, p x := by
  intro x hx
  obtain rfl : y = x := by simpa using hx
  exact hy

/-- What starts with a stretch of one kind and a character of that kind starts with a
character of it. -/
theorem forall_mem_head?_append_cons {p : Char → Prop} {v : Text} {y : Char}
    (hv : ∀ x ∈ v, p x) (hy : p y) (r : Text) : ∀ x ∈ (v ++ y :: r).head?, p x := by
  cases v with
  | nil => exact forall_mem_head?_cons hy r
  | cons z v => exact forall_mem_head?_cons (hv z (by simp)) (v ++ y :: r)

/-- **A stretch of one class ends in one way only.**  If two decompositions of a text
both start with a stretch of a class and go on with something that does not, they are
the same. -/
theorem append_inj_of_class {k : Char → Bool} {u v r s : Text} (h : u ++ r = v ++ s)
    (hu : ∀ x ∈ u, k x = true) (hv : ∀ x ∈ v, k x = true)
    (hr : ∀ x ∈ r.head?, k x = false) (hs : ∀ x ∈ s.head?, k x = false) :
    u = v ∧ r = s := by
  -- If one stretch were longer, its next character would be in the class and not in it.
  induction u generalizing v with
  | nil =>
    cases v with
    | nil => exact ⟨rfl, h⟩
    | cons y v =>
      obtain rfl : r = y :: (v ++ s) := h
      have hy := hv y (by simp)
      rw [hr y (by simp)] at hy
      cases hy
  | cons x u ih =>
    cases v with
    | nil =>
      obtain rfl : x :: (u ++ r) = s := h
      have hx := hu x (by simp)
      rw [hs x (by simp)] at hx
      cases hx
    | cons y v =>
      obtain ⟨rfl, htail⟩ : x = y ∧ u ++ r = v ++ s := List.cons.inj h
      obtain ⟨rfl, hrest⟩ :=
        ih htail (fun z hz => hu z (by simp [hz])) (fun z hz => hv z (by simp [hz]))
      exact ⟨rfl, hrest⟩

/-! ## Beginnings -/

/-- What is left behind a beginning, if the text begins so.  With this, a test for a
beginning becomes an equation between texts. -/
theorem afterPrefix?_eq_some_iff {start t rest : Text} :
    afterPrefix? start t = some rest ↔ t = start ++ rest := by
  induction start generalizing t with
  | nil => simp [afterPrefix?]
  | cons c start ih =>
    cases t with
    | nil => simp [afterPrefix?]
    | cons d t =>
      rw [afterPrefix?]
      by_cases hcd : c = d
      · subst hcd
        simp [ih]
      · simp [hcd, Ne.symm hcd]

/-- Text behind a text whose first character the beginning does not contain does not
matter. -/
theorem afterPrefix?_append {start t r : Text} (hr : ∀ x ∈ r.head?, x ∉ start) :
    afterPrefix? start (t ++ r) = (afterPrefix? start t).map (· ++ r) := by
  induction start generalizing t with
  | nil => rfl
  | cons c start ih =>
    cases t with
    | nil =>
      cases r with
      | nil => rfl
      | cons x r =>
        have hne : c ≠ x := by
          rintro rfl
          exact hr c (by simp) (by simp)
        simp [afterPrefix?, hne]
    | cons d t =>
      rw [List.cons_append, afterPrefix?, afterPrefix?]
      split
      · exact ih fun x hx hmem => hr x hx (by simp [hmem])
      · rfl

/-! ## Trimming -/

/-- Trimming at the start goes on behind a blank. -/
theorem trimStart_cons_of_isBlank {c : Char} {t : Text} (h : isBlank c = true) :
    trimStart (c :: t) = trimStart t := by
  simp [trimStart, h]

/-- Trimming at the start ends at the first visible character, and leaves it there. -/
theorem trimStart_cons_of_not_isBlank {c : Char} {t : Text} (h : isBlank c = false) :
    trimStart (c :: t) = c :: t := by
  simp [trimStart, h]

/-- Trimming at the end goes on before a blank. -/
theorem trimEnd_append_of_isBlank {c : Char} {t : Text} (h : isBlank c = true) :
    trimEnd (t ++ [c]) = trimEnd t := by
  simp [trimEnd, h]

/-- Trimming at the end ends at the last visible character, and leaves it there. -/
theorem trimEnd_append_of_not_isBlank {c : Char} {t : Text} (h : isBlank c = false) :
    trimEnd (t ++ [c]) = t ++ [c] := by
  simp [trimEnd, h]

/-- A blank in front is trimmed away, whatever is trimmed at the other end. -/
theorem trim_cons_of_isBlank {c : Char} {t : Text} (h : isBlank c = true) :
    trim (c :: t) = trim t := by
  rw [trim, trimStart_cons_of_isBlank h, trim]

/-- A blank at the end is trimmed away.  It is stated apart from `trim_cons_of_isBlank`,
since a carriage return stands at the end of a line. -/
theorem trim_append_of_isBlank {c : Char} {t : Text} (h : isBlank c = true) :
    trim (t ++ [c]) = trim t := by
  induction t with
  | nil => simp [trim, trimStart, h]
  | cons d t ih =>
    rw [List.cons_append]
    cases hd : isBlank d with
    | true => rw [trim_cons_of_isBlank hd, trim_cons_of_isBlank hd, ih]
    | false =>
      rw [trim, trim, trimStart_cons_of_not_isBlank hd, trimStart_cons_of_not_isBlank hd,
        ← List.cons_append, trimEnd_append_of_isBlank h]

/-- A text that neither starts nor ends with a blank is trimmed. -/
theorem trim_eq_self {t : Text} (hhead : ∀ x ∈ t.head?, isBlank x = false)
    (hlast : ∀ x ∈ t.getLast?, isBlank x = false) : trim t = t := by
  have hstart : trimStart t = t := by
    cases t with
    | nil => rfl
    | cons c t => exact trimStart_cons_of_not_isBlank (hhead c (by simp))
  have hend : trimEnd t = t := by
    rw [← List.head?_reverse] at hlast
    rw [trimEnd]
    cases hreverse : t.reverse with
    | nil => simpa using hreverse
    | cons c u =>
      rw [hreverse] at hlast
      have hc : ¬isBlank c = true := by simp [hlast c (by simp)]
      rw [List.dropWhile_cons_of_neg hc, ← hreverse, List.reverse_reverse]
  rw [trim, hstart, hend]

/-- A carriage return at the end of a line is lost to trimming as well, so dropping it
first makes no difference. -/
theorem trim_withoutReturn (t : Text) : trim (withoutReturn t) = trim t := by
  rw [withoutReturn]
  split
  next h =>
    have hlast : t = t.dropLast ++ ['\r'] := (List.dropLast_append_getLast? '\r' h).symm
    rw [hlast, List.dropLast_concat, trim_append_of_isBlank (by decide)]
  next => rfl

/-- What trimming takes away are blanks at the two ends. -/
theorem exists_eq_append_trim (t : Text) :
    ∃ w w' : Text, (∀ x ∈ w, isBlank x = true) ∧ (∀ x ∈ w', isBlank x = true) ∧
      t = w ++ trim t ++ w' := by
  refine ⟨t.takeWhile isBlank, (trimStart t).rtakeWhile isBlank, ?_, ?_, ?_⟩
  · intro x hx
    exact List.mem_takeWhile_imp hx
  · intro x hx
    exact List.mem_rtakeWhile_imp hx
  · have hend : trim t ++ (trimStart t).rtakeWhile isBlank = trimStart t :=
      List.rdropWhile_append_rtakeWhile
    rw [List.append_assoc, hend, trimStart, List.takeWhile_append_dropWhile]

/-- Nothing is left by trimming if there was nothing but blanks. -/
theorem trim_eq_nil_iff {t : Text} : trim t = [] ↔ ∀ x ∈ t, isBlank x = true := by
  constructor
  · intro h
    obtain ⟨w, w', hw, hw', ht⟩ := exists_eq_append_trim t
    rw [ht, h, List.append_nil]
    intro x hx
    exact (List.mem_append.mp hx).elim (hw x) (hw' x)
  · intro h
    have hstart : trimStart t = [] := List.dropWhile_eq_nil_iff.mpr h
    rw [trim, hstart]
    rfl

/-- A trimmed text starts with no blank, if it starts with anything at all. -/
theorem isBlank_head?_trim (t : Text) : ∀ x ∈ (trim t).head?, isBlank x = false := by
  intro x hx
  obtain ⟨w, hw⟩ : trim t <+: trimStart t := List.rdropWhile_prefix ..
  have hhead : (trimStart t).head? = some x := by
    rw [← hw, List.head?_append, Option.mem_def.mp hx, Option.some_or]
  have hnot := List.head?_dropWhile_not isBlank t
  rw [← trimStart, hhead] at hnot
  exact hnot

/-- A trimmed text ends with no blank.  Trimming the end does not undo what trimming the
start has done, since it drops characters only. -/
theorem isBlank_getLast?_trim (t : Text) :
    ∀ x ∈ (trim t).getLast?, isBlank x = false := by
  intro x hx
  obtain ⟨hne, rfl⟩ := List.mem_getLast?_eq_getLast hx
  exact Bool.eq_false_iff.mpr (List.rdropWhile_last_not isBlank (trimStart t) hne)

/-- Trimming twice is trimming once, because a trimmed text begins and ends with visible
characters. -/
theorem trim_trim (t : Text) : trim (trim t) = trim t :=
  trim_eq_self (isBlank_head?_trim t) (isBlank_getLast?_trim t)

/-! ## Lines -/

/-- The pieces of two texts with a separator between them. -/
theorem splitOn_append (x : Char) (s t : Text) :
    splitOn x (s ++ x :: t) = splitOn x s ++ splitOn x t := by
  induction s with
  | nil => simp [splitOn]
  | cons c s ih =>
    rw [List.cons_append, splitOn, splitOn, ih]
    split
    · rfl
    · cases h : splitOn x s with
      | nil => exact absurd h (splitOn_ne_nil x s)
      | cons piece pieces => rfl

/-- A text without the separator is one stretch. -/
theorem splitOn_of_not_mem {x : Char} {t : Text} (h : x ∉ t) : splitOn x t = [t] := by
  induction t with
  | nil => rfl
  | cons c t ih =>
    rw [List.mem_cons, not_or] at h
    rw [splitOn, if_neg (Ne.symm h.1), ih h.2]

/-- The characters of a stretch are characters of the text. -/
theorem mem_of_mem_splitOn {x c : Char} {t piece : Text} (h : piece ∈ splitOn x t)
    (hc : c ∈ piece) : c ∈ t := by
  induction t generalizing piece with
  | nil =>
    obtain rfl : piece = [] := by simpa [splitOn] using h
    cases hc
  | cons y t ih =>
    rw [splitOn] at h
    split at h
    · rcases List.mem_cons.mp h with rfl | h
      · cases hc
      · exact List.mem_cons_of_mem y (ih h hc)
    · cases hsplit : splitOn x t with
      | nil => exact absurd hsplit (splitOn_ne_nil x t)
      | cons first pieces =>
        rw [hsplit] at h ih
        rcases List.mem_cons.mp h with rfl | h
        · rcases List.mem_cons.mp hc with rfl | hc
          · exact List.mem_cons_self
          · exact List.mem_cons_of_mem y (ih List.mem_cons_self hc)
        · exact List.mem_cons_of_mem y (ih (List.mem_cons_of_mem first h) hc)

/-- A line with visible characters is a piece between newlines, up to trimming.  The
last piece is no line if it is empty, but then it is not the one that is looked for. -/
private theorem exists_mem_linesOfPieces_iff {t : Text} (ht : t ≠ [])
    {pieces : List Text} :
    (∃ line ∈ linesOfPieces pieces, trim line = t) ↔
      ∃ piece ∈ pieces, trim piece = t := by
  induction pieces with
  | nil => simp [linesOfPieces]
  | cons piece pieces ih =>
    cases pieces with
    | nil =>
      rw [linesOfPieces]
      split
      next hempty =>
        -- The last piece is empty and no line, but `t` is not empty either.
        obtain rfl : piece = [] := List.isEmpty_iff.mp hempty
        simp [trim, trimStart, trimEnd, ht.symm]
      next => rfl
    | cons next pieces =>
      rw [linesOfPieces]
      · simp only [List.mem_cons, exists_eq_or_imp, trim_withoutReturn] at ih ⊢
        rw [ih]
      · simp

/-- **The trimmed lines of a text are its trimmed pieces between newlines**, empty ones
apart. -/
theorem exists_mem_lines_iff {t s : Text} (ht : t ≠ []) :
    (∃ line ∈ lines s, trim line = t) ↔ ∃ piece ∈ splitOn '\n' s, trim piece = t :=
  exists_mem_linesOfPieces_iff ht

/-- The characters of a line are characters of the text: a line is a piece, less a
carriage return at most. -/
theorem mem_of_mem_lines {c : Char} {t line : Text} (h : line ∈ lines t) (hc : c ∈ line) :
    c ∈ t := by
  have hpiece : ∀ {pieces : List Text}, line ∈ linesOfPieces pieces →
      ∃ piece ∈ pieces, c ∈ piece := by
    intro pieces h
    induction pieces with
    | nil => cases h
    | cons piece pieces ih =>
      cases pieces with
      | nil =>
        rw [linesOfPieces] at h
        split at h
        next => cases h
        next => exact ⟨line, h, hc⟩
      | cons next pieces =>
        rw [linesOfPieces] at h
        · rcases List.mem_cons.mp h with rfl | h
          · refine ⟨piece, List.mem_cons_self, ?_⟩
            rw [withoutReturn] at hc
            split at hc
            · exact List.mem_of_mem_dropLast hc
            · exact hc
          · obtain ⟨later, hlater, hmem⟩ := ih h
            exact ⟨later, List.mem_cons_of_mem piece hlater, hmem⟩
        · simp
  obtain ⟨piece, hsplit, hmem⟩ := hpiece h
  exact mem_of_mem_splitOn hsplit hmem

/-- The pieces before the last ones are lines, each without a carriage return at its
end. -/
private theorem linesOfPieces_append {ps qs : List Text} (hqs : qs ≠ []) :
    linesOfPieces (ps ++ qs) = ps.map withoutReturn ++ linesOfPieces qs := by
  induction ps with
  | nil => rfl
  | cons p ps ih =>
    rw [List.cons_append, linesOfPieces, ih, List.map_cons, List.cons_append]
    simp [hqs]

/-- Behind a newline the lines start afresh.  Before it they are the pieces between
newlines, the last of which is ended by this newline and counts even if it is empty. -/
theorem lines_append_newline_cons (s t : Text) :
    lines (s ++ '\n' :: t) = (splitOn '\n' s).map withoutReturn ++ lines t := by
  rw [lines, splitOn_append, linesOfPieces_append (splitOn_ne_nil '\n' t), lines]

/-- **The lines of two texts** one after the other, where the first ends a line. -/
theorem lines_append {s : Text} (hs : s = [] ∨ s.getLast? = some '\n') (t : Text) :
    lines (s ++ t) = lines s ++ lines t := by
  rcases hs with rfl | hs
  · rfl
  · obtain ⟨u, rfl⟩ := List.getLast?_eq_some_iff.mp hs
    rw [List.append_assoc, List.singleton_append, lines_append_newline_cons,
      lines_append_newline_cons]
    simp [lines, splitOn, linesOfPieces]

/-- A line that is ended by a newline is the first line of the text, without the
carriage return that may end it. -/
theorem lines_cons {line : Text} (h : '\n' ∉ line) (t : Text) :
    lines (line ++ '\n' :: t) = withoutReturn line :: lines t := by
  rw [lines_append_newline_cons, splitOn_of_not_mem h]
  rfl

/-- A text whose last line is closed can be followed by another. -/
theorem closeLastLine_closed (t : Text) :
    closeLastLine t = [] ∨ (closeLastLine t).getLast? = some '\n' := by
  rw [closeLastLine]
  split
  next h => exact h
  next => exact .inr (List.getLast?_concat ..)

/-- The last line of a text loses at most a carriage return when it is closed. -/
theorem lines_closeLastLine (t : Text) :
    lines (closeLastLine t) = lines t ∨
      ∃ ls l, lines t = ls ++ [l ++ ['\r']] ∧ lines (closeLastLine t) = ls ++ [l] := by
  rw [closeLastLine]
  split
  next => exact .inl rfl
  next hopen =>
    obtain ⟨hne, hlast⟩ := not_or.mp hopen
    -- The last line is what stands behind the last newline.
    obtain ⟨front, line, rfl, hfront, hline⟩ : ∃ front line, t = front ++ line ∧
        (front = [] ∨ front.getLast? = some '\n') ∧ '\n' ∉ line := by
      refine ⟨t.rdropWhile (· != '\n'), t.rtakeWhile (· != '\n'),
        List.rdropWhile_append_rtakeWhile.symm, ?_, ?_⟩
      · by_cases hfront : t.rdropWhile (· != '\n') = []
        · exact .inl hfront
        · refine .inr ?_
          rw [List.getLast?_eq_some_getLast hfront]
          simpa using List.rdropWhile_last_not (· != '\n') t hfront
      · intro hmem
        simpa using List.mem_rtakeWhile_imp hmem
    have hnonempty : line ≠ [] := by
      rintro rfl
      rw [List.append_nil] at hne hlast
      exact hfront.elim hne hlast
    have hlines : lines line = [line] := by
      rw [lines, splitOn_of_not_mem hline, linesOfPieces,
        if_neg (by simpa using hnonempty)]
    rw [lines_append hfront, List.append_assoc, lines_append hfront, lines_cons hline,
      hlines, withoutReturn]
    split
    next hreturn =>
      refine .inr ⟨lines front, line.dropLast, ?_, rfl⟩
      rw [List.dropLast_append_getLast? '\r' hreturn]
    next => exact .inl rfl

end Text

end StrategyDialect
