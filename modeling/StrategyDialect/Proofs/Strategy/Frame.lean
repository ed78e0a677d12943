import Mathlib.Data.List.Infix
import StrategyDialect.Proofs.Strategy.Readings
import StrategyDialect.Strategy.Conversion

/-!
# The frame around a strategy

Conversion puts a text before a strategy and a text after it.  Nothing that is later
read from the result begins in the text before or ends in the text after, and that is a
matter of two small interfaces.

* `Wrapper.Header` holds of the texts before: what they are made of, how they end, and
  that the word `void` does not stand in them with blanks and a name after it,
  **whatever text follows**.  The last point is why `Text.LacksPhrase` quantifies over
  continuations: a method name may be spelled like any piece of the frame, so no
  argument about the frame alone would do, and the quantifier makes the property closed
  under concatenation.
* `Wrapper.Trailer` holds of the texts after: braces, spaces and newlines.

Later modules see a converted strategy as `a ++ source ++ b` with a header and a trailer
(`Dialect.generatedCode_eq`).

## Main definitions

* `Text.LacksPhrase`: no keyword with blanks and a name after it starts in a text
* `Wrapper.Header`, `Wrapper.Trailer`: the texts before and after a strategy
* `Dialect.header`, `Dialect.trailer`: those of conversion

## Main statements

* `Wrapper.le_offset_of_phrase`, `Wrapper.offset_le_of_last`: what begins and ends
  inside the strategy
* `Dialect.isHeader_header`, `Dialect.isTrailer_trailer`: conversion puts a header and a
  trailer
* `Dialect.exists_frame`: the frame around a converted strategy
-/

namespace StrategyDialect

namespace Text

/-! ## Phrases -/

/-- No occurrence of `kw` with blanks and the start of a name after it begins in `a`,
whatever follows `a`. -/
def LacksPhrase (kw a : Text) : Prop :=
  ∀ t x w y : Text, ∀ n : Char, a ++ t = x ++ kw ++ w ++ n :: y → w ≠ [] → w.IsBlank →
    isNameStart n = true → a.length ≤ x.length

variable {kw a b : Text}

/-- An empty text lacks every phrase. -/
theorem lacksPhrase_nil : LacksPhrase kw [] := by
  intro t x w y n _ _ _ _
  exact Nat.zero_le _

/-- Two texts that lack a phrase lack it together.  A phrase that began in the first and
ended in the second is excluded, because the first lacks it with every continuation. -/
theorem LacksPhrase.append (ha : LacksPhrase kw a) (hb : LacksPhrase kw b) :
    LacksPhrase kw (a ++ b) := by
  intro t x w y n h hne hw hn
  have hlength : a.length ≤ x.length := ha (b ++ t) x w y n (by simpa using h) hne hw hn
  obtain ⟨x', rfl⟩ : a <+: x := by
    refine List.prefix_of_prefix_length_le ⟨b ++ t, rfl⟩ ⟨kw ++ w ++ n :: y, ?_⟩ hlength
    simpa using h.symm
  have hrest : b ++ t = x' ++ kw ++ w ++ n :: y := by simpa using h
  have := hb t x' w y n hrest hne hw hn
  simp only [List.length_append]
  omega

/-- Any number of texts that lack a phrase lack it together. -/
theorem lacksPhrase_flatMap {ts : List Text} {f : Text → Text}
    (h : ∀ t ∈ ts, LacksPhrase kw (f t)) : LacksPhrase kw (ts.flatMap f) := by
  induction ts with
  | nil => exact lacksPhrase_nil
  | cons t ts ih =>
    rw [List.flatMap_cons]
    exact (h t (by simp)).append (ih fun t' ht' => h t' (by simp [ht']))

/-- A fixed text with no ending that agrees with the keyword as far as both go. -/
def Clashes (kw a : Text) : Prop :=
  ∀ s ∈ a.tails, s = [] ∨ ¬s <+: kw ∧ ¬kw <+: s

instance (kw a : Text) : Decidable (Clashes kw a) :=
  inferInstanceAs (Decidable (∀ s ∈ a.tails, s = [] ∨ ¬s <+: kw ∧ ¬kw <+: s))

/-- A text in which no suffix agrees with the keyword as far as both reach lacks the
phrase.  The condition is computed, which is what makes it useful for the fixed pieces
of a frame. -/
theorem Clashes.lacksPhrase (h : Clashes kw a) : LacksPhrase kw a := by
  intro t x w y n heq _ _ _
  by_contra hlt
  have hx : x <+: a ++ t := ⟨kw ++ w ++ n :: y, by simp [heq]⟩
  obtain ⟨s, rfl⟩ : x <+: a := List.prefix_of_prefix_length_le hx ⟨t, rfl⟩ (by omega)
  have hs : s ++ t = kw ++ (w ++ n :: y) := by simpa using heq
  have hsuffix : s ∈ (x ++ s).tails := (List.mem_tails _ _).mpr ⟨x, rfl⟩
  rcases h s hsuffix with rfl | ⟨hnot, hnot'⟩
  · simp at hlt
  · have hkw : kw <+: s ++ t := ⟨w ++ n :: y, hs.symm⟩
    rcases List.prefix_or_prefix_of_prefix ⟨t, rfl⟩ hkw with hp | hp
    · exact hnot hp
    · exact hnot' hp

/-- Where a stretch of visible characters and a stretch of blanks end at `z`, no phrase
begins. -/
private theorem ne_phrase_of_word {word gap t w y : Text} {z n : Char}
    (hvisible : ∀ x ∈ kw, isBlank x = false) (hzkw : z ∉ kw)
    (hword : ∀ x ∈ word, isBlank x = false) (hgap : gap.IsBlank) (hz : isBlank z = false)
    (hzname : isNameStart z = false) (hne : w ≠ []) (hw : w.IsBlank)
    (hn : isNameStart n = true) : word ++ (gap ++ z :: t) ≠ kw ++ (w ++ n :: y) := by
  intro h
  have hnblank : isBlank n = false :=
    isBlank_eq_false_of_isNameChar (isNameChar_of_isNameStart hn)
  have hends : gap ++ z :: t ≠ w ++ n :: y := by
    intro hends
    obtain ⟨-, hrest⟩ :=
      append_inj_of_class hends hgap hw (by simpa using hz) (by simpa using hnblank)
    obtain rfl : z = n := (List.cons.inj hrest).1
    exact absurd hn (by simp [hzname])
  -- One of the two first words is longer, and its next character is a blank in the other.
  rcases List.append_eq_append_iff.mp h with ⟨m, hm, hrest⟩ | ⟨m, hm, hrest⟩
  · cases m with
    | nil => exact hends hrest
    | cons c m =>
      have hc : c ∈ kw := by simp [hm]
      cases gap with
      | nil =>
        obtain rfl : z = c := (List.cons.inj hrest).1
        exact hzkw hc
      | cons g gap =>
        obtain rfl : g = c := (List.cons.inj hrest).1
        exact absurd (hgap g (by simp)) (by simp [hvisible g hc])
  · cases m with
    | nil => exact hends hrest.symm
    | cons c m =>
      have hc : isBlank c = false := hword c (by simp [hm])
      cases w with
      | nil => exact hne rfl
      | cons c' w =>
        obtain rfl : c' = c := (List.cons.inj hrest).1
        exact absurd (hw c' (by simp)) (by simp [hc])

/-- A word and blanks, and then a visible character at which no name starts: even if the
word is the keyword, or ends with it, no name follows. -/
theorem lacksPhrase_word {word gap : Text} {z : Char}
    (hvisible : ∀ x ∈ kw, isBlank x = false) (hzkw : z ∉ kw)
    (hword : ∀ x ∈ word, isBlank x = false) (hgap : gap.IsBlank) (hz : isBlank z = false)
    (hzname : isNameStart z = false) : LacksPhrase kw (word ++ gap ++ [z]) := by
  intro t x w y n heq hne hw hn
  by_contra hlt
  have hno : ∀ word gap : Text, (∀ x ∈ word, isBlank x = false) → gap.IsBlank →
      word ++ (gap ++ z :: t) ≠ kw ++ (w ++ n :: y) := fun _ _ hword hgap =>
    ne_phrase_of_word hvisible hzkw hword hgap hz hzname hne hw hn
  have heq' : word ++ (gap ++ z :: t) = x ++ (kw ++ (w ++ n :: y)) := by simpa using heq
  -- The phrase would begin in the word, in the blanks or at `z`; what it then has
  -- before `z` is again of the form that `hno` excludes.
  rcases List.append_eq_append_iff.mp heq' with ⟨x', rfl, hrest⟩ | ⟨word', rfl, hrest⟩
  · rcases List.append_eq_append_iff.mp hrest
      with ⟨x'', rfl, hrest'⟩ | ⟨gap', rfl, hrest'⟩
    · obtain rfl : x'' = [] := by
        rw [← List.length_eq_zero_iff]
        simp only [List.length_append, List.length_singleton] at hlt
        omega
      exact hno [] [] (by simp) isBlank_nil hrest'
    · exact hno [] gap' (by simp) (fun x hx => hgap x (by simp [hx])) hrest'.symm
  · exact hno word' gap (fun x hx => hword x (by simp [hx])) hgap hrest.symm

/-! ## The last line -/

/-- The newline that the last line of a text lacks. -/
def missingNewline (t : Text) : Text :=
  if t = [] ∨ t.getLast? = some '\n' then [] else ['\n']

/-- Closing the last line is putting a newline behind it, or nothing. -/
theorem closeLastLine_eq (t : Text) : closeLastLine t = t ++ missingNewline t := by
  rw [closeLastLine, missingNewline]
  split <;> simp

end Text

/-! ## Headers and trailers -/

namespace Wrapper

open Text Cursor Pattern

/-- The end of a line: a semicolon or a brace, blanks, and a newline. -/
def EndsLine (a : Text) : Prop :=
  ∃ (u w : Text) (z : Char), a = u ++ [z] ++ w ++ ['\n'] ∧ z ∈ [';', '{', '}'] ∧ w.IsBlank

/-- The characters of a header, apart from those of names. -/
def marks : List Char :=
  [' ', '.', ';', ':', '(', ')', '{', '}', '\n']

/-- A text of name characters and marks. -/
def IsPlain (a : Text) : Prop :=
  ∀ x ∈ a, isNameChar x = true ∨ x ∈ marks

instance (a : Text) : Decidable (IsPlain a) :=
  inferInstanceAs (Decidable (∀ x ∈ a, isNameChar x = true ∨ x ∈ marks))

/-- What may stand before a strategy. -/
structure Header (a : Text) : Prop where
  isPlain : IsPlain a
  endsLine : a ≠ [] → EndsLine a
  lacksVoid : LacksPhrase "void".toList a

/-- What may stand after a strategy. -/
structure Trailer (b : Text) : Prop where
  mem : ∀ x ∈ b, x ∈ ['\n', ' ', '}']

variable {a b : Text}

/-- A text that ends a line has a newline at its end. -/
theorem EndsLine.getLast? (h : EndsLine a) : a.getLast? = some '\n' := by
  obtain ⟨u, w, z, rfl, -, -⟩ := h
  exact List.getLast?_concat ..

/-- Whether a line is ended is a matter of the last text. -/
theorem EndsLine.append (h : EndsLine b) (a : Text) : EndsLine (a ++ b) := by
  obtain ⟨u, w, z, rfl, hz, hw⟩ := h
  exact ⟨a ++ u, w, z, by simp, hz, hw⟩

/-- Plain texts together are plain. -/
theorem IsPlain.append (ha : IsPlain a) (hb : IsPlain b) : IsPlain (a ++ b) := fun x hx =>
  (List.mem_append.mp hx).elim (ha x) (hb x)

/-- The empty text is a header, that of a strategy to which nothing is added. -/
theorem header_nil : Header [] :=
  ⟨by simp [IsPlain], by simp, lacksPhrase_nil⟩

/-- **Headers can be joined.** The three conditions hold of the pieces and are all
closed under concatenation, so a header is checked line by line. -/
theorem Header.append (ha : Header a) (hb : Header b) : Header (a ++ b) := by
  refine ⟨ha.isPlain.append hb.isPlain, fun hne => ?_, ha.lacksVoid.append hb.lacksVoid⟩
  by_cases hbne : b = []
  · subst hbne
    rw [List.append_nil] at hne ⊢
    exact ha.endsLine hne
  · exact (hb.endsLine hbne).append a

/-- A header ends a line, unless it is empty.  At the seam to the strategy there is no
word, then. -/
theorem Header.getLast? (ha : Header a) (hne : a ≠ []) : a.getLast? = some '\n' :=
  (ha.endsLine hne).getLast?

/-- A trailer has none but the three characters it may be made of. -/
theorem Trailer.not_mem (hb : Trailer b) {x : Char} (hx : x ∉ ['\n', ' ', '}']) :
    x ∉ b := by
  intro hmem
  exact hx (hb.mem x hmem)

/-- A trailer has no word characters, so no word of the strategy goes on in it. -/
theorem Trailer.isWord_eq_false (hb : Trailer b) {x : Char} (hx : x ∈ b) :
    isWord x = false := by
  have hall : ∀ x ∈ ['\n', ' ', '}'], isWord x = false := by decide
  exact hall x (hb.mem x hx)

/-- Nor has it any characters of names. -/
theorem Trailer.isNameChar_eq_false (hb : Trailer b) {x : Char} (hx : x ∈ b) :
    isNameChar x = false := by
  have hall : ∀ x ∈ ['\n', ' ', '}'], isNameChar x = false := by decide
  exact hall x (hb.mem x hx)

/-- No word runs across the edges of the frame. -/
theorem seams (ha : Header a) (hb : Trailer b) : Seams a b := by
  constructor
  · by_cases hne : a = []
    · subst hne
      rfl
    · rw [ha.getLast? hne]
      decide
  · cases b with
    | nil => rfl
    | cons y b => exact hb.isWord_eq_false (List.mem_cons_self ..)

/-- A header has no punctuation but its own marks.  In particular it has no brackets,
with which a declaration would start. -/
theorem Header.not_mem (ha : Header a) {x : Char} (hname : isNameChar x = false)
    (hx : x ∉ marks) : x ∉ a := by
  intro hmem
  rcases ha.isPlain x hmem with h | h
  · simp [hname] at h
  · exact hx h

/-! ## Stretches inside the strategy -/

variable {s u r : Text} {c d : Cursor}

/-- A position that is not inside a header lies behind it: what stands before the
position starts with the header. -/
private theorem prefix_before (htext : c.text = a ++ r) (hle : a.length ≤ c.offset) :
    ∃ m, c.before.reverse = a ++ m ∧ m ++ c.rest = r := by
  rw [text_eq_append] at htext
  have hlength : a.length ≤ c.before.reverse.length := by simpa [offset] using hle
  obtain ⟨m, hm⟩ := List.prefix_of_prefix_length_le ⟨r, rfl⟩ ⟨c.rest, htext⟩ hlength
  refine ⟨m, hm.symm, ?_⟩
  rw [← hm, List.append_assoc] at htext
  exact List.append_cancel_left htext

/-- A stretch whose last character does not occur in the trailer ends before the
trailer. -/
theorem offset_le_of_last {z : Char} (htext : c.text = a ++ s ++ b)
    (hu : c.Reads (u ++ [z]) d) (hz : z ∉ b) : d.offset ≤ a.length + s.length := by
  by_contra hlt
  have hdtext : d.text = (a ++ s) ++ b := hu.text_eq.trans htext
  obtain ⟨m, hm, hrest⟩ := prefix_before hdtext (by rw [List.length_append]; omega)
  have hlast : (a ++ s ++ m).getLast? = some z := by
    rw [← hm, hu.before_eq]
    simp
  cases m using List.reverseRecOn with
  | nil =>
    have hlength := congrArg List.length hm
    simp only [List.length_reverse, List.length_append, List.append_nil] at hlength
    simp only [offset] at hlt
    omega
  | append_singleton m y =>
    obtain rfl : y = z := by simpa [← List.append_assoc] using hlast
    exact hz (by simp [← hrest])

/-- A phrase begins behind a text that lacks it. -/
theorem le_offset_of_phrase {kw w y : Text} {n : Char} (ha : LacksPhrase kw a)
    (htext : c.text = a ++ r) (hu : c.Reads (kw ++ w ++ n :: y) d) (hne : w ≠ [])
    (hw : w.IsBlank) (hn : isNameStart n = true) : a.length ≤ c.offset := by
  have hsplit : a ++ r = c.before.reverse ++ kw ++ w ++ n :: (y ++ d.rest) := by
    rw [← htext, text_eq_append, hu.rest_eq]
    simp
  simpa [offset] using ha _ _ _ _ _ hsplit hne hw hn

/-- If a phrase cannot begin before or behind a character of the header, it begins at
that character or in the strategy. -/
theorem offset_eq_or_le_of_phrase {kw w t y : Text} {x n : Char} (ht : LacksPhrase kw t)
    (ha : LacksPhrase kw a) (htext : c.text = t ++ x :: a ++ r)
    (hu : c.Reads (kw ++ w ++ n :: y) d) (hne : w ≠ []) (hw : w.IsBlank)
    (hn : isNameStart n = true) :
    c.offset = t.length ∨ (t ++ x :: a).length ≤ c.offset := by
  have hle : t.length ≤ c.offset :=
    le_offset_of_phrase ht (by rw [htext, List.append_assoc]) hu hne hw hn
  by_cases heq : c.offset = t.length
  · exact .inl heq
  · right
    have htext' : c.text = (t ++ [x]) ++ (a ++ r) := by simp [htext]
    -- Behind the character, only `a` and the strategy are left.
    obtain ⟨m, hm, hrest⟩ := prefix_before htext' (by simp; omega)
    have hlength : c.offset = (t ++ [x]).length + m.length := by
      rw [offset, ← List.length_reverse, hm, List.length_append]
    have hsplit : a ++ r = m ++ kw ++ w ++ n :: (y ++ d.rest) := by
      rw [← hrest, hu.rest_eq]
      simp
    have := ha _ _ _ _ _ hsplit hne hw hn
    simp only [List.length_append, List.length_cons, List.length_nil] at hlength ⊢
    omega

/-- What stands before and behind a position with a known offset. -/
theorem before_eq_of_offset {t : Text} (htext : c.text = t ++ r)
    (hoffset : c.offset = t.length) : c.before.reverse = t ∧ c.rest = r := by
  obtain ⟨m, hm, hrest⟩ := prefix_before htext (by omega)
  have hlength : c.offset = t.length + m.length := by
    rw [offset, ← List.length_reverse, hm, List.length_append]
  obtain rfl : m = [] := List.length_eq_zero_iff.mp (by omega)
  exact ⟨by simpa using hm, hrest⟩

/-- A character that is not in a text comes after it. -/
theorem le_offset_of_not_mem {x : Char} (ha : x ∉ a) (htext : c.text = a ++ r)
    (hu : c.Reads (x :: u) d) : a.length ≤ c.offset := by
  by_contra hlt
  rw [text_eq_append, hu.rest_eq] at htext
  have hlength : c.before.reverse.length ≤ a.length := by
    simp only [offset] at hlt
    rw [List.length_reverse]
    omega
  have hbefore : c.before.reverse <+: a ++ r := ⟨x :: u ++ d.rest, htext⟩
  obtain ⟨m, rfl⟩ := List.prefix_of_prefix_length_le hbefore ⟨r, rfl⟩ hlength
  rw [List.append_assoc] at htext
  cases m with
  | nil => simp [offset] at hlt
  | cons y m =>
    obtain rfl : x = y := (List.cons.inj (List.append_cancel_left htext)).1
    exact ha (by simp)

end Wrapper

/-! ## The frame that conversion puts -/

namespace Dialect

open Text Wrapper

/-- The text that conversion puts before a strategy of a given shape. -/
def header (d : Dialect) (className source : Text) : SourceShape → Text
  | .completeUnit => d.usingsHeader source
  | .classDeclaration => d.usingsHeader source ++ d.namespaceHead
  | .members => d.usingsHeader source ++ d.namespaceHead ++ d.classHead className

/-- The text that conversion puts after a strategy of a given shape. -/
def trailer (source : Text) : SourceShape → Text
  | .completeUnit => []
  | .classDeclaration => missingNewline source ++ "\x7d\n".toList
  | .members => missingNewline source ++ "    \x7d\n\x7d\n".toList

variable {d : Dialect} {className source : Text}

/-- What conversion writes, cut at the strategy: a header, the strategy, and a
trailer. -/
theorem usingsHeader_append_frame (d : Dialect) (className source : Text)
    (shape : SourceShape) : d.usingsHeader source ++ d.frame className source shape =
      d.header className source shape ++ source ++ trailer source shape := by
  cases shape <;> simp [frame, header, trailer, closeLastLine_eq]

/-- **A converted strategy** is the strategy between a header and a trailer. -/
theorem generatedCode_eq (d : Dialect) (configured requested source : Text) :
    (d.convert configured requested source).generatedCode =
      d.header (d.convert configured requested source).className source (d.shape source).1
        ++ source
        ++ trailer source (d.shape source).1 :=
  usingsHeader_append_frame ..

/-! ### The header -/

/-- The missing directives are directives of the dialect, each for one of its
namespaces. -/
theorem exists_of_mem_missingDirectives {directive : Text}
    (h : directive ∈ d.missingDirectives source) :
    ∃ name ∈ d.usings, usingDirective name = directive := by
  rw [missingDirectives, List.mem_filter, List.mem_map] at h
  exact h.1

/-- The lines with directives end with a blank line, if there are any; otherwise there
is not even that. -/
theorem usingsHeader_eq (d : Dialect) (source : Text) :
    d.missingDirectives source = [] ∧ d.usingsHeader source = [] ∨
      d.missingDirectives source ≠ [] ∧ d.usingsHeader source =
        (d.missingDirectives source).flatMap (· ++ ['\n']) ++ ['\n'] := by
  rw [usingsHeader]
  cases d.missingDirectives source with
  | nil => exact .inl ⟨rfl, rfl⟩
  | cons directive directives => exact .inr ⟨by simp, rfl⟩

/-- The keywords whose phrases are looked for. -/
def keywords : List Text :=
  ["void".toList, "class".toList, "namespace".toList]

variable {kw : Text}

/-- A name and the fixed text after it hold no phrase, if a mark comes first in that
text, blanks aside. -/
private theorem lacksPhrase_append_name (hkw : kw ∈ keywords)
    {a name e rest : Text} {z : Char} (ha : LacksPhrase kw a)
    (hname : ∀ x ∈ name, isBlank x = false) (he : e.dropWhile isBlank = z :: rest)
    (hz : z ∈ [';', '{', ':', '(']) (hrest : ∀ kw ∈ keywords, Clashes kw rest) :
    LacksPhrase kw (a ++ name ++ e) := by
  have hvisible : ∀ kw ∈ keywords, ∀ x ∈ kw, isBlank x = false := by decide
  have hmarks : ∀ z ∈ [';', '{', ':', '('],
      isBlank z = false ∧ isNameStart z = false ∧ ∀ kw ∈ keywords, z ∉ kw := by decide
  obtain ⟨hzblank, hzname, hzkw⟩ := hmarks z hz
  have hgap : IsBlank (e.takeWhile isBlank) := by
    intro x hx
    simpa using List.all_eq_true.mp (List.all_takeWhile (l := e) (p := isBlank)) x hx
  have hword := lacksPhrase_word (hvisible kw hkw) (hzkw kw hkw) hname hgap hzblank hzname
  have hsplit : a ++ name ++ e = a ++ (name ++ e.takeWhile isBlank ++ [z] ++ rest) := by
    conv_lhs => rw [← List.takeWhile_append_dropWhile (p := isBlank) (l := e), he]
    simp
  rw [hsplit]
  exact ha.append (hword.append (hrest kw hkw).lacksPhrase)

/-- A fixed piece of the frame lacks every phrase, by a computation for each of the
keywords. -/
private theorem lacksPhrase_piece {piece : Text} (h : ∀ kw ∈ keywords, Clashes kw piece)
    (hkw : kw ∈ keywords) : LacksPhrase kw piece :=
  (h kw hkw).lacksPhrase

/-- The lines with directives lack every phrase: the word that stands there with a blank
behind it is none of the keywords. -/
theorem lacksPhrase_usingsHeader (hd : d.Accepted) (hkw : kw ∈ keywords) (source : Text) :
    LacksPhrase kw (d.usingsHeader source) := by
  have hnewline : LacksPhrase kw ['\n'] := lacksPhrase_piece (by decide) hkw
  have hline : ∀ directive ∈ d.missingDirectives source,
      LacksPhrase kw (directive ++ ['\n']) := by
    intro directive h
    obtain ⟨name, hname, rfl⟩ := exists_of_mem_missingDirectives h
    have hvisible : ∀ x ∈ name, isBlank x = false := fun x hx =>
      isBlank_eq_false_of_mem (hd.usings name hname) hx
    have hkeyword : LacksPhrase kw "using ".toList := lacksPhrase_piece (by decide) hkw
    have hdirective : LacksPhrase kw (usingDirective name) :=
      lacksPhrase_append_name hkw hkeyword hvisible (by decide : _ = [';'])
        (by decide) (by decide)
    exact hdirective.append hnewline
  rcases usingsHeader_eq d source with ⟨-, h⟩ | ⟨-, h⟩ <;> rw [h]
  · exact lacksPhrase_nil
  · exact (lacksPhrase_flatMap hline).append hnewline

/-- The head of the namespace behind its keyword, of which `a` is left. -/
theorem lacksPhrase_namespaceLine (hd : d.Accepted) (hkw : kw ∈ keywords) {a : Text}
    (ha : LacksPhrase kw a) :
    LacksPhrase kw (a ++ d.namespaceName ++ "\n\x7b\n".toList) := by
  have hvisible : ∀ x ∈ d.namespaceName, isBlank x = false := fun x hx =>
    isBlank_eq_false_of_mem hd.namespaceName hx
  exact lacksPhrase_append_name hkw ha hvisible (by decide : _ = ['{', '\n'])
    (by decide) (by decide)

/-- The head of a namespace lacks every phrase but the one that it is. -/
theorem lacksPhrase_namespaceHead (hd : d.Accepted) (hkw : kw ∈ keywords)
    (hne : kw ≠ "namespace".toList) : LacksPhrase kw d.namespaceHead := by
  have hclashes : ∀ kw ∈ keywords, kw ≠ "namespace".toList →
      Clashes kw "namespace ".toList := by decide
  exact lacksPhrase_namespaceLine hd hkw (hclashes kw hkw hne).lacksPhrase

/-- The head of a class behind its keyword, of which `a` is left. -/
theorem lacksPhrase_classLines (hd : d.Accepted) (hname : className.isName = true)
    (hkw : kw ∈ keywords) {a : Text} (ha : LacksPhrase kw a) :
    LacksPhrase kw (a ++ className ++ " : ".toList ++ d.baseType ++ "\n    \x7b\n".toList
      ++ "        public ".toList ++ className
        ++ "(object _ctx) : base(_ctx) \x7b \x7d\n\n".toList) := by
  have hvisible : ∀ x ∈ className, isBlank x = false := fun x hx =>
    isBlank_eq_false_of_isNameChar (isNameChar_of_mem hname hx)
  have hvisible' : ∀ x ∈ d.baseType, isBlank x = false := fun x hx =>
    isBlank_eq_false_of_isNameChar (isNameChar_of_mem hd.baseType hx)
  have hpublic : LacksPhrase kw "        public ".toList :=
    lacksPhrase_piece (by decide) hkw
  have hbase := lacksPhrase_append_name hkw ha hvisible (e := " : ".toList)
    (by decide : _ = [':', ' ']) (by decide) (by decide)
  have hopen := lacksPhrase_append_name hkw hbase hvisible' (e := "\n    \x7b\n".toList)
    (by decide : _ = ['{', '\n']) (by decide) (by decide)
  have hend : ("(object _ctx) : base(_ctx) \x7b \x7d\n\n".toList).dropWhile isBlank =
      '(' :: "object _ctx) : base(_ctx) \x7b \x7d\n\n".toList := by decide
  exact lacksPhrase_append_name hkw (hopen.append hpublic) hvisible hend
    (by decide) (by decide)

/-- The head of a class lacks every phrase but the one that it is.  A name in it may be
spelled like a keyword, but what follows it is a colon or a parenthesis, and no name. -/
theorem lacksPhrase_classHead (hd : d.Accepted) (hname : className.isName = true)
    (hkw : kw ∈ keywords) (hne : kw ≠ "class".toList) :
    LacksPhrase kw (d.classHead className) := by
  have hclashes : ∀ kw ∈ keywords, kw ≠ "class".toList →
      Clashes kw "    public class ".toList := by decide
  exact lacksPhrase_classLines hd hname hkw (hclashes kw hkw hne).lacksPhrase

/-- The header of members lacks classes up to the keyword of its own. -/
theorem lacksPhrase_beforeClass (hd : d.Accepted) (source : Text) :
    LacksPhrase "class".toList
      (d.usingsHeader source ++ d.namespaceHead ++ "    public ".toList) := by
  have hkw : "class".toList ∈ keywords := .tail _ (.head _)
  have hmodifier : LacksPhrase "class".toList "    public ".toList :=
    Clashes.lacksPhrase (by decide)
  exact ((lacksPhrase_usingsHeader hd hkw source).append
    (lacksPhrase_namespaceHead hd hkw (by decide))).append hmodifier

/-- The head of the namespace, cut where the name stands. -/
theorem exists_namespaceHead_eq (d : Dialect) :
    ∃ r, d.namespaceHead = "namespace".toList ++ [' '] ++ d.namespaceName
      ++ '\n' :: r := by
  have hkeyword : "namespace ".toList = "namespace".toList ++ [' '] := by decide
  have hopen : "\n\x7b\n".toList = '\n' :: "\x7b\n".toList := by decide
  refine ⟨"\x7b\n".toList, ?_⟩
  unfold namespaceHead
  rw [hkeyword, hopen]

/-- The head of a class, cut where the search for a class starts. -/
theorem exists_classHead_eq (d : Dialect) (className : Text) :
    ∃ r, d.classHead className = "    public ".toList
      ++ ("class ".toList ++ className ++ [' '] ++
      ([':', ' '] ++ d.baseType ++ '\n' :: ("    ".toList ++ '{' :: r))) := by
  have hclass : "    public class ".toList = "    public ".toList ++ "class ".toList := by
    decide
  have hcolon : " : ".toList = [' '] ++ [':', ' '] := by decide
  have hopen : "\n    \x7b\n".toList = '\n' :: ("    ".toList ++ '{' :: ['\n']) := by
    decide
  refine ⟨'\n' :: ("        public ".toList ++ className
    ++ "(object _ctx) : base(_ctx) \x7b \x7d\n\n".toList), ?_⟩
  unfold classHead
  simp only [hclass, hcolon, hopen, List.append_assoc, List.cons_append, List.nil_append]

/-! ### Headers -/

/-- A name is plain: it has no marks, and nothing else that the texts around a strategy
must not have. -/
private theorem isPlain_of_isName {name : Text} (h : name.isName = true) :
    IsPlain name := fun _ hx =>
  .inl (isNameChar_of_mem h hx)

/-- A qualified name is plain, as the dot is one of the marks that are allowed. -/
private theorem isPlain_of_isQualifiedName {name : Text}
    (h : name.isQualifiedName = true) : IsPlain name := by
  intro x hx
  rcases eq_or_isNameChar_of_mem h hx with rfl | hx
  · exact .inr (by decide)
  · exact .inl hx

/-- The head of a namespace is a header. -/
theorem header_namespaceHead (hd : d.Accepted) : Header d.namespaceHead where
  isPlain := by
    have hkeyword : IsPlain "namespace ".toList := by decide
    have hend : IsPlain "\n\x7b\n".toList := by decide
    exact (hkeyword.append (isPlain_of_isQualifiedName hd.namespaceName)).append hend
  endsLine _ := by
    have hend : EndsLine "\n\x7b\n".toList :=
      ⟨['\n'], [], '{', by decide, by decide, isBlank_nil⟩
    exact hend.append _
  lacksVoid := lacksPhrase_namespaceHead hd (.head _) (by decide)

/-- A directive is the keyword, the name and a semicolon. -/
theorem usingDirective_eq (name : Text) :
    usingDirective name = "using ".toList ++ name ++ [';'] :=
  congrArg ("using ".toList ++ name ++ ·) (by decide : ";".toList = [';'])

/-- The lines with directives are a header, whichever of the directives are missing. -/
theorem header_usingsHeader (hd : d.Accepted) (source : Text) :
    Header (d.usingsHeader source) := by
  refine ⟨?_, fun hne => ?_, lacksPhrase_usingsHeader hd (.head _) source⟩
  · rcases usingsHeader_eq d source with ⟨-, h⟩ | ⟨-, h⟩ <;> rw [h]
    · exact header_nil.isPlain
    · refine IsPlain.append (fun x hx => ?_) (by decide)
      obtain ⟨directive, hdirective, hx⟩ := List.mem_flatMap.mp hx
      obtain ⟨name, hname, rfl⟩ := exists_of_mem_missingDirectives hdirective
      have hkeyword : IsPlain "using ".toList := by decide
      have hname' : IsPlain name := isPlain_of_isQualifiedName (hd.usings name hname)
      have hmark : IsPlain [';'] := by decide
      rw [usingDirective_eq] at hx
      exact ((hkeyword.append hname').append hmark).append
        (by decide : IsPlain ['\n']) x hx
  · rcases usingsHeader_eq d source with ⟨-, h⟩ | ⟨hsome, h⟩
    · exact absurd h hne
    · obtain ⟨directives, last, hlast⟩ : ∃ ds x, d.missingDirectives source = ds ++ [x] :=
        ⟨_, _, (List.dropLast_concat_getLast hsome).symm⟩
      have hmem : last ∈ d.missingDirectives source := by simp [hlast]
      obtain ⟨name, -, rfl⟩ := exists_of_mem_missingDirectives hmem
      refine ⟨directives.flatMap (· ++ ['\n']) ++ ("using ".toList ++ name), ['\n'],
        ';', ?_, by simp, isBlank_newline⟩
      rw [h, hlast, usingDirective_eq]
      simp only [List.flatMap_append, List.flatMap_cons, List.flatMap_nil,
        List.append_assoc, List.append_nil]

/-- The head of a class is a header. -/
theorem header_classHead (hd : d.Accepted) (hname : className.isName = true) :
    Header (d.classHead className) where
  isPlain := by
    have hclass : IsPlain "    public class ".toList := by decide
    have hcolon : IsPlain " : ".toList := by decide
    have hopen : IsPlain "\n    \x7b\n".toList := by decide
    have hpublic : IsPlain "        public ".toList := by decide
    have hrest : IsPlain "(object _ctx) : base(_ctx) \x7b \x7d\n\n".toList := by decide
    have hname' : IsPlain className := isPlain_of_isName hname
    have hbase : IsPlain d.baseType := isPlain_of_isName hd.baseType
    exact ((((((hclass.append hname').append hcolon).append hbase).append hopen).append
      hpublic).append hname').append hrest
  endsLine _ := by
    have hend : EndsLine "(object _ctx) : base(_ctx) \x7b \x7d\n\n".toList :=
      ⟨"(object _ctx) : base(_ctx) \x7b ".toList, ['\n'], '}', by decide, by decide,
        isBlank_newline⟩
    exact hend.append _
  lacksVoid := lacksPhrase_classHead hd hname (.head _) (by decide)

/-- **Conversion puts a header before a strategy**, whatever its shape.  The class name
is asked to be a name only where a class is written. -/
theorem isHeader_header (hd : d.Accepted) (source : Text) {shape : SourceShape}
    (hname : shape = .members → className.isName = true) :
    Header (d.header className source shape) := by
  have husings := header_usingsHeader hd source
  have hnamespace := husings.append (header_namespaceHead hd)
  cases shape with
  | completeUnit => exact husings
  | classDeclaration => exact hnamespace
  | members => exact hnamespace.append (header_classHead hd (hname rfl))

/-- **Conversion puts a trailer after a strategy**: closing braces with their
indentation, and a newline if the strategy does not end with one. -/
theorem isTrailer_trailer (source : Text) (shape : SourceShape) :
    Trailer (trailer source shape) := by
  have hnewline : ∀ x ∈ missingNewline source, x ∈ ['\n', ' ', '}'] := by
    intro x hx
    rw [missingNewline] at hx
    split at hx
    · simp at hx
    · obtain rfl := List.mem_singleton.mp hx
      exact .head _
  constructor
  cases shape with
  | completeUnit => simp [trailer]
  | classDeclaration =>
    have hend : ∀ x ∈ "\x7d\n".toList, x ∈ ['\n', ' ', '}'] := by decide
    exact fun x hx => (List.mem_append.mp hx).elim (hnewline x) (hend x)
  | members =>
    have hend : ∀ x ∈ "    \x7d\n\x7d\n".toList, x ∈ ['\n', ' ', '}'] := by decide
    exact fun x hx => (List.mem_append.mp hx).elim (hnewline x) (hend x)

/-- A trailer is set off by a newline, unless the strategy ends with one. -/
theorem trailer_eq (source : Text) (shape : SourceShape) :
    trailer source shape = [] ∨ (trailer source shape).head? = some '\n' ∨ source = [] ∨
      source.getLast? = some '\n' := by
  by_cases hclosed : source = [] ∨ source.getLast? = some '\n'
  · exact .inr (.inr hclosed)
  · have hnewline : missingNewline source = ['\n'] := if_neg hclosed
    cases shape with
    | completeUnit => exact .inl rfl
    | classDeclaration =>
      rw [trailer, hnewline]
      exact .inr (.inl rfl)
    | members =>
      rw [trailer, hnewline]
      exact .inr (.inl rfl)

/-! ### Shapes -/

/-- A strategy with a derived class is not bare members, and the class that is found is
reported. -/
theorem shape_of_derivedClass?_eq_some {name : Text}
    (h : d.derivedClass? source = some name) :
    (d.shape source).1 ≠ .members ∧ (d.shape source).2 = some name := by
  rw [shape, h]
  dsimp only
  split <;> exact ⟨by simp, rfl⟩

/-- A strategy without a derived class counts as bare members. -/
theorem shape_of_derivedClass?_eq_none (h : d.derivedClass? source = none) :
    d.shape source = (.members, none) := by
  rw [shape, h]

/-- Bare members have no derived class. -/
theorem derivedClass?_eq_none_of_shape (h : (d.shape source).1 = .members) :
    d.derivedClass? source = none := by
  cases hclass : d.derivedClass? source with
  | none => rfl
  | some name => exact absurd h (shape_of_derivedClass?_eq_some hclass).1

/-- Every other strategy has one, and it is the one that is reported. -/
theorem exists_derivedClass?_of_shape (h : (d.shape source).1 ≠ .members) :
    ∃ name, d.derivedClass? source = some name ∧ (d.shape source).2 = some name := by
  cases hclass : d.derivedClass? source with
  | none => exact absurd (by rw [shape_of_derivedClass?_eq_none hclass]) h
  | some name => exact ⟨name, rfl, (shape_of_derivedClass?_eq_some hclass).2⟩

/-- A complete unit satisfies the rule for the namespace, since this is how it is told
from a mere class. -/
theorem isSatisfied_namespaceRule_of_shape (h : (d.shape source).1 = .completeUnit) :
    d.namespaceRule.isSatisfied source = true := by
  rw [shape] at h
  split at h
  · split at h
    next hrule => exact hrule
    next => cases h
  · cases h

/-- A class that conversion generates has a name: the one that is asked for, if it is
one, or else the configured one. -/
theorem isName_className {configured : Text} (requested : Text)
    (hconfigured : configured.isName = true) (hmembers : (d.shape source).1 = .members) :
    (d.convert configured requested source).className.isName = true := by
  show (chooseClassName (d.shape source).2 requested configured).isName = true
  rw [shape_of_derivedClass?_eq_none (derivedClass?_eq_none_of_shape hmembers),
    chooseClassName]
  split
  next h => exact h
  next => exact hconfigured

/-- **The frame around a converted strategy.** It is all that later modules use of
conversion when they follow what is read from the result. -/
theorem exists_frame (hd : d.Accepted) {configured : Text} (requested source : Text)
    (hconfigured : configured.isName = true) :
    ∃ a b, Header a ∧ Trailer b ∧
      (d.convert configured requested source).generatedCode = a ++ source ++ b :=
  ⟨_, _, isHeader_header hd source (isName_className requested hconfigured),
    isTrailer_trailer source _, generatedCode_eq ..⟩

end Dialect

end StrategyDialect
