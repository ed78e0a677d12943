import Mathlib
import StrategyDialect.Pattern.Basic

/-!
# Character classes side by side

The classes of characters are given by tables of code points.  What the proofs need to
know about them is which classes have nothing in common, and this is read off the tables
by one comparison of ranges (`CodeRanges.apart`): no blank belongs to a word or to a
name.  Single characters, such as punctuation, are looked up.
-/

namespace StrategyDialect

/-- A property of the characters of a text is decided on the characters of the text, not
on all characters there are. -/
instance (priority := high) Text.decidableForallMem (p : Char → Prop) [DecidablePred p]
    (t : List Char) : Decidable (∀ x ∈ t, p x) :=
  List.decidableBAll p t

namespace CodeRanges

/-- A code point of a class lies in one of its ranges.  The search through the table
passes over the ranges that end before it, and only those. -/
theorem exists_mem_of_contains {rs : CodeRanges} {n : Nat} (h : rs.contains n = true) :
    ∃ r ∈ rs, r.1 ≤ n ∧ n ≤ r.2 := by
  induction rs with
  | nil => cases h
  | cons r rs ih =>
    obtain ⟨low, high⟩ := r
    rw [contains] at h
    split at h
    · cases h
    · split at h
      · exact ⟨(low, high), by simp, by simp; omega⟩
      · obtain ⟨r, hr, hn⟩ := ih h
        exact ⟨r, List.mem_cons_of_mem _ hr, hn⟩

/-- Whether no range of one table meets a range of the other. -/
def apart (rs ss : CodeRanges) : Bool :=
  rs.all fun r => ss.all fun s => r.2 < s.1 || s.2 < r.1

/-- Classes whose ranges do not meet have no code point in common.  Comparing the ranges
is a computation over two tables, and every statement about two classes below is one
such computation. -/
theorem contains_eq_false_of_apart {rs ss : CodeRanges}
    (hapart : rs.apart ss = true) {n : Nat} (h : rs.contains n = true) :
    ss.contains n = false := by
  rw [← Bool.not_eq_true]
  intro h'
  obtain ⟨r, hr, hrn⟩ := exists_mem_of_contains h
  obtain ⟨s, hs, hsn⟩ := exists_mem_of_contains h'
  have hdisjoint := List.all_eq_true.mp (List.all_eq_true.mp hapart r hr) s hs
  simp only [Bool.or_eq_true, decide_eq_true_eq] at hdisjoint
  omega

end CodeRanges

section Blank

variable {c : Char}

/-- No blank is in a table that makes up words and names. -/
theorem contains_eq_false_of_isBlank {rs : CodeRanges} (hrs : rs ∈
      [alphabeticRanges, markRanges, decimalDigitRanges, letterNumeralRanges,
        otherNumeralRanges, connectorRanges])
    (h : isBlank c = true) : rs.contains c.toNat = false := by
  have hapart : blankRanges.apart rs = true := by
    -- All the tables are checked at once.
    clear h
    revert rs
    decide +kernel
  exact CodeRanges.contains_eq_false_of_apart hapart h

/-- No blank is a letter, by the tables of the two properties. -/
theorem isAlphabetic_eq_false_of_isBlank (h : isBlank c = true) :
    isAlphabetic c = false :=
  contains_eq_false_of_isBlank (by simp) h

/-- No blank is a mark that is written onto another character. -/
theorem isMark_eq_false_of_isBlank (h : isBlank c = true) : isMark c = false :=
  contains_eq_false_of_isBlank (by simp) h

/-- No blank is a numeral, in any of the three categories of numerals. -/
theorem isNumeral_eq_false_of_isBlank (h : isBlank c = true) : isNumeral c = false := by
  have hdecimal : isDecimalDigit c = false := contains_eq_false_of_isBlank (by simp) h
  have hletter : letterNumeralRanges.contains c.toNat = false :=
    contains_eq_false_of_isBlank (by simp) h
  have hother : otherNumeralRanges.contains c.toNat = false :=
    contains_eq_false_of_isBlank (by simp) h
  simp [isNumeral, hdecimal, hletter, hother]

/-- No blank belongs to a word.  The connectors and joiners that the tables of letters,
marks and digits leave out are compared one by one. -/
theorem isWord_eq_false_of_isBlank (h : isBlank c = true) : isWord c = false := by
  have hdecimal : isDecimalDigit c = false := contains_eq_false_of_isBlank (by simp) h
  have hconnector : isConnector c = false := contains_eq_false_of_isBlank (by simp) h
  have hjoiner : isJoiner c = false := by
    rw [← Bool.not_eq_true]
    intro hjoiner
    simp only [isJoiner, Bool.or_eq_true, decide_eq_true_eq] at hjoiner
    rcases hjoiner with rfl | rfl <;> revert h <;> decide
  simp [isWord, isAlphabetic_eq_false_of_isBlank h, isMark_eq_false_of_isBlank h,
    hdecimal, hconnector, hjoiner]

/-- No blank belongs to a name, so a name ends where a blank begins, in whatever script
it is written. -/
theorem isNameChar_eq_false_of_isBlank (h : isBlank c = true) : isNameChar c = false := by
  have hne : c ≠ '_' := by
    rintro rfl
    revert h
    decide
  simp [isNameChar, isAlphanumeric, hne, isAlphabetic_eq_false_of_isBlank h,
    isNumeral_eq_false_of_isBlank h]

/-- The same read the other way: a word character is visible. -/
theorem isBlank_eq_false_of_isWord (h : isWord c = true) : isBlank c = false := by
  rw [← Bool.not_eq_true]
  intro hblank
  rw [isWord_eq_false_of_isBlank hblank] at h
  cases h

/-- The same for names: a character of a name is visible, so trimming leaves names as
they are. -/
theorem isBlank_eq_false_of_isNameChar (h : isNameChar c = true) : isBlank c = false := by
  rw [← Bool.not_eq_true]
  intro hblank
  rw [isNameChar_eq_false_of_isBlank hblank] at h
  cases h

end Blank

/-! ## Names -/

/-- What a name may start with may stand in it.  Only numerals are excluded at its
start. -/
theorem isNameChar_of_isNameStart {c : Char} (h : isNameStart c = true) :
    isNameChar c = true := by
  simp only [isNameStart, Bool.or_eq_true, decide_eq_true_eq] at h
  simp only [isNameChar, isAlphanumeric, Bool.or_eq_true, decide_eq_true_eq]
  exact h.imp_right Or.inl

/-- The Latin letters and the low line are alphabetic or the low line. -/
theorem isNameStart_of_asciiNameStart {c : Char}
    (h : CharClass.asciiNameStart.contains c = true) : isNameStart c = true := by
  obtain ⟨rs, hrs⟩ : ∃ rs, alphabeticRanges = (0x41, 0x5A) :: (0x61, 0x7A) :: rs :=
    ⟨_, rfl⟩
  simp only [CharClass.asciiNameStart, CharClass.contains, Bool.or_eq_true,
    Bool.and_eq_true, decide_eq_true_eq] at h
  simp only [isNameStart, Bool.or_eq_true, decide_eq_true_eq, isAlphabetic, hrs,
    CodeRanges.contains]
  rcases h with ⟨hlow, hhigh⟩ | ⟨hlow, hhigh⟩ | rfl
  · have hlow : 0x41 ≤ c.toNat := hlow
    have hhigh : c.toNat ≤ 0x5A := hhigh
    right
    rw [if_neg (by omega), if_pos hhigh]
  · have hlow : 0x61 ≤ c.toNat := hlow
    have hhigh : c.toNat ≤ 0x7A := hhigh
    right
    rw [if_neg (by omega), if_neg (by omega), if_neg (by omega), if_pos hhigh]
  · exact Or.inl rfl

/-- What a class or a member may start with, as patterns have it, is a word
character. -/
theorem isWord_of_asciiNameStart {c : Char}
    (h : CharClass.asciiNameStart.contains c = true) : isWord c = true := by
  have hstart := isNameStart_of_asciiNameStart h
  simp only [isNameStart, Bool.or_eq_true, decide_eq_true_eq] at hstart
  rcases hstart with rfl | hstart
  · decide
  · simp [isWord, hstart]

/-- No name in the sense of the patterns starts with a character that belongs to no
word. -/
theorem asciiNameStart_eq_false_of_isWord_eq_false {c : Char} (h : isWord c = false) :
    CharClass.asciiNameStart.contains c = false := by
  rw [← Bool.not_eq_true]
  intro hstart
  rw [isWord_of_asciiNameStart hstart] at h
  cases h

namespace Text

/-- What is known of a name: it is not empty, starts as a name does, and holds name
characters only. -/
theorem exists_cons_of_isName {t : Text} (h : t.isName = true) :
    ∃ c u, t = c :: u ∧ isNameStart c = true ∧ ∀ x ∈ t, isNameChar x = true := by
  cases t with
  | nil => cases h
  | cons c u =>
    rw [isName, Bool.and_eq_true, List.all_eq_true] at h
    refine ⟨c, u, rfl, h.1, ?_⟩
    rintro x (_ | ⟨_, hx⟩)
    · exact isNameChar_of_isNameStart h.1
    · exact h.2 x hx

/-- A name is not empty, since it has a first character. -/
theorem ne_nil_of_isName {t : Text} (h : t.isName = true) : t ≠ [] := by
  obtain ⟨_, _, rfl, -⟩ := exists_cons_of_isName h
  exact List.cons_ne_nil _ _

/-- All characters of a name are name characters, the first one included. -/
theorem isNameChar_of_mem {t : Text} (h : t.isName = true) {c : Char} (hc : c ∈ t) :
    isNameChar c = true := by
  obtain ⟨_, _, -, -, hall⟩ := exists_cons_of_isName h
  exact hall c hc

/-- Splitting leaves one stretch at least, which is the empty one for an empty text. -/
theorem splitOn_ne_nil (x : Char) (t : Text) : splitOn x t ≠ [] := by
  induction t with
  | nil => simp [splitOn]
  | cons c t ih =>
    rw [splitOn]
    split
    · simp
    · split <;> simp

/-- A character is the separator or stands in one of the pieces. -/
theorem eq_or_exists_mem_splitOn {x c : Char} {t : Text} (h : c ∈ t) :
    c = x ∨ ∃ piece ∈ splitOn x t, c ∈ piece := by
  induction t with
  | nil => cases h
  | cons d t ih =>
    rw [splitOn]
    by_cases hd : d = x
    · rw [if_pos hd]
      rcases List.mem_cons.mp h with rfl | h
      · exact Or.inl hd
      · refine (ih h).imp_right ?_
        rintro ⟨piece, hpiece, hc⟩
        exact ⟨piece, List.mem_cons_of_mem _ hpiece, hc⟩
    · rw [if_neg hd]
      cases hsplit : splitOn x t with
      | nil => exact absurd hsplit (splitOn_ne_nil x t)
      | cons first pieces =>
        rcases List.mem_cons.mp h with rfl | h
        · exact Or.inr ⟨_, List.mem_cons_self, List.mem_cons_self⟩
        · refine (ih h).imp_right ?_
          rw [hsplit]
          rintro ⟨piece, hpiece, hc⟩
          rcases List.mem_cons.mp hpiece with rfl | hpiece
          · exact ⟨_, List.mem_cons_self, List.mem_cons_of_mem _ hc⟩
          · exact ⟨piece, List.mem_cons_of_mem _ hpiece, hc⟩

/-- A qualified name holds name characters and dots only. -/
theorem eq_or_isNameChar_of_mem {t : Text} (h : t.isQualifiedName = true) {c : Char}
    (hc : c ∈ t) : c = '.' ∨ isNameChar c = true := by
  rw [isQualifiedName, List.all_eq_true] at h
  refine (eq_or_exists_mem_splitOn hc).imp_right ?_
  rintro ⟨piece, hpiece, hmem⟩
  exact isNameChar_of_mem (h piece hpiece) hmem

/-- A qualified name is visible throughout: its characters are those of names, or
dots. -/
theorem isBlank_eq_false_of_mem {t : Text} (h : t.isQualifiedName = true) {c : Char}
    (hc : c ∈ t) : isBlank c = false := by
  rcases eq_or_isNameChar_of_mem h hc with rfl | hname
  · decide
  · exact isBlank_eq_false_of_isNameChar hname

end Text

end StrategyDialect
