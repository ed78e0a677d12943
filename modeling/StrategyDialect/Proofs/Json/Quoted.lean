import StrategyDialect.Json.Quoted
import StrategyDialect.Proofs.Text.Hex

/-!
# JSON strings read back

A string between quotes is read back, whatever text follows it
(`JsonString.read_escaped`).  The reader knows more escapes than are ever written, so it
is only the escapes of the writer that matter: each of them is read as the character
that it was written for (`JsonString.escapeChar_cases`), and a character that is not
escaped is none of those that the reader stops at.
-/

namespace StrategyDialect

namespace JsonString

variable {c : Char} {t rest : Text}

/-- A control character is read back by its number, which the writer gives in four
digits. -/
theorem readEscape_unit (h : c.toNat < 0x20) (t : Text) :
    readEscape ('u' :: (Hex.write4 false c.toNat ++ t)) = .ok (c, t) := by
  have hunit : readUnit (Hex.write4 false c.toNat ++ t) = .ok (c.toNat, t) := by
    rw [readUnit, Hex.read?_write4 false (by omega)]
  have hhigh : ¬(0xD800 ≤ c.toNat ∧ c.toNat ≤ 0xDBFF) := by omega
  have hlow : ¬(0xDC00 ≤ c.toNat ∧ c.toNat ≤ 0xDFFF) := by omega
  rw [readEscape, hunit]
  dsimp only [bind, Except.bind]
  rw [if_neg hhigh, if_neg hlow, Char.ofNat_toNat]
  rfl

/-- **A character between quotes** stands for itself or is escaped. -/
theorem escapeChar_cases (c : Char) :
    (escapeChar c = [c] ∧ c ≠ '"' ∧ c ≠ '\\' ∧ ¬c.toNat < 0x20) ∨
      ∃ e, escapeChar c = '\\' :: e ∧ ∀ t, readEscape (e ++ t) = .ok (c, t) := by
  unfold escapeChar
  split
  · exact .inr ⟨['"'], rfl, fun t => rfl⟩
  · exact .inr ⟨['\\'], rfl, fun t => rfl⟩
  · exact .inr ⟨['b'], rfl, fun t => rfl⟩
  · exact .inr ⟨['f'], rfl, fun t => rfl⟩
  · exact .inr ⟨['n'], rfl, fun t => rfl⟩
  · exact .inr ⟨['r'], rfl, fun t => rfl⟩
  · exact .inr ⟨['t'], rfl, fun t => rfl⟩
  next hquote hbackslash _ _ _ _ _ =>
    split
    next hcontrol => exact .inr ⟨_, rfl, readEscape_unit hcontrol⟩
    next hcontrol => exact .inl ⟨rfl, hquote, hbackslash, hcontrol⟩

/-- An escape is read as one character of the string. -/
private theorem read_escape (h : readEscape t = .ok (c, rest)) :
    read ('\\' :: t) = (read rest).map fun (s, rest) => (c :: s, rest) := by
  rw [read]
  split
  next herror => simp [h] at herror
  next hok =>
    obtain ⟨rfl, rfl⟩ : c = _ ∧ rest = _ := by simpa [h] using hok
    rfl

/-- Any other character stands for itself, if it is none of the three kinds that a
string cannot hold as they are. -/
private theorem read_cons (hquote : c ≠ '"') (hbackslash : c ≠ '\\')
    (hcontrol : ¬c.toNat < 0x20) :
    read (c :: t) = (read t).map fun (s, rest) => (c :: s, rest) := by
  rw [read, if_neg hcontrol]
  · exact hquote
  · exact hbackslash

/-- **A string is read back** from behind its opening quote. -/
theorem read_escaped (s rest : Text) :
    read (s.flatMap escapeChar ++ '"' :: rest) = .ok (s, rest) := by
  induction s with
  | nil => rw [List.flatMap_nil, List.nil_append, read]
  | cons c s ih =>
    rw [List.flatMap_cons, List.append_assoc]
    rcases escapeChar_cases c
      with ⟨hplain, hquote, hbackslash, hcontrol⟩ | ⟨e, hescape, he⟩
    · rw [hplain, List.singleton_append, read_cons hquote hbackslash hcontrol, ih]
      rfl
    · rw [hescape, List.cons_append, read_escape (he _), ih]
      rfl

/-- A string on the page is its characters between two quotes.  In this form the reader
meets it, the opening quote having told that there is a string. -/
theorem write_append (s rest : Text) :
    write s ++ rest = '"' :: (s.flatMap escapeChar ++ '"' :: rest) := by
  simp [write]

end JsonString

end StrategyDialect
