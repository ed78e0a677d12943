import Mathlib.Control.Basic
import Mathlib.Data.Option.Basic
import Mathlib.Order.Bounds.Basic
import StrategyDialect.Text.Utf8

/-!
# UTF-8, read back

The bytes of a text are read back as the text, and no other bytes are read as a text.  A
character is written in the shortest of the four forms that holds its number, and the
reader tries the forms in turn; none of the shorter ones fits, since the first byte
tells them apart.  So there is one lemma for each form and each direction, and one for
each form that does not fit.

All bytes start with a text behind which no character starts
(`Utf8.exists_eq_toUtf8_append`).  This text is read, and it is the longest that the
bytes start with, since the bytes of a character are not the beginning of those of
another one (`Utf8.prefix_of_toUtf8_prefix`).

## Main definitions

* `Utf8.IsValid`: the bytes of some text

## Main statements

* `Utf8.first?_eq_some_iff`: the bytes of a character are read back as the character,
  and nothing else is
* `Text.ofUtf8?_toUtf8`, `Text.ofUtf8?_eq_ok_iff`: so are the bytes of a text
* `Text.ofUtf8?_eq_error_iff`: where bytes are refused that are no text
-/

namespace StrategyDialect

namespace Utf8

variable {b b₀ b₁ b₂ b₃ : UInt8} {c : Char} {bytes rest : Bytes} {s t : Text}

/-- The bytes of some text. -/
def IsValid (bytes : Bytes) : Prop :=
  ∃ t : Text, bytes = t.toUtf8

/-- A number below 256 is that of a byte. -/
theorem toNat_ofNat_of_lt {n : Nat} (h : n < 256) : (UInt8.ofNat n).toNat = n := by
  rw [UInt8.toNat_ofNat', Nat.mod_eq_of_lt h]

/-- A byte that goes on with a sequence holds six bits. -/
theorem continuation?_ofNat (n : Nat) :
    continuation? (UInt8.ofNat (n % 64 + 128)) = some (n % 64) := by
  rw [continuation?, toNat_ofNat_of_lt (by omega), if_pos (by omega), Nat.add_sub_cancel]

/-- A character is found by its number, if the form that it is read in is the shortest
one for it. -/
theorem charAtLeast?_toNat {least n : Nat} (h : least ≤ c.toNat) (hn : n = c.toNat) :
    charAtLeast? least n = some c := by
  subst hn
  rw [charAtLeast?, dif_pos ⟨h, c.valid⟩]
  rfl

/-! ## The forms -/

/-- A first byte from `0xE0` on does not begin a character of two bytes, so the reader
goes on to the longer forms. -/
theorem char2?_eq_none (h : 0xE0 ≤ b₀.toNat) : char2? b₀ b₁ = none := by
  have hguard : ¬(0xC0 ≤ b₀.toNat ∧ b₀.toNat < 0xE0) := by omega
  rw [char2?]
  cases continuation? b₁ with
  | none => rfl
  | some low => simp [hguard]

/-- A first byte from `0xF0` on does not begin a character of three bytes. -/
theorem char3?_eq_none (h : 0xF0 ≤ b₀.toNat) : char3? b₀ b₁ b₂ = none := by
  have hguard : ¬(0xE0 ≤ b₀.toNat ∧ b₀.toNat < 0xF0) := by omega
  rw [char3?]
  cases continuation? b₁ with
  | none => rfl
  | some mid =>
    cases continuation? b₂ with
    | none => rfl
    | some low => simp [hguard]

/-- A character of two bytes is read back from them.  The number is put together from
the remainders that the writer has taken it apart into. -/
theorem char2?_ofNat (hleast : 0x80 ≤ c.toNat) (hlt : c.toNat < 0x800) :
    char2? (UInt8.ofNat (c.toNat / 64 % 32 + 192)) (UInt8.ofNat (c.toNat % 64 + 128)) =
      some c := by
  have hfirst : (UInt8.ofNat (c.toNat / 64 % 32 + 192)).toNat = c.toNat / 64 + 192 := by
    rw [toNat_ofNat_of_lt (by omega)]
    omega
  have hguard : 0xC0 ≤ c.toNat / 64 + 192 ∧ c.toNat / 64 + 192 < 0xE0 := by omega
  rw [char2?, continuation?_ofNat, hfirst]
  simp only [(Option.guard_eq_some' ()).mpr hguard, Option.bind_eq_bind, Option.bind_some]
  exact charAtLeast?_toNat hleast (by omega)

/-- A character of three bytes is read back from them. -/
theorem char3?_ofNat (hleast : 0x800 ≤ c.toNat) (hlt : c.toNat < 0x10000) :
    char3? (UInt8.ofNat (c.toNat / 4096 % 16 + 224))
      (UInt8.ofNat (c.toNat / 64 % 64 + 128)) (UInt8.ofNat (c.toNat % 64 + 128)) =
        some c := by
  have hfirst : (UInt8.ofNat (c.toNat / 4096 % 16 + 224)).toNat =
      c.toNat / 4096 + 224 := by
    rw [toNat_ofNat_of_lt (by omega)]
    omega
  have hguard : 0xE0 ≤ c.toNat / 4096 + 224 ∧ c.toNat / 4096 + 224 < 0xF0 := by omega
  rw [char3?, continuation?_ofNat, continuation?_ofNat, hfirst]
  simp only [(Option.guard_eq_some' ()).mpr hguard, Option.bind_eq_bind, Option.bind_some]
  exact charAtLeast?_toNat hleast (by omega)

/-- A character of four bytes is read back from them.  There is no longer form, so the
upper bound is that of all characters. -/
theorem char4?_ofNat (hleast : 0x10000 ≤ c.toNat) (hlt : c.toNat < 0x110000) :
    char4? (UInt8.ofNat (c.toNat / 262144 % 8 + 240))
      (UInt8.ofNat (c.toNat / 4096 % 64 + 128)) (UInt8.ofNat (c.toNat / 64 % 64 + 128))
        (UInt8.ofNat (c.toNat % 64 + 128)) = some c := by
  have hfirst : (UInt8.ofNat (c.toNat / 262144 % 8 + 240)).toNat =
      c.toNat / 262144 + 240 := by
    rw [toNat_ofNat_of_lt (by omega)]
    omega
  have hguard : 0xF0 ≤ c.toNat / 262144 + 240 ∧ c.toNat / 262144 + 240 < 0xF8 := by omega
  rw [char4?, continuation?_ofNat, continuation?_ofNat, continuation?_ofNat, hfirst]
  simp only [(Option.guard_eq_some' ()).mpr hguard, Option.bind_eq_bind, Option.bind_some]
  exact charAtLeast?_toNat hleast (by omega)

/-- The number of a character lies below `0x110000`, which four bytes can hold. -/
theorem toNat_lt (c : Char) : c.toNat < 0x110000 := by
  have hvalid : c.toNat < 0xD800 ∨ 0xDFFF < c.toNat ∧ c.toNat < 0x110000 := c.valid
  omega

/-! ## Characters that are written -/

/-- **The bytes of a character** are read back as the character. -/
theorem first?_encodeChar (c : Char) (rest : Bytes) :
    first? (String.utf8EncodeChar c ++ rest) = some (c, rest) := by
  have hlt := toNat_lt c
  have hval : c.val.toNat = c.toNat := rfl
  -- One case for each number of bytes; the first byte rules out the shorter forms.
  rw [String.utf8EncodeChar, hval]
  split
  next h =>
    have hfirst : (UInt8.ofNat c.toNat).toNat = c.toNat := toNat_ofNat_of_lt (by omega)
    rw [List.singleton_append, first?.eq_def]
    dsimp only
    rw [hfirst, if_pos (by omega), Char.ofNat_toNat]
  next hleast =>
    split
    next h =>
      have hfirst : ¬(UInt8.ofNat (c.toNat / 64 % 32 + 192)).toNat < 0x80 := by
        rw [toNat_ofNat_of_lt (by omega)]
        omega
      simp only [List.cons_append, List.nil_append, first?, if_neg hfirst]
      rw [char2?_ofNat (by omega) (by omega)]
    next hleast' =>
      split
      next h =>
        have hfirst : 0xE0 ≤ (UInt8.ofNat (c.toNat / 4096 % 16 + 224)).toNat := by
          rw [toNat_ofNat_of_lt (by omega)]
          omega
        simp only [List.cons_append, List.nil_append, first?]
        rw [if_neg (by omega), char2?_eq_none hfirst, char3?_ofNat (by omega) (by omega)]
      next hleast'' =>
        have hfirst : 0xF0 ≤ (UInt8.ofNat (c.toNat / 262144 % 8 + 240)).toNat := by
          rw [toNat_ofNat_of_lt (by omega)]
          omega
        simp only [List.cons_append, List.nil_append, first?]
        rw [if_neg (by omega), char2?_eq_none (by omega), char3?_eq_none hfirst,
          char4?_ofNat (by omega) hlt]
        rfl

/-! ## Characters that are read -/

/-- A byte is determined by its number. -/
theorem ofNat_eq {n : Nat} (h : b.toNat = n) : UInt8.ofNat n = b := by
  rw [← h, UInt8.ofNat_toNat]

/-- A byte that continues a character is `0x80` more than the six bits it stands for. -/
theorem continuation?_eq_some_iff {n : Nat} :
    continuation? b = some n ↔ b.toNat = n + 0x80 ∧ n < 0x40 := by
  rw [continuation?, Option.ite_none_right_eq_some, Option.some.injEq]
  omega

/-- The character that is read is the one of this number.  In particular the number is
not that of a surrogate, which is no character. -/
theorem charAtLeast?_eq_some_iff {least n : Nat} :
    charAtLeast? least n = some c ↔ least ≤ n ∧ c.toNat = n := by
  constructor
  · intro h
    rw [charAtLeast?, Option.dite_none_right_eq_some] at h
    obtain ⟨hn, h⟩ := h
    obtain rfl := Option.some.inj h
    exact ⟨hn.1, rfl⟩
  · rintro ⟨hleast, rfl⟩
    exact charAtLeast?_toNat hleast rfl

/-- In the other direction, a byte below `0x80` is the whole of a character. -/
theorem encodeChar_of_lt (h : b.toNat < 0x80) :
    String.utf8EncodeChar (Char.ofNat b.toNat) = [b] := by
  have hvalid : (Char.ofNat b.toNat).toNat = b.toNat := by
    rw [Char.ofNat, dif_pos (.inl (by omega))]
    rfl
  have hval : (Char.ofNat b.toNat).val.toNat = b.toNat := hvalid
  rw [String.utf8EncodeChar, hval, if_pos (by omega), UInt8.ofNat_toNat]

/-- Two bytes that are read as a character are the ones it is written in.  The reader
has made sure that no single byte would do. -/
theorem encodeChar_of_char2? (h : char2? b₀ b₁ = some c) :
    String.utf8EncodeChar c = [b₀, b₁] := by
  simp only [char2?, Option.bind_eq_bind, Option.bind_eq_some_iff, Option.guard_eq_some',
    continuation?_eq_some_iff, charAtLeast?_eq_some_iff] at h
  obtain ⟨low, ⟨hb₁, hlow⟩, -, hb₀, hleast, hc⟩ := h
  have hval : c.val.toNat = c.toNat := rfl
  rw [String.utf8EncodeChar, hval, if_neg (by omega), if_pos (by omega),
    ofNat_eq (b := b₀) (by omega), ofNat_eq (b := b₁) (by omega)]

/-- Three bytes that are read as a character are the ones it is written in. -/
theorem encodeChar_of_char3? (h : char3? b₀ b₁ b₂ = some c) :
    String.utf8EncodeChar c = [b₀, b₁, b₂] := by
  simp only [char3?, Option.bind_eq_bind, Option.bind_eq_some_iff, Option.guard_eq_some',
    continuation?_eq_some_iff, charAtLeast?_eq_some_iff] at h
  obtain ⟨mid, ⟨hb₁, hmid⟩, low, ⟨hb₂, hlow⟩, -, hb₀, hleast, hc⟩ := h
  have hval : c.val.toNat = c.toNat := rfl
  rw [String.utf8EncodeChar, hval, if_neg (by omega), if_neg (by omega),
    if_pos (by omega), ofNat_eq (b := b₀) (by omega), ofNat_eq (b := b₁) (by omega),
    ofNat_eq (b := b₂) (by omega)]

/-- Four bytes that are read as a character are the ones it is written in. -/
theorem encodeChar_of_char4? (h : char4? b₀ b₁ b₂ b₃ = some c) :
    String.utf8EncodeChar c = [b₀, b₁, b₂, b₃] := by
  simp only [char4?, Option.bind_eq_bind, Option.bind_eq_some_iff, Option.guard_eq_some',
    continuation?_eq_some_iff, charAtLeast?_eq_some_iff] at h
  obtain ⟨high, ⟨hb₁, hhigh⟩, mid, ⟨hb₂, hmid⟩, low, ⟨hb₃, hlow⟩, -, hb₀, hleast, hc⟩ := h
  have hval : c.val.toNat = c.toNat := rfl
  rw [String.utf8EncodeChar, hval, if_neg (by omega), if_neg (by omega),
    if_neg (by omega), ofNat_eq (b := b₀) (by omega), ofNat_eq (b := b₁) (by omega),
    ofNat_eq (b := b₂) (by omega), ofNat_eq (b := b₃) (by omega)]

/-- A character that is read was written in the bytes that are read. -/
theorem eq_append_of_first? (h : first? bytes = some (c, rest)) :
    bytes = String.utf8EncodeChar c ++ rest := by
  unfold first? at h
  split at h
  next => cases h
  next b₀ rest₀ =>
    split at h
    next hascii =>
      obtain ⟨rfl, rfl⟩ := Prod.mk.inj (Option.some.inj h)
      rw [encodeChar_of_lt hascii, List.singleton_append]
    next =>
      split at h
      next => cases h
      next b₁ rest₁ =>
        split at h
        next hc =>
          obtain ⟨rfl, rfl⟩ := Prod.mk.inj (Option.some.inj h)
          rw [encodeChar_of_char2? hc]
          rfl
        next =>
          split at h
          next => cases h
          next b₂ rest₂ =>
            split at h
            next hc =>
              obtain ⟨rfl, rfl⟩ := Prod.mk.inj (Option.some.inj h)
              rw [encodeChar_of_char3? hc]
              rfl
            next =>
              split at h
              next => cases h
              next b₃ rest₃ =>
                obtain ⟨c', hc, heq⟩ := Option.map_eq_some_iff.mp h
                obtain ⟨rfl, rfl⟩ := Prod.mk.inj heq
                rw [encodeChar_of_char4? hc]
                rfl

/-- **The reader of characters** undoes their writing, and reads nothing else. -/
theorem first?_eq_some_iff :
    first? bytes = some (c, rest) ↔ bytes = String.utf8EncodeChar c ++ rest := by
  constructor
  · exact eq_append_of_first?
  · rintro rfl
    exact first?_encodeChar c rest

/-! ## Texts -/

/-- The bytes of a text are those of its first character and those of the others. -/
theorem toUtf8_cons : Text.toUtf8 (c :: t) = String.utf8EncodeChar c ++ Text.toUtf8 t :=
  rfl

/-- A character takes as many bytes as its size says.  Byte offsets into a text are
counted with it. -/
theorem length_toUtf8_cons (c : Char) (t : Text) :
    (Text.toUtf8 (c :: t)).length = c.utf8Size + (Text.toUtf8 t).length := by
  rw [toUtf8_cons, List.length_append, String.length_utf8EncodeChar]

/-- Bytes of two texts one after the other are those of the texts put together. -/
theorem toUtf8_append : Text.toUtf8 (s ++ t) = Text.toUtf8 s ++ Text.toUtf8 t :=
  List.flatMap_append

/-- No bytes are the empty text, wherever they begin. -/
theorem decodeFrom_nil (offset : Nat) : decodeFrom offset [] = .ok [] := by
  rw [decodeFrom]
  rfl

/-- Reading goes on behind a character, at an offset that is greater by its size. -/
theorem decodeFrom_of_first? (h : first? bytes = some (c, rest)) (offset : Nat) :
    decodeFrom offset bytes = (decodeFrom (offset + c.utf8Size) rest).map (c :: ·) := by
  rw [decodeFrom]
  split
  next hempty =>
    obtain rfl := List.isEmpty_iff.mp hempty
    cases h
  next =>
    split
    next hnone =>
      rw [h] at hnone
      cases hnone
    next c' rest' hsome =>
      obtain ⟨rfl, rfl⟩ := Prod.mk.inj (Option.some.inj (h.symm.trans hsome))
      rfl

/-- Where no character starts, reading is refused at this very offset. -/
theorem decodeFrom_of_first?_eq_none (h : first? bytes = none) (hne : bytes ≠ [])
    (offset : Nat) : decodeFrom offset bytes = .error offset := by
  rw [decodeFrom]
  split
  next hempty => exact absurd (List.isEmpty_iff.mp hempty) hne
  next =>
    split
    next => rfl
    next c rest hsome =>
      rw [h] at hsome
      cases hsome

/-- A text that is followed by more bytes is read up to them. -/
theorem decodeFrom_append (t : Text) (offset : Nat) :
    decodeFrom offset (Text.toUtf8 t ++ rest) =
      (decodeFrom (offset + (Text.toUtf8 t).length) rest).map (t ++ ·) := by
  induction t generalizing offset with
  | nil =>
    show decodeFrom offset rest = (decodeFrom offset rest).map fun t => t
    cases decodeFrom offset rest <;> rfl
  | cons c t ih =>
    have hfirst : first? (Text.toUtf8 (c :: t) ++ rest) =
        some (c, Text.toUtf8 t ++ rest) := by
      rw [toUtf8_cons, List.append_assoc]
      exact first?_encodeChar c _
    have hlength : offset + (Text.toUtf8 (c :: t)).length =
        offset + c.utf8Size + (Text.toUtf8 t).length := by
      rw [length_toUtf8_cons, Nat.add_assoc]
    rw [decodeFrom_of_first? hfirst, ih, hlength]
    cases decodeFrom (offset + c.utf8Size + (Text.toUtf8 t).length) rest <;> rfl

/-- **All bytes start with a text** behind which no character starts. -/
theorem exists_eq_toUtf8_append (bytes : Bytes) :
    ∃ (t : Text) (rest : Bytes), bytes = Text.toUtf8 t ++ rest ∧ first? rest = none := by
  induction hn : bytes.length using Nat.strongRecOn generalizing bytes with
  | ind n ih =>
    cases hfirst : first? bytes with
    | none => exact ⟨[], bytes, rfl, hfirst⟩
    | some found =>
      obtain ⟨c, rest⟩ := found
      obtain ⟨t, rest', rfl, hrest'⟩ :=
        ih rest.length (hn ▸ length_lt_of_first? hfirst) rest rfl
      refine ⟨c :: t, rest', ?_, hrest'⟩
      rw [first?_eq_some_iff.mp hfirst, toUtf8_cons, List.append_assoc]

/-- A text that the bytes start with is the beginning of the text that is read. -/
theorem prefix_of_toUtf8_prefix (hrest : first? rest = none)
    (h : Text.toUtf8 s <+: Text.toUtf8 t ++ rest) : s <+: t := by
  induction s generalizing t with
  | nil => exact List.nil_prefix
  | cons c s ih =>
    obtain ⟨after, hafter⟩ := h
    have hfirst : first? (Text.toUtf8 t ++ rest) = some (c, Text.toUtf8 s ++ after) := by
      rw [first?_eq_some_iff, ← hafter, toUtf8_cons, List.append_assoc]
    cases t with
    | nil => exact absurd (hrest.symm.trans hfirst) (by simp)
    | cons d t =>
      rw [toUtf8_cons, List.append_assoc, first?_encodeChar] at hfirst
      obtain ⟨rfl, heq⟩ := Prod.mk.inj (Option.some.inj hfirst)
      exact List.cons_prefix_cons.mpr ⟨rfl, ih ⟨after, heq.symm⟩⟩

/-- The bytes of a text are read back as the text, wherever they stand. -/
theorem decodeFrom_toUtf8 (offset : Nat) (t : Text) :
    decodeFrom offset (Text.toUtf8 t) = .ok t := by
  rw [← List.append_nil (Text.toUtf8 t), decodeFrom_append, decodeFrom_nil]
  exact congrArg Except.ok (List.append_nil t)

end Utf8

namespace Text

open Utf8

variable {bytes rest : Bytes} {t : Text} {offset : Nat}

/-- **The bytes of a text** are read back as the text. -/
theorem ofUtf8?_toUtf8 (t : Text) : ofUtf8? (toUtf8 t) = .ok t :=
  Utf8.decodeFrom_toUtf8 0 t

/-- **The bytes that are read as a text** are those of the text. -/
theorem ofUtf8?_eq_ok_iff : ofUtf8? bytes = .ok t ↔ bytes = toUtf8 t := by
  constructor
  · intro h
    obtain ⟨s, rest, rfl, hrest⟩ := exists_eq_toUtf8_append bytes
    by_cases hne : rest = []
    · rw [hne, List.append_nil] at h ⊢
      rw [ofUtf8?_toUtf8] at h
      rw [Except.ok.inj h]
    · rw [ofUtf8?, decodeFrom_append, decodeFrom_of_first?_eq_none hrest hne] at h
      cases h
  · rintro rfl
    exact ofUtf8?_toUtf8 t

/-- Where no character starts, the longest text from the start ends. -/
theorem isGreatest_of_first?_eq_none (t : Text) (hrest : first? rest = none) :
    IsGreatest {k | k ≤ (toUtf8 t ++ rest).length ∧ IsValid ((toUtf8 t ++ rest).take k)}
      (toUtf8 t).length := by
  refine ⟨⟨by simp, t, List.take_left⟩, ?_⟩
  rintro k ⟨hk, s, hs⟩
  obtain ⟨after, rfl⟩ := prefix_of_toUtf8_prefix hrest (hs ▸ List.take_prefix _ _)
  have hlength := congrArg List.length hs
  rw [List.length_take_of_le hk] at hlength
  rw [hlength, toUtf8_append, List.length_append]
  exact Nat.le_add_right _ _

/-- **Bytes that are no text** are refused where the longest text ends that they start
with. -/
theorem ofUtf8?_eq_error_iff :
    ofUtf8? bytes = .error offset ↔
      ¬IsValid bytes ∧
      IsGreatest {k | k ≤ bytes.length ∧ IsValid (bytes.take k)} offset := by
  -- Reading stops behind the longest text, and its length is the offset.
  have hrefused : ∀ {k}, ofUtf8? bytes = .error k →
      IsGreatest {k | k ≤ bytes.length ∧ IsValid (bytes.take k)} k := by
    intro k h
    obtain ⟨t, rest, rfl, hrest⟩ := exists_eq_toUtf8_append bytes
    by_cases hne : rest = []
    · rw [hne, List.append_nil, ofUtf8?_toUtf8] at h
      cases h
    · rw [ofUtf8?, decodeFrom_append, decodeFrom_of_first?_eq_none hrest hne,
        Nat.zero_add] at h
      obtain rfl := Except.error.inj h
      exact isGreatest_of_first?_eq_none t hrest
  constructor
  · intro h
    refine ⟨?_, hrefused h⟩
    rintro ⟨t, ht⟩
    rw [ofUtf8?_eq_ok_iff.mpr ht] at h
    cases h
  · rintro ⟨hinvalid, hgreatest⟩
    cases h : ofUtf8? bytes with
    | ok t => exact absurd ⟨t, ofUtf8?_eq_ok_iff.mp h⟩ hinvalid
    | error k => rw [(hrefused h).unique hgreatest]

end Text

end StrategyDialect
