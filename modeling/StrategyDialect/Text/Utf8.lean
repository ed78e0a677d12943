import StrategyDialect.Text.Basic

/-!
# UTF-8

Texts as bytes.  Reading is strict: overlong forms, surrogates, values above `U+10FFFF`
and sequences cut short are refused, and the refusal says how many bytes before it were
well formed.

## Main definitions

* `Text.toUtf8`: the bytes of a text
* `Text.ofUtf8?`: the text of the bytes, or the offset of the first ill-formed sequence
-/

namespace StrategyDialect

/-- The contents of a file. -/
abbrev Bytes := List UInt8

namespace Utf8

/-- The six low bits of a continuation byte `10xxxxxx`. -/
def continuation? (b : UInt8) : Option Nat :=
  if 0x80 ≤ b.toNat ∧ b.toNat < 0xC0 then some (b.toNat - 0x80) else none

/-- The character with the given number, if the number is at least `least`, so that no
shorter sequence writes it, and is the number of a character at all. -/
def charAtLeast? (least n : Nat) : Option Char :=
  if h : least ≤ n ∧ n.isValidChar then some (Char.ofNatAux n h.2) else none

/-- The character written by a two-byte sequence. -/
def char2? (b₀ b₁ : UInt8) : Option Char := do
  let low ← continuation? b₁
  guard (0xC0 ≤ b₀.toNat ∧ b₀.toNat < 0xE0)
  charAtLeast? 0x80 ((b₀.toNat - 0xC0) * 64 + low)

/-- The character written by a three-byte sequence. -/
def char3? (b₀ b₁ b₂ : UInt8) : Option Char := do
  let mid ← continuation? b₁
  let low ← continuation? b₂
  guard (0xE0 ≤ b₀.toNat ∧ b₀.toNat < 0xF0)
  charAtLeast? 0x800 (((b₀.toNat - 0xE0) * 64 + mid) * 64 + low)

/-- The character written by a four-byte sequence. -/
def char4? (b₀ b₁ b₂ b₃ : UInt8) : Option Char := do
  let high ← continuation? b₁
  let mid ← continuation? b₂
  let low ← continuation? b₃
  guard (0xF0 ≤ b₀.toNat ∧ b₀.toNat < 0xF8)
  charAtLeast? 0x10000 ((((b₀.toNat - 0xF0) * 64 + high) * 64 + mid) * 64 + low)

/-- The character at the start of the bytes, with the bytes after it. -/
def first? : Bytes → Option (Char × Bytes)
  | [] => none
  | b₀ :: rest =>
    if b₀.toNat < 0x80 then some (Char.ofNat b₀.toNat, rest)
    else match rest with
      | [] => none
      | b₁ :: rest =>
        match char2? b₀ b₁ with
        | some c => some (c, rest)
        | none =>
          match rest with
          | [] => none
          | b₂ :: rest =>
            match char3? b₀ b₁ b₂ with
            | some c => some (c, rest)
            | none =>
              match rest with
              | [] => none
              | b₃ :: rest => (char4? b₀ b₁ b₂ b₃).map fun c => (c, rest)

/-- A character takes at least one byte. -/
theorem length_lt_of_first? {bytes rest : Bytes} {c : Char}
    (h : first? bytes = some (c, rest)) : rest.length < bytes.length := by
  unfold first? at h
  repeat' split at h
  all_goals simp_all
  all_goals grind

/-- The text of `bytes`, which start at `offset` in the whole; an error is the offset of
the first ill-formed sequence. -/
def decodeFrom (offset : Nat) (bytes : Bytes) : Except Nat Text :=
  if bytes.isEmpty then .ok []
  else match _h : first? bytes with
    | none => .error offset
    | some (c, rest) => (decodeFrom (offset + c.utf8Size) rest).map (c :: ·)
termination_by bytes.length
decreasing_by exact length_lt_of_first? _h

end Utf8

namespace Text

/-- The bytes of a text. -/
def toUtf8 (t : Text) : Bytes :=
  t.flatMap String.utf8EncodeChar

/-- The text of the bytes, or the number of bytes before the first ill-formed sequence. -/
def ofUtf8? (bytes : Bytes) : Except Nat Text :=
  Utf8.decodeFrom 0 bytes

end Text

end StrategyDialect
