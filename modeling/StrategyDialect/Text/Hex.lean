import StrategyDialect.Text.Basic

/-!
# Hexadecimal digits

Numbers of a fixed width in base sixteen, as the escapes of TOML and JSON write them.
-/

namespace StrategyDialect

namespace Hex

/-- The value of a hexadecimal digit, in either case. -/
def value? (c : Char) : Option Nat :=
  if c.isDigit then some (c.toNat - '0'.toNat)
  else if 'a' ≤ c ∧ c ≤ 'f' then some (c.toNat - 'a'.toNat + 10)
  else if 'A' ≤ c ∧ c ≤ 'F' then some (c.toNat - 'A'.toNat + 10)
  else none

/-- The number that exactly `width` digits at the start of a text spell, with the text
after them; `value` is what the digits before spell. -/
def readFrom (value : Nat) : (width : Nat) → Text → Option (Nat × Text)
  | 0, t => some (value, t)
  | _ + 1, [] => none
  | width + 1, c :: t => do readFrom (16 * value + (← value? c)) width t

/-- The number that exactly `width` digits at the start of a text spell, with the text
after them. -/
def read? (width : Nat) (t : Text) : Option (Nat × Text) :=
  readFrom 0 width t

/-- Four digits, with `digitsUpper` or small letters. -/
def write4 (digitsUpper : Bool) (n : Nat) : Text :=
  [n / 4096 % 16, n / 256 % 16, n / 16 % 16, n % 16].map fun d =>
    let c := Nat.digitChar d
    if digitsUpper then c.toUpper else c

/-- The digits are a beginning of the text. -/
theorem length_of_readFrom {value width : Nat} {t rest : Text} {n : Nat}
    (h : readFrom value width t = some (n, rest)) : rest.length + width = t.length := by
  induction width generalizing value t with
  | zero => simp_all [readFrom]
  | succ width ih =>
    cases t with
    | nil => simp [readFrom] at h
    | cons c t =>
      simp only [readFrom, Option.bind_eq_bind, Option.bind_eq_some_iff] at h
      obtain ⟨d, _, h⟩ := h
      have := ih h
      simp only [List.length_cons]
      omega

end Hex

end StrategyDialect
