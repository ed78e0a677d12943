import StrategyDialect.Text.Hex
import StrategyDialect.Text.Utf8

/-!
# JSON strings

Writing escapes the two characters that have to be, and the control characters; all
others stand as they are.  Reading accepts every escape of the format and asks
surrogates to come in pairs.

## Main definitions

* `JsonFault`: the three ways in which a text fails to be the JSON that is asked for
* `JsonString.write`: the quoted form of a string
* `JsonString.read`: the string from behind an opening quote
-/

namespace StrategyDialect

/-- Why a text is not the JSON that is asked for. -/
inductive JsonFault where
  /-- The text does not follow the grammar of JSON. -/
  | illFormed
  /-- The text is JSON so far, but of the wrong shape. -/
  | wrongData
  /-- The text ends too early. -/
  | cutShort
deriving DecidableEq

/-- A reader of what stands at the start of a text. -/
abbrev JsonReader (α : Type) := Text → Except JsonFault (α × Text)

namespace JsonString

/-! ### Writing -/

/-- A character between quotes. -/
def escapeChar (c : Char) : Text :=
  match c with
  | '"' => "\\\"".toList
  | '\\' => "\\\\".toList
  | '\x08' => "\\b".toList
  | '\x0C' => "\\f".toList
  | '\n' => "\\n".toList
  | '\r' => "\\r".toList
  | '\t' => "\\t".toList
  | c => if c.toNat < 0x20 then "\\u".toList ++ Hex.write4 false c.toNat else [c]

/-- A string in quotes. -/
def write (s : Text) : Text :=
  ['"'] ++ s.flatMap escapeChar ++ ['"']

/-! ### Reading -/

/-- The character that a backslash and one character after it stand for. -/
def shortEscape? : Char → Option Char
  | '"' => some '"'
  | '\\' => some '\\'
  | '/' => some '/'
  | 'b' => some '\x08'
  | 'f' => some '\x0C'
  | 'n' => some '\n'
  | 'r' => some '\r'
  | 't' => some '\t'
  | _ => none

/-- The four hexadecimal digits after `\u`.  The text ends too early if fewer than four
bytes are left. -/
def readUnit (t : Text) : Except JsonFault (Nat × Text) :=
  match Hex.read? 4 t with
  | some found => .ok found
  | none => if 4 ≤ t.toUtf8.length then .error .illFormed else .error .cutShort

/-- The second half of a surrogate pair, of which `high` is the first. -/
def readLowSurrogate (high : Nat) : JsonReader Char
  | [] => .error .cutShort
  | ['\\'] => .error .cutShort
  | '\\' :: 'u' :: t => do
    let (low, rest) ← readUnit t
    if 0xDC00 ≤ low ∧ low ≤ 0xDFFF then
      return (Char.ofNat (0x10000 + (high - 0xD800) * 0x400 + (low - 0xDC00)), rest)
    else throw .illFormed
  | _ => .error .illFormed

/-- The character that a backslash and the characters after it stand for. -/
def readEscape : JsonReader Char
  | [] => .error .cutShort
  | 'u' :: t => do
    let (n, rest) ← readUnit t
    if 0xD800 ≤ n ∧ n ≤ 0xDBFF then readLowSurrogate n rest
    else if 0xDC00 ≤ n ∧ n ≤ 0xDFFF then throw .illFormed
    else return (Char.ofNat n, rest)
  | c :: t =>
    match shortEscape? c with
    | some d => .ok (d, t)
    | none => .error .illFormed

/-- Four digits take four characters. -/
theorem length_of_readUnit {t rest : Text} {n : Nat} (h : readUnit t = .ok (n, rest)) :
    rest.length + 4 = t.length := by
  unfold readUnit at h
  split at h
  · rename_i found eq
    obtain rfl : found = (n, rest) := by simpa using h
    exact Hex.length_of_readFrom eq
  · split at h <;> simp at h

/-- The second half of a pair takes at least one character. -/
theorem length_lt_of_readLowSurrogate {high : Nat} {t rest : Text} {c : Char}
    (h : readLowSurrogate high t = .ok (c, rest)) : rest.length < t.length := by
  unfold readLowSurrogate at h
  split at h
  case h_3 t =>
    cases read : readUnit t with
    | error e => simp [read, bind, Except.bind] at h
    | ok found =>
      have := length_of_readUnit read
      simp only [read, bind, Except.bind] at h
      split at h
      · simp only [pure, Except.pure, Except.ok.injEq, Prod.mk.injEq] at h
        simp only [List.length_cons, ← h.2]
        omega
      · simp [throw, throwThe, MonadExceptOf.throw] at h
  all_goals simp at h

/-- An escape takes at least one character. -/
theorem length_lt_of_readEscape {t rest : Text} {c : Char}
    (h : readEscape t = .ok (c, rest)) : rest.length < t.length := by
  unfold readEscape at h
  split at h
  case h_1 => simp at h
  case h_2 t =>
    cases read : readUnit t with
    | error e => simp [read, bind, Except.bind] at h
    | ok found =>
      have := length_of_readUnit read
      simp only [read, bind, Except.bind] at h
      simp only [List.length_cons]
      split at h
      · have := length_lt_of_readLowSurrogate h
        omega
      · split at h
        · simp [throw, throwThe, MonadExceptOf.throw] at h
        · simp only [pure, Except.pure, Except.ok.injEq, Prod.mk.injEq] at h
          simp only [← h.2]
          omega
  case h_3 =>
    split at h
    · simp_all
    · simp at h

/-- A string from behind its opening quote. -/
def read : JsonReader Text
  | [] => .error .cutShort
  | '"' :: t => .ok ([], t)
  | '\\' :: t =>
    match _h : readEscape t with
    | .error e => .error e
    | .ok (c, rest) => (read rest).map fun (s, rest) => (c :: s, rest)
  | c :: t =>
    if c.toNat < 0x20 then .error .illFormed
    else (read t).map fun (s, rest) => (c :: s, rest)
termination_by t => t.length
decreasing_by
  · have := length_lt_of_readEscape _h
    simp only [List.length_cons]
    omega
  · simp

end JsonString

end StrategyDialect
