import StrategyDialect.Text.Hex
import StrategyDialect.Toml.Item

/-!
# TOML strings

The four ways of quoting a string, which are read and written here.  Single quotes take
what stands between them as it is; double quotes have escapes; each quote may be
tripled, which admits newlines.

## Main definitions

* `TomlString.read`: the string at the start of a text
* `TomlString.Form`, `TomlString.formOf`: the form in which a string is written
* `TomlString.write`: the written form of a string
-/

namespace StrategyDialect

namespace TomlString

/-- A reader of what stands at the start of a text. -/
abbrev Reader (α : Type) := Text → Except TomlFault (α × Text)

/-- The control characters of ASCII, the tab apart. -/
def isControl (c : Char) : Bool :=
  (c.toNat < 0x20 && c != '\t') || c.toNat == 0x7F

/-! ### Reading -/

/-- The character with the given number, which must not be a surrogate. -/
def charOf? (n : Nat) : Option Char :=
  if h : n.isValidChar then some (Char.ofNatAux n h) else none

/-- The character that a backslash and one character after it stand for. -/
def shortEscape? : Char → Option Char
  | 'b' => some '\x08'
  | 't' => some '\t'
  | 'n' => some '\n'
  | 'f' => some '\x0C'
  | 'r' => some '\r'
  | '"' => some '"'
  | '\\' => some '\\'
  | _ => none

/-- The number of hexadecimal digits that follow the letter of a long escape. -/
def escapeWidth? : Char → Option Nat
  | 'u' => some 4
  | 'U' => some 8
  | _ => none

/-- The character that a backslash and the characters after it stand for, with the text
after them. -/
def readEscape? : Text → Option (Char × Text)
  | [] => none
  | c :: t =>
    match shortEscape? c with
    | some d => some (d, t)
    | none => do
      let (n, rest) ← Hex.read? (← escapeWidth? c) t
      return (← charOf? n, rest)

/-- An escape takes at least one character. -/
theorem length_lt_of_readEscape? {t rest : Text} {c : Char}
    (h : readEscape? t = some (c, rest)) : rest.length < t.length := by
  cases t with
  | nil => simp [readEscape?] at h
  | cons c t =>
    simp only [readEscape?] at h
    split at h
    · simp_all
    · simp only [Option.bind_eq_bind, Option.bind_eq_some_iff, Option.pure_def,
        Option.some.injEq, Prod.mk.injEq] at h
      obtain ⟨width, _, ⟨n, r⟩, read, d, _, _, rfl⟩ := h
      have := Hex.length_of_readFrom read
      simp only [List.length_cons]
      omega

/-- A string from behind its opening double quote. -/
def readBasic : Reader Text
  | [] => .error .illFormed
  | '"' :: t => .ok ([], t)
  | '\\' :: t =>
    match _h : readEscape? t with
    | none => .error .illFormed
    | some (c, rest) => (readBasic rest).map fun (s, rest) => (c :: s, rest)
  | c :: t =>
    if isControl c then .error .illFormed
    else (readBasic t).map fun (s, rest) => (c :: s, rest)
termination_by t => t.length
decreasing_by
  · have := length_lt_of_readEscape? _h
    simp only [List.length_cons]
    omega
  · simp

/-- A string from behind its opening single quote. -/
def readLiteral : Reader Text
  | [] => .error .illFormed
  | '\'' :: t => .ok ([], t)
  | c :: t =>
    if isControl c then .error .illFormed
    else (readLiteral t).map fun (s, rest) => (c :: s, rest)

/-- The text without a newline at its start. -/
def afterNewline : Text → Text
  | '\n' :: t => t
  | '\r' :: '\n' :: t => t
  | t => t

/-- The text from the next character on that is neither a space, a tab nor part of a
newline. -/
def skipBlankLines : Text → Text
  | [] => []
  | '\r' :: '\n' :: t => skipBlankLines t
  | c :: t => if c = ' ' ∨ c = '\t' ∨ c = '\n' then skipBlankLines t else c :: t

/-- Skipping adds nothing. -/
theorem length_skipBlankLines_le (t : Text) : (skipBlankLines t).length ≤ t.length := by
  induction t using skipBlankLines.induct with
  | case1 => simp [skipBlankLines]
  | case2 t ih => simp only [skipBlankLines, List.length_cons]; omega
  | case3 c t _ h ih => rw [skipBlankLines] <;> simp_all; omega
  | case4 c t _ h => rw [skipBlankLines] <;> simp_all

/-- The text after a backslash that stands at the end of a line, from the next character
on that is not blank; `none` if something else follows the backslash. -/
def continuation? (t : Text) : Option Text :=
  match t.dropWhile fun c => c = ' ' || c = '\t' with
  | '\n' :: t => some (skipBlankLines t)
  | '\r' :: '\n' :: t => some (skipBlankLines t)
  | _ => none

/-- Dropping characters adds nothing. -/
theorem length_dropWhile_le (p : Char → Bool) (t : Text) :
    (t.dropWhile p).length ≤ t.length :=
  (List.dropWhile_sublist p).length_le

/-- A line end takes at least one character. -/
theorem length_lt_of_continuation? {t rest : Text} (h : continuation? t = some rest) :
    rest.length < t.length := by
  unfold continuation? at h
  have bound := length_dropWhile_le (fun c => c = ' ' || c = '\t') t
  split at h
  · rename_i u eq
    have := length_skipBlankLines_le u
    simp_all
    omega
  · rename_i u eq
    have := length_skipBlankLines_le u
    simp_all
    omega
  · simp at h

/-- The end of a string in tripled quotes: up to two quotes before the closing three
belong to the string. -/
def closing? (quote : Char) : Text → Option (Text × Text)
  | a :: b :: c :: d :: e :: t =>
    if [a, b, c, d, e].all (· == quote) then some ([quote, quote], t)
    else if [a, b, c, d].all (· == quote) then some ([quote], e :: t)
    else if [a, b, c].all (· == quote) then some ([], d :: e :: t)
    else none
  | [a, b, c, d] =>
    if [a, b, c, d].all (· == quote) then some ([quote], [])
    else if [a, b, c].all (· == quote) then some ([], [d])
    else none
  | [a, b, c] => if [a, b, c].all (· == quote) then some ([], []) else none
  | _ => none

/-- A string from behind its opening tripled double quote and the newline after that.
Every newline in it counts as a single newline character. -/
def readBasicLines (t : Text) : Except TomlFault (Text × Text) :=
  match closing? '"' t with
  | some (quotes, rest) => .ok (quotes, rest)
  | none =>
    match t with
    | [] => .error .illFormed
    | '\\' :: t =>
      match _h : continuation? t with
      | some rest => readBasicLines rest
      | none =>
        match _h : readEscape? t with
        | none => .error .illFormed
        | some (c, rest) => (readBasicLines rest).map fun (s, rest) => (c :: s, rest)
    | '\r' :: '\n' :: t => (readBasicLines t).map fun (s, rest) => ('\n' :: s, rest)
    | c :: t =>
      if isControl c ∧ c ≠ '\n' then .error .illFormed
      else (readBasicLines t).map fun (s, rest) => (c :: s, rest)
termination_by t.length
decreasing_by
  · have := length_lt_of_continuation? _h
    simp only [List.length_cons]
    omega
  · have := length_lt_of_readEscape? _h
    simp only [List.length_cons]
    omega
  · simp only [List.length_cons]
    omega
  · simp

/-- A string from behind its opening tripled single quote and the newline after that.
Every newline in it counts as a single newline character. -/
def readLiteralLines (t : Text) : Except TomlFault (Text × Text) :=
  match closing? '\'' t with
  | some (quotes, rest) => .ok (quotes, rest)
  | none =>
    match t with
    | [] => .error .illFormed
    | '\r' :: '\n' :: t => (readLiteralLines t).map fun (s, rest) => ('\n' :: s, rest)
    | c :: t =>
      if isControl c ∧ c ≠ '\n' then .error .illFormed
      else (readLiteralLines t).map fun (s, rest) => (c :: s, rest)

/-- The string at the start of a text, in any of the four forms. -/
def read : Reader Text
  | '"' :: '"' :: '"' :: t => readBasicLines (afterNewline t)
  | '"' :: t => readBasic t
  | '\'' :: '\'' :: '\'' :: t => readLiteralLines (afterNewline t)
  | '\'' :: t => readLiteral t
  | _ => .error .illFormed

/-- The string at the start of a text, in one of the two forms without newlines. -/
def readOnLine : Reader Text
  | '"' :: t => readBasic t
  | '\'' :: t => readLiteral t
  | _ => .error .illFormed

/-! ### Writing -/

/-- The forms in which a string is written. -/
inductive Form where
  /-- Between double quotes. -/
  | basic
  /-- Between single quotes. -/
  | literal
  /-- Between tripled double quotes. -/
  | basicLines
  /-- Between tripled single quotes. -/
  | literalLines
deriving DecidableEq

/-- The length of the longest run of a character. -/
def longestRun (c : Char) (s : Text) : Nat :=
  go 0 0 s
where
  /-- The longest run, of which `longest` is known, while a run of `current` is going
  on. -/
  go (longest current : Nat) : Text → Nat
    | [] => longest
    | d :: s =>
      if d = c then go (max longest (current + 1)) (current + 1) s else go longest 0 s

/-- The form of a string: the first of the four that shows it without escapes other than
of tabs, and otherwise double quotes, tripled if the string has a newline. -/
def formOf (s : Text) : Form :=
  let hasNewline := s.contains '\n'
  let hasControl := s.any fun c => isControl c && c != '\n'
  let hasBackslash := s.contains '\\'
  if !hasControl && !hasBackslash && !s.contains '"' && !hasNewline then .basic
  else if !hasControl && !s.contains '\'' && !hasNewline then .literal
  else if !hasControl && !hasBackslash && longestRun '"' s < 3 then .basicLines
  else if !hasControl && longestRun '\'' s < 3 then .literalLines
  else if hasNewline then .basicLines
  else .basic

/-- A character between double quotes, other than a double quote; newlines are escaped
unless the quotes are tripled. -/
def escapeChar (inLines : Bool) (c : Char) : Text :=
  match c with
  | '\x08' => "\\b".toList
  | '\t' => "\\t".toList
  | '\n' => if inLines then ['\n'] else "\\n".toList
  | '\x0C' => "\\f".toList
  | '\r' => "\\r".toList
  | '\\' => "\\\\".toList
  | c => if isControl c then "\\u".toList ++ Hex.write4 true c.toNat else [c]

/-- A string between double quotes, where `quotes` double quotes stand just before it.
The quote that would complete a run of more than `limit` is escaped, and a new run
starts after it. -/
def escapeFrom (inLines : Bool) (limit quotes : Nat) : Text → Text
  | [] => []
  | '"' :: s =>
    if quotes < limit then '"' :: escapeFrom inLines limit (quotes + 1) s
    else "\\\"".toList ++ escapeFrom inLines limit 0 s
  | c :: s => escapeChar inLines c ++ escapeFrom inLines limit 0 s

/-- The newline that is put in front of a string with newlines, and that reading drops. -/
def leadingNewline (s : Text) : Text :=
  if s.contains '\n' then ['\n'] else []

/-- The string in the given form. -/
def writeAs (s : Text) : Form → Text
  | .basic => ['"'] ++ escapeFrom false 0 0 s ++ ['"']
  | .literal => ['\''] ++ s ++ ['\'']
  | .basicLines =>
    "\"\"\"".toList ++ leadingNewline s ++ escapeFrom true 2 0 s ++ "\"\"\"".toList
  | .literalLines => "'''".toList ++ leadingNewline s ++ s ++ "'''".toList

/-- The written form of a string. -/
def write (s : Text) : Text :=
  writeAs s (formOf s)

end TomlString

end StrategyDialect
