import StrategyDialect.Json.Quoted
import StrategyDialect.Number.Magnitude

/-!
# Reading JSON

The parts of JSON from which the readers of particular values are built.  They tell
apart a text that breaks the grammar, a text that ends too early, and a value of another
type than the one asked for; of several faults the first one from the left is reported.

## Main definitions

* `JsonReader.readText`, `JsonReader.readText?`: a string, and a string or `null`
* `JsonReader.skipValue`: any value
* `JsonReader.wrongType`: what to report of a value of the wrong type
* `JsonReader.readList`: a list
* `JsonReader.nextKey?`: the next key of an object
* `JsonReader.readWhole`: a text that holds one value and nothing else
-/

namespace StrategyDialect

namespace JsonReader

/-- The text after the blanks at its start. -/
def skipBlanks (t : Text) : Text :=
  t.dropWhile fun c => c = ' ' || c = '\n' || c = '\r' || c = '\t'

/-- The text after a word that is asked for letter by letter. -/
def readWord : (word : Text) → Text → Except JsonFault Text
  | [], t => .ok t
  | _ :: _, [] => .error .cutShort
  | c :: word, d :: t => if c = d then readWord word t else .error .illFormed

/-! ### Numbers -/

/-- The digits at the start of a text, with the text after them.  At least one is
needed; `atEnd` is what to report if the text ends instead. -/
def readDigits (atEnd : JsonFault) (t : Text) : Except JsonFault (Text × Text) :=
  match t.span Char.isDigit with
  | ([], []) => .error atEnd
  | ([], _ :: _) => .error .illFormed
  | found => .ok found

/-- The number that digits spell. -/
def ofDigits (digits : Text) : Nat :=
  digits.foldl (fun n d => 10 * n + (d.toNat - '0'.toNat)) 0

/-- The digits before the point: a zero stands alone. -/
def readInteger (atEnd : JsonFault) (t : Text) : Except JsonFault (Text × Text) := do
  let (digits, rest) ← readDigits atEnd t
  if digits.head? = some '0' ∧ digits.length ≠ 1 then throw .illFormed
  return (digits, rest)

/-- The digits after the point, if there is one. -/
def readFraction (atEnd : JsonFault) : JsonReader Text
  | '.' :: t => readDigits atEnd t
  | t => .ok ([], t)

/-- The exponent, if there is one. -/
def readExponent (atEnd : JsonFault) (t : Text) : Except JsonFault (Int × Text) :=
  let magnitude := fun (t : Text) => (readDigits atEnd t).map fun (digits, rest) =>
    ((ofDigits digits : Int), rest)
  match t with
  | e :: t =>
    if e = 'e' ∨ e = 'E' then
      match t with
      | '+' :: t => magnitude t
      | '-' :: t => (magnitude t).map fun (n, rest) => (-n, rest)
      | t => magnitude t
    else .ok (0, e :: t)
  | [] => .ok (0, [])

/-- A number from behind its sign: its digits as a whole number and a power of ten, with
the text after it. -/
def readNumber (atEnd : JsonFault) (t : Text) :
    Except JsonFault ((Nat × Int) × Text) := do
  let (whole, rest) ← readInteger atEnd t
  let (fraction, rest) ← readFraction atEnd rest
  let (exponent, rest) ← readExponent atEnd rest
  return ((ofDigits (whole ++ fraction), exponent - fraction.length), rest)

/-- The text after a number that nobody asked for. -/
def skipNumber (t : Text) : Except JsonFault Text :=
  (readNumber .illFormed t).map (·.2)

/-! ### Values that nobody asked for -/

/-- The text after an escape, from behind its backslash.  Surrogates need no partner
here. -/
def skipEscape : Text → Except JsonFault Text
  | [] => .error .cutShort
  | 'u' :: t => (JsonString.readUnit t).map (·.2)
  | c :: t => if (JsonString.shortEscape? c).isSome then .ok t else .error .illFormed

/-- An escape takes at least one character. -/
theorem length_lt_of_skipEscape {t rest : Text} (h : skipEscape t = .ok rest) :
    rest.length < t.length := by
  unfold skipEscape at h
  split at h
  case h_1 => simp at h
  case h_2 t =>
    cases read : JsonString.readUnit t with
    | error e => simp [read, Except.map] at h
    | ok found =>
      have := JsonString.length_of_readUnit read
      simp only [read, Except.map, Except.ok.injEq] at h
      simp only [List.length_cons, ← h]
      omega
  case h_3 => split at h <;> simp_all

/-- The text after a string, from behind its opening quote. -/
def skipString : Text → Except JsonFault Text
  | [] => .error .cutShort
  | '"' :: t => .ok t
  | '\\' :: t =>
    match _h : skipEscape t with
    | .error e => .error e
    | .ok rest => skipString rest
  | c :: t => if c.toNat < 0x20 then .error .illFormed else skipString t
termination_by t => t.length
decreasing_by
  · have := length_lt_of_skipEscape _h
    simp only [List.length_cons]
    omega
  · simp

/-- The text after the items of a list, from before an item on. -/
def skipItems (skip : Text → Except JsonFault Text) :
    (bound : Nat) → Text → Except JsonFault Text
  | 0, _ => .error .illFormed
  | bound + 1, t => do
    match skipBlanks (← skip t) with
    | [] => throw .cutShort
    | ',' :: t => skipItems skip bound t
    | ']' :: t => return t
    | _ => throw .illFormed

/-- The text after a colon. -/
def readColon (t : Text) : Except JsonFault Text :=
  match skipBlanks t with
  | [] => .error .cutShort
  | ':' :: t => .ok t
  | _ => .error .illFormed

/-- The text after the fields of an object, from before a field on. -/
def skipFields (skip : Text → Except JsonFault Text) :
    (bound : Nat) → Text → Except JsonFault Text
  | 0, _ => .error .illFormed
  | bound + 1, t => do
    match skipBlanks t with
    | [] => throw .cutShort
    | '"' :: t =>
      match skipBlanks (← skip (← readColon (← skipString t))) with
      | [] => throw .cutShort
      | ',' :: t => skipFields skip bound t
      | '}' :: t => return t
      | _ => throw .illFormed
    | _ => throw .illFormed

/-- The text after a value in which lists and objects are nested less than `bound`
deep. -/
def skipNested : (bound : Nat) → Text → Except JsonFault Text
  | 0, _ => .error .illFormed
  | bound + 1, t =>
    match skipBlanks t with
    | [] => .error .cutShort
    | 'n' :: t => readWord "ull".toList t
    | 't' :: t => readWord "rue".toList t
    | 'f' :: t => readWord "alse".toList t
    | '"' :: t => skipString t
    | '-' :: t => skipNumber t
    | '[' :: t =>
      match skipBlanks t with
      | ']' :: t => .ok t
      | t => skipItems (skipNested bound) (t.length + 1) t
    | '{' :: t =>
      match skipBlanks t with
      | '}' :: t => .ok t
      | t => skipFields (skipNested bound) (t.length + 1) t
    | c :: t => if c.isDigit then skipNumber (c :: t) else .error .illFormed

/-- The text after a value. -/
def skipValue (t : Text) : Except JsonFault Text :=
  skipNested (t.length + 1) t

/-- What to report of a value of the wrong type: a fault in it that is found before its
type is known, and otherwise the type. -/
def wrongType (t : Text) : JsonFault :=
  let ofResult {α : Type} (r : Except JsonFault α) : JsonFault :=
    match r with
    | .error e => e
    | .ok _ => .wrongData
  let ofNumber (r : Except JsonFault ((Nat × Int) × Text)) : JsonFault :=
    match r with
    | .error e => e
    | .ok ((significand, exponent), _) =>
      if overflowsBinary64 significand exponent then .illFormed else .wrongData
  match t with
  | 'n' :: t => ofResult (readWord "ull".toList t)
  | 't' :: t => ofResult (readWord "rue".toList t)
  | 'f' :: t => ofResult (readWord "alse".toList t)
  | '"' :: t => ofResult (JsonString.read t)
  | '-' :: t => ofNumber (readNumber .cutShort t)
  | '[' :: _ => .wrongData
  | '{' :: _ => .wrongData
  | c :: t => if c.isDigit then ofNumber (readNumber .cutShort (c :: t)) else .illFormed
  | [] => .illFormed

/-! ### Values that are asked for -/

/-- A string. -/
def readText : JsonReader Text := fun t =>
  match skipBlanks t with
  | [] => .error .cutShort
  | '"' :: t => JsonString.read t
  | t => .error (wrongType t)

/-- A string or `null`. -/
def readText? : JsonReader (Option Text) := fun t =>
  match skipBlanks t with
  | 'n' :: t => (readWord "ull".toList t).map fun rest => (none, rest)
  | t => (readText t).map fun (s, rest) => (some s, rest)

/-- `null`. -/
def readNull (t : Text) : Except JsonFault Text :=
  match skipBlanks t with
  | [] => .error .cutShort
  | 'n' :: t => readWord "ull".toList t
  | t => .error (wrongType t)

/-- The text of the next item of a list, or `none` if the list ends here.  The closing
bracket is left standing; `isFirst` says that no item has been read yet. -/
def nextItem? (isFirst : Bool) (t : Text) : Except JsonFault (Option Text) :=
  match skipBlanks t with
  | [] => .error .cutShort
  | ']' :: _ => .ok none
  | c :: rest =>
    if isFirst then .ok (some (c :: rest))
    else if c = ',' then
      match skipBlanks rest with
      | [] => .error .cutShort
      | ']' :: _ => .error .illFormed
      | t => .ok (some t)
    else .error .illFormed

/-- The text after the closing bracket of a list. -/
def readListEnd (t : Text) : Except JsonFault Text :=
  match skipBlanks t with
  | [] => .error .cutShort
  | ']' :: t => .ok t
  | _ => .error .illFormed

/-- The items of a list and its closing bracket.  Each round reads at least one of the
`bound` characters. -/
def readItems {α : Type} (item : JsonReader α) (isFirst : Bool) :
    (bound : Nat) → JsonReader (List α)
  | 0, _ => .error .illFormed
  | bound + 1, t => do
    match ← nextItem? isFirst t with
    | none => return ([], ← readListEnd t)
    | some t =>
      let (a, rest) ← item t
      let (as, rest) ← readItems item false bound rest
      return (a :: as, rest)

/-- A list. -/
def readList {α : Type} (item : JsonReader α) : JsonReader (List α) := fun t =>
  match skipBlanks t with
  | [] => .error .cutShort
  | '[' :: t => readItems item true (t.length + 1) t
  | t => .error (wrongType t)

/-- A key from behind its opening quote. -/
def readKey (t : Text) : Except JsonFault (Option Text × Text) :=
  (JsonString.read t).map fun (key, rest) => (some key, rest)

/-- The next key of an object, or `none` if the object ends here, with the text after
it.  `isFirst` says that no field has been read yet. -/
def nextKey? (isFirst : Bool) (t : Text) : Except JsonFault (Option Text × Text) :=
  match skipBlanks t, isFirst with
  | [], _ => .error .cutShort
  | '}' :: rest, _ => .ok (none, rest)
  | '"' :: rest, true => readKey rest
  | ',' :: rest, false =>
    match skipBlanks rest with
    | [] => .error .cutShort
    | '"' :: rest => readKey rest
    | _ => .error .illFormed
  | _, _ => .error .illFormed

/-- The value that a text consists of. -/
def readWhole {α : Type} (value : JsonReader α) (t : Text) : Except JsonFault α := do
  let (a, rest) ← value t
  if skipBlanks rest = [] then return a else throw .illFormed

end JsonReader

end StrategyDialect
