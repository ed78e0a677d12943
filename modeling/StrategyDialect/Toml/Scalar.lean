import StrategyDialect.Number.Magnitude
import StrategyDialect.Text.Basic

/-!
# TOML booleans, numbers, dates and times

The scalar values other than strings, of which a reader only needs to know whether they
are well formed.

## Main definitions

* `TomlScalar.isScalar`: the written forms of all such values
* `TomlScalar.read?`: the scalar at the start of a text
-/

namespace StrategyDialect

namespace TomlScalar

/-- The value of a digit of a base up to sixteen. -/
def digit? (base : Nat) (c : Char) : Option Nat :=
  let n? :=
    if c.isDigit then some (c.toNat - '0'.toNat)
    else if 'a' ≤ c ∧ c ≤ 'f' then some (c.toNat - 'a'.toNat + 10)
    else if 'A' ≤ c ∧ c ≤ 'F' then some (c.toNat - 'A'.toNat + 10)
    else none
  n?.filter (· < base)

/-- The number that digits spell, with single low lines allowed between them; `value` is
what the digits before spell. -/
def number? (base value : Nat) : Text → Option Nat
  | [] => none
  | [c] => (digit? base c).map (base * value + ·)
  | c :: '_' :: t => do number? base (base * value + (← digit? base c)) t
  | c :: t => do number? base (base * value + (← digit? base c)) t

/-- The text without its sign, if it has one. -/
def unsigned : Text → Text
  | '+' :: t => t
  | '-' :: t => t
  | t => t

/-- Digits of which the first is no superfluous zero. -/
def isPlainNumber (t : Text) : Bool :=
  (number? 10 0 t).isSome && (t.head? != some '0' || t.length == 1)

/-- The number of integers of 64 bits that have no minus sign. -/
def integerCount : Nat :=
  0x8000000000000000

/-- An integer of 64 bits, in decimal with a sign, or in base 16, 8 or 2 without. -/
def isInteger : Text → Bool
  | '0' :: 'x' :: t => (number? 16 0 t).any (· < integerCount)
  | '0' :: 'o' :: t => (number? 8 0 t).any (· < integerCount)
  | '0' :: 'b' :: t => (number? 2 0 t).any (· < integerCount)
  | '-' :: t => isPlainNumber t && (number? 10 0 t).any (· ≤ integerCount)
  | t => isPlainNumber (unsigned t) && (number? 10 0 (unsigned t)).any (· < integerCount)

/-- The parts of a text before and after the first of some characters. -/
def cutAt (separators : Text) (t : Text) : Text × Option Text :=
  match t.span (!separators.contains ·) with
  | (before, []) => (before, none)
  | (before, _ :: after) => (before, some after)

/-- The exponent that follows the letter of a float. -/
def exponent? (t : Text) : Option Int :=
  match t with
  | '-' :: t => (number? 10 0 t).map fun n => -(n : Int)
  | t => (number? 10 0 (unsigned t)).map fun n => (n : Int)

/-- A decimal number with a fraction, an exponent or both.  A positive one must not be
too large for a 64-bit float. -/
def isDecimalFloat (t : Text) : Bool :=
  let (mantissa, exponent) := cutAt ['e', 'E'] (unsigned t)
  let (whole, fraction) := cutAt ['.'] mantissa
  let fractionDigits := fraction.map (·.filter (· != '_'))
  (exponent.isSome || fraction.isSome) && isPlainNumber whole
    && fraction.all (fun t => (number? 10 0 t).isSome)
    && match exponent.map exponent? with
      | some none => false
      | exponent =>
        let digits := (whole.filter (· != '_')) ++ fractionDigits.getD []
        let shift : Int := (exponent.bind id).getD 0 - (fractionDigits.getD []).length
        t.head? == some '-' || !overflowsBinary64 ((number? 10 0 digits).getD 0) shift

/-- A float, which may be infinite or no number. -/
def isFloat (t : Text) : Bool :=
  isDecimalFloat t || unsigned t == "inf".toList || unsigned t == "nan".toList

/-! ### Dates and times -/

/-- The number that exactly `width` digits spell. -/
def fixed? (width : Nat) (t : Text) : Option Nat :=
  if t.length = width ∧ t.all Char.isDigit then number? 10 0 t else none

/-- Whether a year has a 29 February. -/
def isLeapYear (year : Nat) : Bool :=
  year % 4 == 0 && (year % 100 != 0 || year % 400 == 0)

/-- The number of days of a month. -/
def daysInMonth (year month : Nat) : Nat :=
  if month = 2 then if isLeapYear year then 29 else 28
  else if month ∈ [4, 6, 9, 11] then 30 else 31

/-- A date `YYYY-MM-DD` of the calendar. -/
def isDate (t : Text) : Bool :=
  match Text.splitOn '-' t with
  | [year, month, day] =>
    match fixed? 4 year, fixed? 2 month, fixed? 2 day with
    | some year, some month, some day =>
      1 ≤ month && month ≤ 12 && 1 ≤ day && day ≤ daysInMonth year month
    | _, _, _ => false
  | _ => false

/-- Hours and minutes `HH:MM`. -/
def isHourMinute (hour minute : Text) : Bool :=
  (fixed? 2 hour).any (· < 24) && (fixed? 2 minute).any (· < 60)

/-- Seconds `SS`, up to a leap second, with any number of digits of a fraction. -/
def isSecond (t : Text) : Bool :=
  let (whole, fraction) := cutAt ['.'] t
  (fixed? 2 whole).any (· ≤ 60) && fraction.all fun digits =>
    !digits.isEmpty && digits.all Char.isDigit

/-- A time of day `HH:MM:SS`. -/
def isTime (t : Text) : Bool :=
  match Text.splitOn ':' t with
  | [hour, minute, second] => isHourMinute hour minute && isSecond second
  | _ => false

/-- The distance `HH:MM` of a time zone from universal time. -/
def isOffset (t : Text) : Bool :=
  match Text.splitOn ':' t with
  | [hour, minute] => isHourMinute hour minute
  | _ => false

/-- A time of day, with or without the offset of a time zone. -/
def isTimeWithOffset (t : Text) : Bool :=
  match t.span (· ∉ ['Z', 'z', '+', '-']) with
  | (time, []) => isTime time
  | (time, sign :: zone) =>
    isTime time && if sign = '+' ∨ sign = '-' then isOffset zone else zone.isEmpty

/-- A date, a time, or both. -/
def isDateTime (t : Text) : Bool :=
  match cutAt ['T', 't', ' '] t with
  | (date, none) => isDate date || isTime date
  | (date, some time) => isDate date && isTimeWithOffset time

/-! ### Scalars -/

/-- A boolean, a number, a date or a time. -/
def isScalar (t : Text) : Bool :=
  t == "true".toList || t == "false".toList || isInteger t || isFloat t || isDateTime t

/-- A character that such a value may contain. -/
def isScalarChar (c : Char) : Bool :=
  c.isAlphanum || ['+', '-', '_', '.', ':'].contains c

/-- The characters of the value at the start of a text, with the text after them.  A
date and a time may be separated by a space. -/
def spanScalar (t : Text) : Text × Text :=
  match t.span isScalarChar with
  | (date, ' ' :: rest) =>
    let (time, after) := rest.span isScalarChar
    if isDate date && isTimeWithOffset time then (date ++ ' ' :: time, after)
      else (date, ' ' :: rest)
  | (written, rest) => (written, rest)

/-- The scalar at the start of a text, with the text after it. -/
def read? (t : Text) : Option (Text × Text) :=
  let (written, rest) := spanScalar t
  if isScalar written then some (written, rest) else none

end TomlScalar

end StrategyDialect
