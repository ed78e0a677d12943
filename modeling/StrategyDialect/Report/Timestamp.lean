import StrategyDialect.Text.Basic

/-!
# Timestamps

A point of universal time, and its text in the Gregorian calendar, such as
`2024-02-29T12:00:00.500Z`.  The fraction has as many groups of three digits as it
takes to write it exactly, and is left out for a whole second.  The clock itself is no
part of this development: a report is given the time that it is made at.

## Main definitions

* `CivilDate.ofDays`: the date of a day counted from 1 January 1970
* `Timestamp.text`: the text of a point of time
-/

namespace StrategyDialect

/-- A date of the Gregorian calendar, carried on into all years before and after. -/
structure CivilDate where
  year : Int
  month : Nat
  day : Nat
deriving DecidableEq

namespace CivilDate

/-- The date that is a number of days after 1 January 1970.  Years are counted from 1
March here, so that a leap day comes last, and in eras of 400 years, which have 146097
days each. -/
def ofDays (days : Int) : CivilDate :=
  let shifted := days + 719468
  let era := shifted / 146097
  let dayOfEra := (shifted % 146097).toNat
  let yearOfEra :=
    (dayOfEra - dayOfEra / 1460 + dayOfEra / 36524 - dayOfEra / 146096) / 365
  let dayOfYear := dayOfEra - (365 * yearOfEra + yearOfEra / 4 - yearOfEra / 100)
  let monthFromMarch := (5 * dayOfYear + 2) / 153
  let month := if monthFromMarch < 10 then monthFromMarch + 3 else monthFromMarch - 9
  { year := yearOfEra + era * 400 + (if month ≤ 2 then 1 else 0)
    month := month
    day := dayOfYear - (153 * monthFromMarch + 2) / 5 + 1 }

/-- The text of a year: four digits, or a sign and at least four digits outside the
years 0 to 9999. -/
def yearText (year : Int) : Text :=
  let digits := Text.ofNatPadded 4 year.natAbs
  if year < 0 then '-' :: digits else if 9999 < year then '+' :: digits else digits

/-- The text of a date. -/
def text (d : CivilDate) : Text :=
  yearText d.year ++ ['-'] ++ Text.ofNatPadded 2 d.month ++ ['-']
    ++ Text.ofNatPadded 2 d.day

end CivilDate

/-- A point of time: seconds since the start of 1970, and nanoseconds on top.  A billion
nanoseconds or more stand for a leap second. -/
structure Timestamp where
  seconds : Int
  nanoseconds : Nat
deriving DecidableEq

namespace Timestamp

/-- The digits of a fraction of a second, in as few groups of three as show it exactly. -/
def fractionText (nanoseconds : Nat) : Text :=
  if nanoseconds = 0 then []
  else if nanoseconds % 1000000 = 0 then '.' :: Text.ofNatPadded 3 (nanoseconds / 1000000)
  else if nanoseconds % 1000 = 0 then '.' :: Text.ofNatPadded 6 (nanoseconds / 1000)
  else '.' :: Text.ofNatPadded 9 nanoseconds

/-- The text of a point of time. -/
def text (t : Timestamp) : Text :=
  let secondOfDay := (t.seconds % 86400).toNat
  let leap := t.nanoseconds / 1000000000
  (CivilDate.ofDays (t.seconds / 86400)).text
    ++ ['T'] ++ Text.ofNatPadded 2 (secondOfDay / 3600)
    ++ [':'] ++ Text.ofNatPadded 2 (secondOfDay / 60 % 60)
    ++ [':'] ++ Text.ofNatPadded 2 (secondOfDay % 60 + leap)
    ++ fractionText (t.nanoseconds % 1000000000) ++ ['Z']

end Timestamp

end StrategyDialect
