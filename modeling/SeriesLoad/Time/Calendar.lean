import SeriesLoad.Text.Digits

/-!
# The proleptic Gregorian calendar

Days are counted from 1 January 1970 in both directions. `Date.ofEpochDay` names the day with a
given count and `Date.epochDay` counts a named day.

Both count years from March, so that a leap day ends its year, and in eras of 400 years, which have
146097 days each.
-/

namespace SeriesLoad

/-- A day of the calendar. Year 0 is the year before year 1. -/
structure Date where
  year : Int
  month : Nat
  day : Nat
deriving DecidableEq, Repr

namespace Date

/-- Every fourth year is a leap year, but of the full centuries only every fourth. -/
def isLeapYear (year : Int) : Bool := year % 4 == 0 && (year % 100 != 0 || year % 400 == 0)

/-- The number of days of a month, 0 if there is no such month. -/
def daysInMonth (year : Int) : Nat → Nat
  | 2 => if isLeapYear year then 29 else 28
  | 4 | 6 | 9 | 11 => 30
  | 1 | 3 | 5 | 7 | 8 | 10 | 12 => 31
  | _ => 0

/-- Whether the calendar has such a day. -/
def isValid (d : Date) : Bool := 1 ≤ d.day && d.day ≤ daysInMonth d.year d.month

/-- The days before a month in a year that starts in March; month 0 is March. -/
def daysBeforeMonth (m : Nat) : Nat := (153 * m + 2) / 5

/-- The count of a day. -/
def epochDay (d : Date) : Int :=
  let year := if d.month ≤ 2 then d.year - 1 else d.year
  let month := (d.month + 9) % 12
  let yearOfEra := year % 400
  let dayOfYear : Int := daysBeforeMonth month + d.day - 1
  year / 400 * 146097 + (yearOfEra * 365 + yearOfEra / 4 - yearOfEra / 100) + dayOfYear - 719468

/-- The day with a given count. -/
def ofEpochDay (n : Int) : Date :=
  let shifted := n + 719468
  let era := shifted / 146097
  let dayOfEra := (shifted % 146097).toNat
  let yearOfEra := (dayOfEra - dayOfEra / 1460 + dayOfEra / 36524 - dayOfEra / 146096) / 365
  let dayOfYear := dayOfEra - (365 * yearOfEra + yearOfEra / 4 - yearOfEra / 100)
  let month := (5 * dayOfYear + 2) / 153
  let january := 10 ≤ month
  { year := era * 400 + yearOfEra + (if january then 1 else 0)
    month := if january then month - 9 else month + 3
    day := dayOfYear - daysBeforeMonth month + 1 }

/-- A year has four digits, and a sign only if it is below 0 or above 9999. -/
def yearChars (year : Int) : List Char :=
  if 0 ≤ year ∧ year ≤ 9999 then Text.padded 4 year.toNat
  else (if year < 0 then '-' else '+') :: Text.padded 4 year.natAbs

/-- Year, month and day with dashes between them. -/
def chars (d : Date) : List Char :=
  yearChars d.year ++ '-' :: (Text.padded 2 d.month ++ '-' :: Text.padded 2 d.day)

/-- The text of a day. -/
def text (d : Date) : String := String.ofList d.chars

end Date

end SeriesLoad
