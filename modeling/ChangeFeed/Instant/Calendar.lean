/-!
# The civil calendar

Dates of the Gregorian calendar, extended to all years, and their numbering in days from
1970-01-01. `dayNumber` counts the days of the whole years, of the whole months and of the month;
`dateOfDay` takes the same parts off again.
-/

namespace ChangeFeed

/-- A date of the calendar. -/
structure Date where
  year : Int
  month : Nat
  day : Nat
deriving DecidableEq

namespace Date

/-- Whether a year has a 29th of February. -/
def isLeapYear (year : Int) : Bool :=
  year % 4 = 0 && (year % 100 ≠ 0 || year % 400 = 0)

/-- The lengths of the months of a year. -/
def monthLengths (leap : Bool) : List Nat :=
  [31, if leap then 29 else 28, 31, 30, 31, 30, 31, 31, 30, 31, 30, 31]

/-- Whether the month and the day exist. -/
def isValid (d : Date) : Bool :=
  1 ≤ d.month && 1 ≤ d.day &&
    d.day ≤ (monthLengths (isLeapYear d.year)).getD (d.month - 1) 0

/-- The days between 0001-01-01 and the first day of a year. -/
def daysBeforeYear (year : Int) : Int :=
  let y := year - 1
  365 * y + y / 4 - y / 100 + y / 400

/-- The number of 1970-01-01 counted from 0001-01-01. -/
def epochOffset : Int :=
  719162

/-- The days of the months before a month. -/
def daysBeforeMonth (leap : Bool) (month : Nat) : Nat :=
  ((monthLengths leap).take (month - 1)).foldl (· + ·) 0

/-- The number of days from 1970-01-01 to a date. -/
def dayNumber (d : Date) : Int :=
  daysBeforeYear d.year + daysBeforeMonth (isLeapYear d.year) d.month + (d.day - 1) - epochOffset

/-- The year of a day counted from 0001-01-01, and the day within it, from zero. -/
def yearOfDay (n : Int) : Int × Nat :=
  let r400 := n % 146097
  let q100 := min (r400 / 36524) 3
  let r100 := r400 - 36524 * q100
  let q4 := r100 / 1461
  let r4 := r100 % 1461
  let q1 := min (r4 / 365) 3
  (400 * (n / 146097) + 100 * q100 + 4 * q4 + q1 + 1, (r4 - 365 * q1).toNat)

/-- Which month a day of the year falls into, and the day within it, both from zero. -/
def monthOfDay : List Nat → Nat → Nat × Nat
  | [], n => (0, n)
  | length :: rest, n =>
    if n < length then (0, n)
    else
      let (month, day) := monthOfDay rest (n - length)
      (month + 1, day)

/-- The date with a day number. -/
def ofDayNumber (n : Int) : Date :=
  let (year, dayOfYear) := yearOfDay (n + epochOffset)
  let (month, day) := monthOfDay (monthLengths (isLeapYear year)) dayOfYear
  ⟨year, month + 1, day + 1⟩

/-- The first day that an instant may fall on. -/
def first : Date :=
  ⟨-262143, 1, 1⟩

/-- The last day that an instant may fall on. -/
def last : Date :=
  ⟨262142, 12, 31⟩

end Date

end ChangeFeed
