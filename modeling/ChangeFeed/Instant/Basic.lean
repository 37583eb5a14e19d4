import ChangeFeed.Instant.Calendar

/-!
# Instants

An instant is a day in UTC, a second of that day and nanoseconds. A leap second is second 59 with
more than a second of nanoseconds. `ClockReading` is what a text shows before an offset is applied.
-/

namespace ChangeFeed

/-- A point in time. -/
structure Instant where
  /-- Days from 1970-01-01. -/
  day : Int
  /-- Seconds from midnight. -/
  second : Nat
  /-- Nanoseconds of the second; from 1000000000 on, of a leap second. -/
  nano : Nat
deriving DecidableEq

/-- A date and a time of day as written. -/
structure ClockReading where
  date : Date
  hour : Nat
  minute : Nat
  second : Nat
  nano : Nat
deriving DecidableEq

/-- Whether a day, counted from 1970-01-01, is one that an instant may fall on. -/
def isDayInRange (day : Int) : Bool :=
  Date.first.dayNumber ≤ day && day ≤ Date.last.dayNumber

/-- Whether the reading exists on a clock; second 60 is a leap second. -/
def ClockReading.isValid (r : ClockReading) : Bool :=
  r.date.isValid && isDayInRange r.date.dayNumber && r.hour < 24 && r.minute < 60 && r.second ≤ 60

namespace Instant

/-- The instant at which a clock `offset` seconds ahead of UTC shows the reading. -/
def ofReading? (r : ClockReading) (offset : Int) : Option Instant :=
  if !r.isValid then none
  else
    let leap := r.second = 60
    let second : Int := r.hour * 3600 + r.minute * 60 + (if leap then 59 else r.second) - offset
    let day := r.date.dayNumber + second / 86400
    if isDayInRange day then
      some ⟨day, (second % 86400).toNat, if leap then r.nano + 1000000000 else r.nano⟩
    else none

/-- Milliseconds from the epoch, rounded down; a leap second counts on from second 59. -/
def epochMillis (t : Instant) : Int :=
  (t.day * 86400 + t.second) * 1000 + (t.nano / 1000000 : Nat)

/-- The instant a number of milliseconds after the epoch. -/
def ofEpochMillis? (ms : Int) : Option Instant :=
  let second := ms / 1000
  let day := second / 86400
  if isDayInRange day then
    some ⟨day, (second % 86400).toNat, (ms % 1000).toNat * 1000000⟩
  else none

end Instant

end ChangeFeed
