import ChangeFeed.Instant.Basic

/-!
# Writing timestamps

The layout of RFC 3339 in UTC, with as many fraction digits, in threes, as the nanoseconds need. A
year outside 0 to 9999 has a sign; a leap second is written as second 60.
-/

namespace ChangeFeed

/-- The decimal digits of a number, with zeros in front up to `width`. -/
def padded (width n : Nat) : List Char :=
  let digits := Nat.toDigits 10 n
  List.replicate (width - digits.length) '0' ++ digits

namespace Instant

/-- A year. -/
def yearText (year : Int) : List Char :=
  if 0 ≤ year ∧ year ≤ 9999 then padded 4 year.toNat
  else (if year < 0 then '-' else '+') :: padded 4 year.natAbs

/-- The fraction of a second with its point, or nothing. -/
def fractionText (nano : Nat) : List Char :=
  if nano = 0 then []
  else if nano % 1000000 = 0 then '.' :: padded 3 (nano / 1000000)
  else if nano % 1000 = 0 then '.' :: padded 6 (nano / 1000)
  else '.' :: padded 9 nano

/-- The text of an instant. -/
def chars (t : Instant) : List Char :=
  let date := Date.ofDayNumber t.day
  let leap := 1000000000 ≤ t.nano
  let second := if leap then t.second % 60 + 1 else t.second % 60
  let nano := if leap then t.nano - 1000000000 else t.nano
  yearText date.year ++ '-' :: padded 2 date.month ++ '-' :: padded 2 date.day ++
    'T' :: padded 2 (t.second / 3600) ++ ':' :: padded 2 (t.second / 60 % 60) ++
    ':' :: padded 2 second ++ fractionText nano ++ ['Z']

/-- The text of an instant. -/
def text (t : Instant) : String :=
  .ofList t.chars

end Instant

end ChangeFeed
