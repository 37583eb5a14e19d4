/-!
# Durations

A span of time in nanoseconds, up to a largest one, and its text in the largest unit that it fills.
-/

namespace ChangeFeed

/-- A span of time. -/
structure Duration where
  nanos : Nat
  le_max : nanos ≤ 18446744073709551615 * 1000000000 + 999999999
deriving DecidableEq

namespace Duration

/-- The number of nanoseconds of the longest duration. -/
def maxNanos : Nat :=
  18446744073709551615 * 1000000000 + 999999999

/-- A number of nanoseconds, cut off at the longest duration. -/
def ofNanos (n : Nat) : Duration :=
  ⟨min n maxNanos, Nat.min_le_right _ _⟩

/-- A number of milliseconds. -/
def ofMillis (n : Nat) : Duration :=
  ofNanos (n * 1000000)

/-- A number of seconds. -/
def ofSeconds (n : Nat) : Duration :=
  ofNanos (n * 1000000000)

/-- No time at all. -/
def zero : Duration :=
  ofNanos 0

/-- The whole milliseconds. -/
def millis (d : Duration) : Nat :=
  d.nanos / 1000000

/-- The whole seconds. -/
def wholeSeconds (d : Duration) : Nat :=
  d.nanos / 1000000000

/-- The whole milliseconds as a 64-bit word. -/
def millisWord (d : Duration) : UInt64 :=
  d.millis.toUInt64

/-- A multiple, unless it is longer than the longest duration. -/
def mul? (d : Duration) (k : Nat) : Option Duration :=
  if h : d.nanos * k ≤ maxNanos then some ⟨d.nanos * k, h⟩ else none

/-- The shorter one. -/
def shorter (a b : Duration) : Duration :=
  if a.nanos ≤ b.nanos then a else b

/-- The longer one. -/
def longer (a b : Duration) : Duration :=
  if a.nanos ≤ b.nanos then b else a

/-- The longest time that a timer runs for: thirty years. -/
def longestTimer : Duration :=
  ofSeconds (30 * 365 * 86400)

/-- How long a timer that is set to a duration runs. -/
def timer (d : Duration) : Duration :=
  d.shorter longestTimer

/-- A number of nanoseconds that is too large is cut off. -/
theorem nanos_ofNanos (n : Nat) : (ofNanos n).nanos = min n maxNanos :=
  rfl

/-- The shorter duration has the lesser number of nanoseconds. -/
theorem nanos_shorter (a b : Duration) : (a.shorter b).nanos = min a.nanos b.nanos := by
  unfold shorter
  split <;> omega

/-- The longer duration has the greater number of nanoseconds. -/
theorem nanos_longer (a b : Duration) : (a.longer b).nanos = max a.nanos b.nanos := by
  unfold longer
  split <;> omega

/-- A timer runs as long as it is set to, up to the longest time. -/
theorem nanos_timer (d : Duration) : d.timer.nanos = min d.nanos longestTimer.nanos :=
  nanos_shorter d longestTimer

/-- A count of units with the fraction that is left over, `width` digits of the unit below,
without trailing zeros. -/
def unitText (whole fraction width : Nat) (unit : String) : String :=
  let digits := Nat.toDigits 10 fraction
  let row := List.replicate (width - digits.length) '0' ++ digits
  let kept := (row.reverse.dropWhile (· = '0')).reverse
  let tail := if kept = [] then [] else '.' :: kept
  .ofList (Nat.toDigits 10 whole ++ tail ++ unit.toList)

/-- The text of a duration in seconds, milliseconds, microseconds or nanoseconds: the largest unit
of which there is at least one. -/
def text (d : Duration) : String :=
  if 1000000000 ≤ d.nanos then unitText (d.nanos / 1000000000) (d.nanos % 1000000000) 9 "s"
  else if 1000000 ≤ d.nanos then unitText (d.nanos / 1000000) (d.nanos % 1000000) 6 "ms"
  else if 1000 ≤ d.nanos then unitText (d.nanos / 1000) (d.nanos % 1000) 3 "µs"
  else unitText d.nanos 0 0 "ns"

end Duration

end ChangeFeed
