/-!
# Wall clocks

The times of a timeline are counted from its start and only go up. A wall clock shows a date at each
of them. It may be put forward or back on the way, so nothing is said about how its readings follow
one another.
-/

namespace ChangeFeed

/-- What a wall clock shows at each time of a timeline. -/
structure WallClock where
  /-- The milliseconds since 1970 that it shows at a time in nanoseconds. -/
  reading : (now : Nat) → Int64

/-- A clock that goes with the timeline, at whose start it shows a date. -/
def WallClock.running (date : Int64) : WallClock :=
  ⟨fun now => date + Int64.ofNat (now / 1000000)⟩

end ChangeFeed
