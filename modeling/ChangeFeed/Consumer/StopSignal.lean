import ChangeFeed.Duration

/-!
# Stop signals

A signal that tells a consumer to stop. It may be raised at a time or when a poll starts, and once
raised it stays raised.
-/

namespace ChangeFeed

/-- When a consumer is told to stop. -/
structure StopSignal where
  /-- The time, in nanoseconds. -/
  raisedAt : Option Nat
  /-- The number of the poll, counted from one; zero is before any poll. -/
  raisedAtPoll : Option Nat
deriving DecidableEq

namespace StopSignal

/-- A signal that is raised by a timer set at a time, or when a poll starts. -/
def ofTimer (now : Nat) (delay : Option Duration) (poll : Option Nat) : StopSignal :=
  ⟨delay.map fun d => now + d.timer.nanos, poll⟩

/-- Whether the signal is raised at a time, after a number of polls have started. -/
def isRaised (signal : StopSignal) (now polls : Nat) : Bool :=
  signal.raisedAt.any (· ≤ now) || signal.raisedAtPoll.any (· ≤ polls)

/-- The part of a wait that goes by before the signal ends it. -/
def wait (signal : StopSignal) (now polls : Nat) (d : Duration) : Duration :=
  if signal.isRaised now polls then .zero
  else
    match signal.raisedAt with
    | some time => d.shorter (.ofNanos (time - now))
    | none => d

end StopSignal

end ChangeFeed
