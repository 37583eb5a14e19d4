import ChangeFeed.Duration

/-!
# The health of a consumer

A consumer counts its errors since the last success, and keeps what the wall clock showed at that.
The wait after an error doubles from one error to the next, up to a bound. After a number of errors
the consumer counts as unhealthy, and before that as soon as it has errors and the last success is
too long ago.
-/

namespace ChangeFeed

/-- The health of the consumer that a worker runs. -/
structure Health where
  worker : Nat
  /-- Errors since the last success. -/
  errors : UInt32
  /-- What the wall clock showed at the last success, in milliseconds. -/
  lastSuccess : Int64
  minBackoff : Duration
  maxBackoff : Duration
deriving DecidableEq

/-- What an operator sees of a consumer's health. -/
structure HealthStatus where
  worker : Nat
  healthy : Bool
  consecutiveErrors : Nat
  millisSinceLastSuccess : Nat
  currentBackoffMillis : Nat
deriving DecidableEq

namespace Health

/-- From so many errors on a consumer is unhealthy. -/
def unhealthyThreshold : Nat :=
  5

/-- From so many errors on an error is critical. -/
def criticalThreshold : Nat :=
  10

/-- A consumer with errors is unhealthy when its last success is longer ago. -/
def longestFailing : Duration :=
  .ofSeconds 300

/-- A consumer with the given waits, made at a reading of the wall clock, which counts as its last
success; the bound is never below the least wait. -/
def withBackoff (worker : Nat) (minBackoff maxBackoff : Duration) (reading : Int64) : Health :=
  ⟨worker, 0, reading, minBackoff, maxBackoff.longer minBackoff⟩

/-- A consumer that waits from one second up to a minute. -/
def new (worker : Nat) (reading : Int64) : Health :=
  withBackoff worker (.ofSeconds 1) (.ofSeconds 60) reading

/-- Notes a success at a reading of the wall clock. -/
def recordSuccess (health : Health) (reading : Int64) : Health :=
  { health with errors := 0, lastSuccess := reading }

/-- Notes an error, and gives back how many there are with it since the last success. -/
def recordError (health : Health) : UInt32 × Health :=
  let errors := health.errors + 1
  (errors, { health with errors := errors })

/-- Notes a number of errors. -/
def recordErrors : Nat → Health → Health
  | 0, health => health
  | n + 1, health => recordErrors n health.recordError.2

/-- How long ago the last success is at a reading of the wall clock, in whole milliseconds; no time
at all if the clock was put back behind it. -/
def timeSinceSuccess (health : Health) (reading : Int64) : Duration :=
  .ofMillis (min (reading.toInt - health.lastSuccess.toInt) Int64.maxValue.toInt).toNat

/-- The wait after the errors so far. -/
def backoff (health : Health) : Duration :=
  if health.errors = 0 then health.minBackoff
  else
    let factor := Nat.pow 2 (min (health.errors.toNat - 1) 31)
    ((health.minBackoff.mul? factor).getD health.maxBackoff).shorter health.maxBackoff

/-- Whether there are few enough errors and, if there are any, the last success is not too long
ago. -/
def isHealthy (health : Health) (reading : Int64) : Bool :=
  if unhealthyThreshold ≤ health.errors.toNat then false
  else !(0 < health.errors && longestFailing.nanos < (health.timeSinceSuccess reading).nanos)

/-- The status of a consumer at a reading of the wall clock. -/
def status (health : Health) (reading : Int64) : HealthStatus where
  worker := health.worker
  healthy := health.isHealthy reading
  consecutiveErrors := health.errors.toNat
  millisSinceLastSuccess := (health.timeSinceSuccess reading).millisWord.toNat
  currentBackoffMillis := health.backoff.millisWord.toNat

end Health

end ChangeFeed
