import ChangeFeed.Binary64.Arithmetic
import ChangeFeed.Duration

/-!
# Retry policies

How often a failed operation is tried again and how long to wait before each retry. The wait grows
by a factor from retry to retry, in binary64 milliseconds, up to a bound.
-/

namespace ChangeFeed.Retry

/-- A retry policy. -/
structure Policy where
  /-- How often an operation is tried again. -/
  maxRetries : UInt32
  /-- The wait before the first retry. -/
  initialBackoff : Duration
  /-- The longest wait. -/
  maxBackoff : Duration
  /-- The factor from one wait to the next. -/
  multiplier : Binary64
  /-- Whether a random factor stretches or shortens every wait. -/
  jitter : Bool
deriving DecidableEq

/-- The largest count of attempts, which has 32 bits. -/
def maxCount : Nat :=
  4294967295

namespace Policy

/-- The policy used where none is given. -/
def default : Policy :=
  ⟨3, .ofMillis 100, .ofSeconds 10, .ofNat 2, true⟩

/-- The policy for store calls: every retry holds up the messages behind it, so it is short. -/
def forStore : Policy :=
  ⟨3, .ofMillis 50, .ofSeconds 1, .ofNat 2, true⟩

/-- The number of attempts, the first one included. -/
def maxAttempts (policy : Policy) : Nat :=
  min (policy.maxRetries.toNat + 1) maxCount

/-- The largest number of milliseconds, which has 64 bits. -/
def maxMillis : Nat :=
  18446744073709551615

/-- The wait before a retry, counted from one, without a random factor. -/
def backoff (policy : Policy) (retry : Nat) : Duration :=
  let millis := (Binary64.ofNat policy.initialBackoff.millis).mul
    (policy.multiplier.pow (min (retry - 1) 32))
  let capped := (millis.minNum (.ofNat policy.maxBackoff.millis)).maxNum .zero
  .ofMillis (capped.toNatClamped maxMillis)

/-- A wait stretched by a factor. -/
def stretch (wait : Duration) (factor : Binary64) : Duration :=
  .ofMillis (((Binary64.ofNat wait.millis).mul factor).toNatClamped maxMillis)

end Policy

end ChangeFeed.Retry
