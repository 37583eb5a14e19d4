import ChangeFeed.Retry.Policy

/-!
# Tuning the engine
-/

namespace ChangeFeed

/-- How the engine calls the store and the log. -/
structure Tuning where
  /-- When to repeat a store call that failed. -/
  retry : Retry.Policy
  /-- The limit of a single store call; a call that exceeds it counts as failed. -/
  storeTimeout : Duration
  /-- Whether to compare the partitions of a record and its parent after it is written. -/
  verifyAffinity : Bool
  /-- How long a poll waits for a first message. -/
  pollTimeout : Duration
deriving DecidableEq

namespace Tuning

/-- The limit of a store call for which none is given. -/
def defaultStoreTimeout : Duration :=
  .ofSeconds 2

/-- The tuning used where none is given. -/
def default : Tuning :=
  ⟨.forStore, defaultStoreTimeout, true, .ofSeconds 1⟩

end Tuning

end ChangeFeed
