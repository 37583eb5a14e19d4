/-!
# The tally of calls and retries

How calls under a limit ended, and for every retried operation how it ended after how many
attempts.
-/

namespace ChangeFeed

/-- How a call under a limit ends. -/
inductive CallResult where
  | completed
  | failed
  | elapsed
deriving DecidableEq

/-- The name of a result. -/
def CallResult.name : CallResult → String
  | .completed => "completed"
  | .failed => "failed"
  | .elapsed => "elapsed"

/-- How a retried operation ends. -/
inductive Verdict where
  | success
  | permanent
  | exhausted
deriving DecidableEq

/-- The name of a verdict. -/
def Verdict.name : Verdict → String
  | .success => "success"
  | .permanent => "permanent"
  | .exhausted => "exhausted"

/-- The calls and the retried operations so far. -/
structure Tally where
  /-- The results of the calls, the oldest first. -/
  calls : List CallResult
  /-- The verdicts with the numbers of attempts, the oldest first. -/
  samples : List (Verdict × Nat)
deriving DecidableEq

namespace Tally

/-- Nothing yet. -/
def empty : Tally :=
  ⟨[], []⟩

/-- The number of calls with a result. -/
def callCount (tally : Tally) (result : CallResult) : Nat :=
  tally.calls.count result

/-- The attempts of the operations with a verdict. -/
def attempts (tally : Tally) (verdict : Verdict) : List Nat :=
  (tally.samples.filter (·.1 = verdict)).map (·.2)

/-- The upper bounds of the buckets that attempts are counted in. -/
def bucketBounds : List Nat :=
  [1, 2, 3, 5, 8, 13]

/-- For each bound, how many operations with a verdict took at most so many attempts. -/
def buckets (tally : Tally) (verdict : Verdict) : List Nat :=
  bucketBounds.map fun bound => (tally.attempts verdict).countP (· ≤ bound)

end Tally

end ChangeFeed
