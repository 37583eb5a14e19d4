import ChangeFeed.Timeline.Basic

/-!
# Calls under a limit

A call that may fail has three ends: it completes, it fails, or its limit elapses. Each end is
counted.
-/

namespace ChangeFeed

/-- Why a call under a limit gave no value. -/
inductive LimitError (ε : Type) where
  | elapsed (limit : Duration)
  | failed (cause : ε)
deriving DecidableEq

/-- The wording, given that of the cause. -/
def LimitError.message (causeMessage : ε → String) : LimitError ε → String
  | .elapsed limit => "Operation timed out after " ++ limit.text
  | .failed cause => "Operation failed: " ++ causeMessage cause

namespace Timeline

/-- Runs a call that cannot fail by itself under a limit. -/
def withLimit (t : Timeline σ) (limit : Duration) (reply : Reply σ α) :
    Except (LimitError Empty) α × Timeline σ :=
  match t.await? limit reply with
  | (some a, t) => (.ok a, t.countCall .completed)
  | (none, t) => (.error (.elapsed limit), t.countCall .elapsed)

/-- Runs a call that may fail under a limit. -/
def withLimitResult (t : Timeline σ) (limit : Duration) (reply : Reply σ (Except ε α)) :
    Except (LimitError ε) α × Timeline σ :=
  match t.await? limit reply with
  | (some (.ok a), t) => (.ok a, t.countCall .completed)
  | (some (.error e), t) => (.error (.failed e), t.countCall .failed)
  | (none, t) => (.error (.elapsed limit), t.countCall .elapsed)

end Timeline

/-- The limit of a call for which none is given. -/
def defaultLimit : Duration :=
  .ofSeconds 30

end ChangeFeed
