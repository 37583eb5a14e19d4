import ChangeFeed.Retry.Policy
import ChangeFeed.Timeline.Basic

/-!
# Retrying an operation

`Retry.run` tries an operation until it succeeds, fails with an error that is not worth a retry, or
has used up its retries. Between attempts it waits as the policy says. The attempts are counted in
a 32-bit counter; with the largest number of retries that counter overflows before the retries are
used up. What follows on the overflow is not modelled: the loop ends there, with an outcome that
marks the place (`Failure.counterFull`).
-/

namespace ChangeFeed.Retry

/-- How a retried operation fails. -/
inductive Failure (ε : Type) where
  /-- The retries are used up. -/
  | exhausted (attempts : Nat) (last : ε)
  /-- The error is not worth a retry. -/
  | permanent (cause : ε)
  /-- The counter of attempts is full, and another attempt is due. This is no failure that is ever
  returned. It marks where the program counts one attempt too many: it panics there or, compiled
  without overflow checks, goes on with a counter that has wrapped around to zero. Neither is
  modelled, and there is nothing that the number and the wording given for it below, or the
  rejection that the engine makes of it, would be the counterpart of. -/
  | counterFull (last : ε)
deriving DecidableEq

namespace Failure

/-- The error of the last attempt. -/
def cause : Failure ε → ε
  | .exhausted _ e => e
  | .permanent e => e
  | .counterFull e => e

/-- The number of attempts that is reported; for a full counter only a stand-in. -/
def attempts : Failure ε → Nat
  | .exhausted n _ => n
  | .permanent _ => 1
  | .counterFull _ => maxCount

/-- The wording, given that of the cause; for a full counter only a stand-in. -/
def message (causeMessage : ε → String) : Failure ε → String
  | .exhausted n e => "gave up after " ++ toString n ++ " attempts: " ++ causeMessage e
  | .permanent e => "non-retryable failure: " ++ causeMessage e
  | .counterFull e => "attempt counter is full: " ++ causeMessage e

end Failure

/-- The wait before a retry, stretched by the next random factor where the policy asks for it. -/
def nextWait (policy : Policy) (retry : Nat) (t : Timeline σ) : Duration × Timeline σ :=
  let wait := policy.backoff retry
  if policy.jitter && wait ≠ .zero then
    match t.factors with
    | factor :: rest => (Policy.stretch wait factor, { t with factors := rest })
    | [] => (wait, t)
  else (wait, t)

/-- Reports a failed attempt and waits for the next one. -/
def pause (policy : Policy) (causeMessage : ε → String) (attempt : Nat) (e : ε)
    (t : Timeline σ) : Timeline σ :=
  let (wait, t) := nextWait policy attempt t
  (t.log .warn
    ("Retry attempt " ++ toString attempt ++ "/" ++ toString policy.maxRetries.toNat ++
      ", waiting " ++ wait.text)
    [("error", .text (causeMessage e))]).sleep wait

/-- Makes attempt number `attempt` and those after it; the counter has room for `room` more. -/
def loop (policy : Policy) (isRetryable : ε → Bool) (causeMessage : ε → String)
    (operation : Timeline σ → Except ε α × Timeline σ) :
    (room attempt : Nat) → Timeline σ → Except (Failure ε) α × Timeline σ
  | room, attempt, t =>
    match operation t with
    | (.ok a, t) => (.ok a, t.countAttempts .success attempt)
    | (.error e, t) =>
      if !isRetryable e then (.error (.permanent e), t.countAttempts .permanent attempt)
      else if policy.maxRetries.toNat < attempt then
        let t := t.log .warn "Retry budget exhausted"
          [("attempts", .whole attempt), ("error", .text (causeMessage e))]
        (.error (.exhausted attempt e), t.countAttempts .exhausted attempt)
      else
        let t := pause policy causeMessage attempt e t
        match room with
        | 0 => (.error (.counterFull e), t)
        | room + 1 => loop policy isRetryable causeMessage operation room (attempt + 1) t
termination_by structural room => room

/-- Retries an operation under a policy. -/
def run (policy : Policy) (isRetryable : ε → Bool) (causeMessage : ε → String)
    (operation : Timeline σ → Except ε α × Timeline σ) (t : Timeline σ) :
    Except (Failure ε) α × Timeline σ :=
  loop policy isRetryable causeMessage operation (maxCount - 1) 1 t

end ChangeFeed.Retry
