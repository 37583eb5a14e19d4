import ChangeFeed.Proofs.Retry.Attempts
import Mathlib.Algebra.Group.Nat.Defs
import Mathlib.Order.Bounds.Basic

/-!
# When attempts are made

`Retry.playing` is an operation whose attempts end as a script says, each after some time, and which
keeps the times that it was called at. A run of it makes the attempts up to the first one that
settles it (`Retry.Settles`): one that succeeds, one that fails with an error that is not worth a
retry, or the last one that the policy allows. `Retry.callTime` is when an attempt is due, which is
one wait of the policy behind the end of the attempt before it. `Retry.schedule_of_run` states that
a run keeps to this, returns the result of its last attempt and counts one sample.
-/

namespace ChangeFeed.Retry

variable {σ α ε : Type} {policy : Policy} {isRetryable : ε → Bool} {causeMessage : ε → String}

/-- An attempt as a script has it: its result, and the nanoseconds that it takes. -/
structure Attempt (ε α : Type) where
  result : Except ε α
  nanos : Nat

/-- The operation whose attempts, counted from one, are those of a script. It keeps the times that
it was called at, the oldest first. -/
def playing (script : Nat → Attempt ε α) (t : Timeline (List Nat)) :
    Except ε α × Timeline (List Nat) :=
  let attempt := script (t.state.length + 1)
  (attempt.result, { t with now := t.now + attempt.nanos, state := t.state ++ [t.now] })

/-- Whether nothing is tried behind an attempt: it succeeds, it fails with an error that is not
worth a retry, or it is the last one that is allowed. -/
def Settles (policy : Policy) (isRetryable : ε → Bool) (script : Nat → Attempt ε α)
    (attempt : Nat) : Prop :=
  (∃ a, (script attempt).result = .ok a) ∨
  (∃ e, (script attempt).result = .error e ∧ isRetryable e = false) ∨
  attempt = policy.maxRetries.toNat + 1

/-- When an attempt is due that has so many others before it. Each of them takes its time, and is
followed by the wait that the policy has for it, though by no more than thirty years. -/
def callTime (policy : Policy) (script : Nat → Attempt ε α) (start : Nat) : (before : Nat) → Nat
  | 0 => start
  | before + 1 =>
    callTime policy script start before + (script (before + 1)).nanos +
      min (policy.backoff (before + 1)).nanos Duration.longestTimer.nanos

/-- What a retried operation is counted as. -/
def verdict (isRetryable : ε → Bool) : Except ε α → Verdict
  | .ok _ => .success
  | .error e => if isRetryable e then .exhausted else .permanent

/-! ## Between attempts -/

/-- Where a run stands before the next attempt: it has made so many on time, and has counted
nothing yet. -/
structure OnTime (policy : Policy) (script : Nat → Attempt ε α) (start : Timeline (List Nat))
    (before : Nat) (t : Timeline (List Nat)) : Prop where
  now : t.now = callTime policy script start.now before
  calls : t.state = (List.range before).map (callTime policy script start.now)
  tally : t.tally = start.tally

/-- Without a random factor the wait before a retry is that of the policy. -/
theorem nextWait_of_not_jitter (plain : policy.jitter = false) (attempt : Nat) (t : Timeline σ) :
    nextWait policy attempt t = (policy.backoff attempt, t) := by
  simp only [nextWait, plain, Bool.false_and, Bool.false_eq_true, if_false]

/-- A pause takes as long as the wait of the policy, though no more than thirty years. -/
theorem pause_now (plain : policy.jitter = false) (causeMessage : ε → String) (attempt : Nat)
    (e : ε) (t : Timeline σ) :
    (pause policy causeMessage attempt e t).now =
      t.now + min (policy.backoff attempt).nanos Duration.longestTimer.nanos := by
  rw [← Duration.nanos_timer]
  unfold pause
  rw [nextWait_of_not_jitter plain]
  rfl

/-- Behind an attempt and the pause after it a run is on time for the next one. -/
theorem OnTime.pause {script : Nat → Attempt ε α} {start t : Timeline (List Nat)} {before : Nat}
    (h : OnTime policy script start before t) (plain : policy.jitter = false)
    (causeMessage : ε → String) (e : ε) :
    OnTime policy script start (before + 1)
      (Retry.pause policy causeMessage (before + 1) e (playing script t).2) := by
  have hlength : t.state.length = before := by
    rw [h.calls, List.length_map, List.length_range]
  refine ⟨?_, ?_, (pause_tally ..).trans h.tally⟩
  · rw [pause_now plain]
    show t.now + (script (t.state.length + 1)).nanos + _ = _
    rw [hlength, h.now]
    rfl
  · rw [pause_state]
    show t.state ++ [t.now] = _
    rw [h.calls, h.now, List.range_succ, List.map_append]
    rfl

/-- Attempts that fail one after the other keep a run on time, and none of them settles it. -/
theorem OnTime.fails {script : Nat → Attempt ε α} {start t t' : Timeline (List Nat)}
    {before : Nat} {errors : List ε} (h : OnTime policy script start before t)
    (plain : policy.jitter = false)
    (hfails : Fails policy isRetryable causeMessage (playing script) (before + 1) errors t t') :
    OnTime policy script start (before + errors.length) t' ∧
      ∀ attempt, before < attempt → attempt ≤ before + errors.length →
        ¬ Settles policy isRetryable script attempt := by
  generalize hk : before + 1 = k at hfails
  induction hfails generalizing before with
  | none => exact ⟨h, fun attempt hlow hhigh => absurd hhigh (Nat.not_le_of_lt hlow)⟩
  | @more k e errors t t₁ t' failed retryable left rest ih =>
    subst hk
    have hlength : t.state.length = before := by
      rw [h.calls, List.length_map, List.length_range]
    have hresult : (script (before + 1)).result = .error e := by
      have := congrArg Prod.fst failed
      rwa [playing, hlength] at this
    have hnext : OnTime policy script start (before + 1)
        (Retry.pause policy causeMessage (before + 1) e t₁) := by
      have := h.pause plain causeMessage e
      rwa [failed] at this
    obtain ⟨hlast, hrest⟩ := ih hnext rfl
    have hcount : before + 1 + errors.length = before + (e :: errors).length := by
      rw [List.length_cons]
      omega
    rw [hcount] at hlast hrest
    refine ⟨hlast, fun attempt hlow hhigh => ?_⟩
    rcases Nat.lt_or_ge (before + 1) attempt with hlater | hfirst
    · exact hrest attempt hlater hhigh
    · -- The first of them failed with an error that may pass, and there are retries left.
      obtain rfl : attempt = before + 1 := by omega
      rintro (⟨a, hok⟩ | ⟨e', herror, hfinal⟩ | hend)
      · rw [hresult] at hok
        cases hok
      · rw [hresult] at herror
        cases herror
        rw [retryable] at hfinal
        cases hfinal
      · omega

/-! ## A run -/

/-- The end of a run counts one sample, and no call. -/
theorem conclude_tally (isRetryable : ε → Bool) (causeMessage : ε → String) (attempt : Nat)
    (result : Except ε α) (t : Timeline σ) :
    (conclude isRetryable causeMessage attempt result t).2.tally =
      (t.countAttempts (verdict isRetryable result) attempt).tally := by
  cases result with
  | ok a => rfl
  | error e =>
    unfold conclude verdict
    dsimp only
    split <;> rfl

/-- The end of a run takes no time and counts one sample: the verdict on its last attempt, with the
number of that. -/
theorem conclude_timeline (isRetryable : ε → Bool) (causeMessage : ε → String) (attempt : Nat)
    (result : Except ε α) (t : Timeline σ) :
    (conclude isRetryable causeMessage attempt result t).2.now = t.now ∧
      (conclude isRetryable causeMessage attempt result t).2.tally.samples =
        t.tally.samples ++ [(verdict isRetryable result, attempt)] := by
  cases result with
  | ok a => exact ⟨rfl, rfl⟩
  | error e =>
    unfold conclude verdict
    dsimp only
    split <;> exact ⟨rfl, rfl⟩

/-- Whatever the results of its attempts are going to be, and however long they take, a run makes
the attempts up to the first one that settles it. The first is made at once, every other one as soon
as the wait of the policy is over since the end of the one before, or after thirty years if that is
sooner, and the run ends with its last attempt. It returns the result of that one; an error is
permanent if it is not worth a retry, also in the last attempt that is allowed, and the retries are
exhausted otherwise. One sample is counted, of as many attempts as there were. -/
theorem schedule_of_run (bounded : policy.maxRetries.toNat < maxCount)
    (plain : policy.jitter = false) (isRetryable : ε → Bool) (causeMessage : ε → String)
    (script : Nat → Attempt ε α) (t : Timeline σ) :
    let start : Timeline (List Nat) := { t with state := [] }
    let ran := run policy isRetryable causeMessage (playing script) start
    ∃ n, IsLeast {attempt | 1 ≤ attempt ∧ Settles policy isRetryable script attempt} n ∧
      ran.2.state = (List.range n).map (callTime policy script t.now) ∧
      ran.2.now = callTime policy script t.now (n - 1) + (script n).nanos ∧
      ran.1 = (script n).result.mapError (fun e =>
        if isRetryable e then .exhausted n e else .permanent e) ∧
      ran.2.tally.samples =
        t.tally.samples ++ [(verdict isRetryable (script n).result, n)] := by
  intro start ran
  obtain ⟨errors, t', hfails, hallowed, hlast, hrun⟩ :=
    run_eq_conclude bounded isRetryable causeMessage (playing script) start
  have hstart : OnTime policy script start 0 start := ⟨rfl, rfl, rfl⟩
  obtain ⟨honTime, hopen⟩ := hstart.fails plain hfails
  rw [Nat.zero_add] at honTime hopen
  change ran = _ at hrun
  -- What decides is attempt number `errors.length + 1`.
  have hlength : t'.state.length = errors.length := by
    rw [honTime.calls, List.length_map, List.length_range]
  have hresult : (playing script t').1 = (script (errors.length + 1)).result := by
    rw [playing, hlength]
  obtain ⟨hnow, hsamples⟩ := conclude_timeline isRetryable causeMessage (errors.length + 1)
    (playing script t').1 (playing script t').2
  refine ⟨errors.length + 1, ⟨⟨Nat.le_add_left 1 _, ?_⟩, fun attempt hattempt => ?_⟩,
    ?_, ?_, ?_, ?_⟩
  · cases hr : (script (errors.length + 1)).result with
    | ok a => exact .inl ⟨a, hr⟩
    | error e =>
      cases hpass : isRetryable e with
      | false => exact .inr (.inl ⟨e, hr, hpass⟩)
      | true => exact .inr (.inr (congrArg (· + 1) (hlast e (hresult.trans hr) hpass)))
  · by_contra hless
    exact hopen attempt hattempt.1 (by omega) hattempt.2
  · rw [hrun, conclude_state]
    show t'.state ++ [t'.now] = _
    rw [honTime.calls, honTime.now, List.range_succ, List.map_append]
    rfl
  · rw [hrun, hnow]
    show t'.now + (script (t'.state.length + 1)).nanos = _
    rw [honTime.now, hlength]
    rfl
  · rw [hrun, conclude_fst, hresult]
    rfl
  · rw [hrun, hsamples, hresult]
    show t'.tally.samples ++ _ = _
    rw [honTime.tally]

/-- The first two attempts fail with an error that may pass, and the third succeeds. -/
theorem schedule_of_run_third_time :
    let policy : Policy := ⟨3, .ofMillis 100, .ofMillis 150, .ofNat 2, false⟩
    let script (attempt : Nat) : Attempt String Nat :=
      if attempt ≤ 2 then ⟨.error "busy", 7⟩ else ⟨.ok attempt, 9⟩
    let ran := run policy (fun e => e = "busy") id (playing script) (.start [])
    (policy.maxRetries.toNat < maxCount ∧ policy.jitter = false) ∧
      IsLeast {attempt | 1 ≤ attempt ∧ Settles policy (fun e => e = "busy") script attempt} 3 ∧
      ran.2.state = [0, 100000007, 250000014] ∧ ran.2.now = 250000023 ∧
      ran.1 = .ok 3 ∧ ran.2.tally.samples = [(.success, 3)] := by
  intro policy script ran
  have bounded : policy.maxRetries.toNat < maxCount := by decide
  obtain ⟨n, hleast, hcalls, hnow, hresult, hsamples⟩ :=
    schedule_of_run bounded rfl (fun e => e = "busy") id script (.start ())
  have hthird : Settles policy (fun e => e = "busy") script 3 := .inl ⟨3, rfl⟩
  have hn : n = 3 := by
    refine Nat.le_antisymm (hleast.2 ⟨by decide, hthird⟩) (Nat.le_of_not_lt fun hlt => ?_)
    -- Neither of the first two attempts settles the run.
    have hfailed : (script n).result = .error "busy" := by
      show (if n ≤ 2 then _ else _ : Attempt String Nat).result = _
      rw [if_pos (by omega)]
    rcases hleast.1.2 with ⟨a, hok⟩ | ⟨e, herror, hfinal⟩ | hend
    · rw [hfailed] at hok
      cases hok
    · rw [hfailed] at herror
      cases herror
      exact absurd hfinal (by decide)
    · rw [hend] at hlt
      exact absurd hlt (by decide)
  subst hn
  exact ⟨⟨bounded, rfl⟩, hleast, hcalls.trans (by decide +kernel), hnow.trans (by decide +kernel),
    hresult, hsamples⟩

/-- Where the policy has a wait of more than thirty years the next attempt is made sooner: after
thirty years. -/
theorem callTimes_of_long_wait :
    let policy : Policy := ⟨1, .ofMillis (10 ^ 12), .ofMillis (10 ^ 12), .ofNat 2, false⟩
    let script (attempt : Nat) : Attempt String Nat :=
      if attempt = 1 then ⟨.error "busy", 0⟩ else ⟨.ok attempt, 0⟩
    let ran := run policy (fun _ => true) id (playing script) (.start [])
    ran.1 = .ok 2 ∧ ran.2.state = [0, 30 * 365 * 86400 * 10 ^ 9] ∧
      30 * 365 * 86400 * 10 ^ 9 < (policy.backoff 1).nanos := by
  decide +kernel

end ChangeFeed.Retry
