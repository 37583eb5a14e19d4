import ChangeFeed.Configuration.Reader
import ChangeFeed.Proofs.Retry.Attempts
import Mathlib.Algebra.Group.Nat.Defs
import Mathlib.Order.Basic

/-!
# The budget of a retried operation

A policy allows a number of attempts (`Policy.maxAttempts`), which is one more than its retries, as
far as attempts can be counted. A run never makes more of them, and makes all of them if every one
fails with an error that may pass (`Retry.run_spends`).

The retries are exhausted when the number of an attempt is larger than theirs
(`Retry.lt_of_exhausted`). With the largest number of retries there is no such number: the counter
is full when the last attempt that is allowed has failed, and the run is not ended by its budget
(`Retry.run_largest`).
-/

namespace ChangeFeed.Retry

variable {σ α ε : Type} {policy : Policy} {isRetryable : ε → Bool} {causeMessage : ε → String}
  {operation : Timeline σ → Except ε α × Timeline σ}

/-- Whether an attempt ended with an error that may pass. -/
def MayPass (isRetryable : ε → Bool) (result : Except ε α) : Prop :=
  ∃ e, result = .error e ∧ isRetryable e = true

/-- Retries are exhausted only by an attempt whose number is larger than theirs. -/
theorem lt_of_exhausted {room attempt attempts : Nat} {last : ε} {t : Timeline σ}
    (h : (loop policy isRetryable causeMessage operation room attempt t).1 =
      .error (.exhausted attempts last)) : policy.maxRetries.toNat < attempts := by
  fun_induction loop policy isRetryable causeMessage operation room attempt t with
  | case1 => cases h
  | case2 => cases h
  | case3 room attempt t e t' _ _ hlast =>
    cases h
    exact hlast
  | case4 => cases h
  | case5 _ _ _ _ _ _ _ _ _ ih => exact ih h

/-- A run ends behind a chain of attempts, no more than its policy allows. If the last one fails
with an error that may pass, all of them are made; then the retries are exhausted, unless there are
as many of them as a counter can hold: then the counter is full. -/
theorem run_ends (policy : Policy) (isRetryable : ε → Bool) (causeMessage : ε → String)
    (operation : Timeline σ → Except ε α × Timeline σ) (t : Timeline σ) :
    ∃ errors t', Fails policy isRetryable causeMessage operation 1 errors t t' ∧
      errors.length + 1 ≤ policy.maxAttempts ∧
      (run policy isRetryable causeMessage operation t).2.state = (operation t').2.state ∧
      ∀ e, (operation t').1 = .error e → isRetryable e = true →
        errors.length + 1 = policy.maxAttempts ∧
        (run policy isRetryable causeMessage operation t).1 =
          .error (if policy.maxRetries.toNat < maxCount then .exhausted policy.maxAttempts e
            else .counterFull e) := by
  obtain ⟨errors, t', hfails, hallowed, hlast, hrun⟩ :=
    run_cases policy isRetryable causeMessage operation t
  refine ⟨errors, t', hfails, hallowed, ?_, fun e he hpass => ?_⟩
  · rcases hrun with hrun | ⟨-, e, -, -, hrun⟩
    · rw [hrun, conclude_state]
    · rw [hrun, pause_state]
  · have hspent : errors.length + 1 = policy.maxAttempts := hlast e he hpass
    refine ⟨hspent, ?_⟩
    rcases hrun with hrun | ⟨hfull, e', he', -, hrun⟩
    · -- An attempt has exhausted the retries, so there is a number that is larger than theirs.
      have hresult : (run policy isRetryable causeMessage operation t).1 =
          .error (.exhausted policy.maxAttempts e) := by
        rw [hrun, conclude_fst, he, hspent]
        show Except.error (failure isRetryable policy.maxAttempts e) = _
        rw [failure, if_pos hpass]
      have hlarger : policy.maxRetries.toNat < policy.maxAttempts := lt_of_exhausted hresult
      have hcounted : policy.maxAttempts ≤ maxCount := Nat.min_le_right _ _
      rw [hresult, if_pos (by omega)]
    · obtain rfl : e' = e := by
        rw [he'] at he
        cases he
        rfl
      rw [hrun, if_neg (by omega)]

/-- With as many retries as a counter can hold, an operation that never does anything but fail with
an error that may pass fills the counter. -/
theorem counterFull_of_failing (full : policy.maxRetries.toNat = maxCount)
    (failing : ∀ t, ∃ e, (operation t).1 = .error e ∧ isRetryable e = true)
    (causeMessage : ε → String) (t : Timeline σ) :
    ∃ e, (run policy isRetryable causeMessage operation t).1 = .error (.counterFull e) := by
  obtain ⟨errors, t', -, -, -, hspent⟩ := run_ends policy isRetryable causeMessage operation t
  -- The last attempt fails as all of them do, and no number is larger than that of the retries.
  obtain ⟨e, he, hpass⟩ := failing t'
  have hresult := (hspent e he hpass).2
  rw [if_neg (by omega)] at hresult
  exact ⟨e, hresult⟩

/-- The results that an operation has kept behind a run are those of attempts, no more than its
policy allows. What comes of the last of them is said by `run_ends`. -/
theorem run_spends (policy : Policy) (isRetryable : ε → Bool) (causeMessage : ε → String)
    (operation : Timeline σ → Except ε α × Timeline σ) (t : Timeline (σ × List (Except ε α))) :
    ∃ failed last,
      (run policy isRetryable causeMessage (noted operation) t).2.state.2 =
        t.state.2 ++ (failed ++ [last]) ∧
      (∀ r ∈ failed ++ [last], ∃ t, r = (operation t).1) ∧
      failed.length + 1 ≤ policy.maxAttempts ∧
      ∀ e, last = .error e → isRetryable e = true →
        failed.length + 1 = policy.maxAttempts ∧
        (run policy isRetryable causeMessage (noted operation) t).1 =
          .error (if policy.maxRetries.toNat < maxCount then .exhausted policy.maxAttempts e
            else .counterFull e) := by
  obtain ⟨errors, t', hfails, hallowed, hstate, hspent⟩ :=
    run_ends policy isRetryable causeMessage (noted operation) t
  obtain ⟨failed, hwritten, hcount, hgiven⟩ :=
    hfails.writes Prod.snd (fun r => ∃ t, r = (operation t).1) (by
      intro t e t' ho _
      have hkept : (noted operation t).2.state.2 = t.state.2 ++ [(noted operation t).1] := rfl
      have hresult : (noted operation t).1 = (operation { t with state := t.state.1 }).1 := rfl
      rw [ho] at hkept hresult
      exact ⟨.error e, hkept, _, hresult⟩)
  rw [← hcount] at hallowed hspent
  refine ⟨failed, (noted operation t').1, ?_, fun r hr => ?_, hallowed, hspent⟩
  · rw [hstate]
    show t'.state.2 ++ [(noted operation t').1] = _
    rw [hwritten, List.append_assoc]
  · rcases List.mem_append.1 hr with hr | hr
    · exact hgiven r hr
    · rw [List.mem_singleton.1 hr]
      exact ⟨_, rfl⟩

/-- Whatever the number of retries is, a run makes no more attempts than are allowed: one more than
the retries, though at most `2 ^ 32 - 1`. If every attempt that it makes fails with an error that
may pass, it makes all of them, and it tells the last error. As long as there are fewer than
`2 ^ 32 - 1` retries it returns that they are exhausted after so many attempts. With `2 ^ 32 - 1`
retries it does not: the counter is full. -/
theorem budget_of_run (policy : Policy) (isRetryable : ε → Bool) (causeMessage : ε → String)
    (operation : Timeline σ → Except ε α × Timeline σ) (t : Timeline (σ × List (Except ε α))) :
    let (result, after) := run policy isRetryable causeMessage (noted operation) t
    policy.maxAttempts = min (policy.maxRetries.toNat + 1) (2 ^ 32 - 1) ∧
    ∃ results, after.state.2 = t.state.2 ++ results ∧
      results.length ≤ policy.maxAttempts ∧
      ((∀ r ∈ results, MayPass isRetryable r) →
        results.length = policy.maxAttempts ∧
        ∃ last, results.getLast? = some (.error last) ∧
          (policy.maxRetries.toNat < 2 ^ 32 - 1 →
            result = .error (.exhausted policy.maxAttempts last)) ∧
          (policy.maxRetries.toNat = 2 ^ 32 - 1 → result = .error (.counterFull last))) := by
  obtain ⟨failed, last, hkept, -, hallowed, hspent⟩ :=
    run_spends policy isRetryable causeMessage operation t
  cases hrun : run policy isRetryable causeMessage (noted operation) t with
  | mk result after => ?_
  rw [hrun] at hkept hspent
  dsimp only at hkept hspent ⊢
  have hlength : (failed ++ [last]).length = failed.length + 1 := List.length_append
  refine ⟨rfl, failed ++ [last], hkept, hlength.trans_le hallowed, fun hall => ?_⟩
  obtain ⟨e, rfl, hpass⟩ := hall last (List.mem_append_right _ List.mem_cons_self)
  obtain ⟨hnumber, hresult⟩ := hspent e rfl hpass
  refine ⟨hlength.trans hnumber, e, List.getLast?_concat, fun hfewer => ?_, fun hlargest => ?_⟩
  · have hbelow : policy.maxRetries.toNat < maxCount := hfewer
    rw [hresult, if_pos hbelow]
  · have hfull : ¬ policy.maxRetries.toNat < maxCount :=
      Nat.not_lt_of_le (Nat.le_of_eq hlargest.symm)
    rw [hresult, if_neg hfull]

/-- Two retries: three attempts are made. -/
example :
    let policy := { Policy.default with maxRetries := 2, jitter := false }
    let operation (t : Timeline Unit) : Except String Unit × Timeline Unit := (.error "busy", t)
    let (result, after) := run policy (fun _ => true) id (noted operation) (.start ((), []))
    result = .error (.exhausted 3 "busy") ∧ after.state.2.length = 3 :=
  ⟨rfl, rfl⟩

/-- With as many retries as a counter can hold, an operation that keeps failing with an error that
may pass is called as often as can be counted, and its retries are not exhausted by that: no number
that the counter can hold is larger than theirs. -/
theorem run_of_full (full : policy.maxRetries.toNat = maxCount) {e : ε}
    (mayPass : isRetryable e = true) (failing : ∀ t, (operation t).1 = .error e)
    (causeMessage : ε → String) (t : Timeline (σ × List (Except ε α))) :
    (run policy isRetryable causeMessage (noted operation) t).2.state.2.length =
        t.state.2.length + maxCount ∧
      (run policy isRetryable causeMessage (noted operation) t).1 = .error (.counterFull e) ∧
      ∀ attempt ≤ maxCount, ¬ policy.maxRetries.toNat < attempt := by
  obtain ⟨failed, last, hkept, hgiven, -, hspent⟩ :=
    run_spends policy isRetryable causeMessage operation t
  have hlast : last = .error e := by
    obtain ⟨t', hlast⟩ := hgiven last (List.mem_append_right _ List.mem_cons_self)
    rw [hlast, failing]
  obtain ⟨hnumber, hresult⟩ := hspent e hlast mayPass
  have hallowed : policy.maxAttempts = maxCount := by
    unfold Policy.maxAttempts
    omega
  refine ⟨?_, ?_, fun attempt hle => by omega⟩
  · rw [hkept, List.length_append, List.length_append, List.length_singleton, hnumber, hallowed]
  · rw [hresult, if_neg (by omega)]

/-- Settings with `2 ^ 32 - 1` retries are accepted. An operation that keeps failing with an error
that may pass is then called `2 ^ 32 - 1` times, which is all that is allowed, and still its retries
are not exhausted. -/
theorem run_largest :
    let c := { Configuration.default with retryMaxRetries := 4294967295 }
    let operation (t : Timeline Unit) : Except String Unit × Timeline Unit := (.error "busy", t)
    Configuration.ofPairs [("CDC_RETRY_MAX_RETRIES", "4294967295")] = .ok c ∧
      c.retryPolicy.maxAttempts = 2 ^ 32 - 1 ∧
      ∃ result after,
        run c.retryPolicy (fun _ => true) id (noted operation) (.start ((), [])) = (result, after) ∧
        after.state.2.length = 2 ^ 32 - 1 ∧ result = .error (.counterFull "busy") ∧
        ∀ attempt ≤ 2 ^ 32 - 1, ¬ c.retryPolicy.maxRetries.toNat < attempt := by
  intro c operation
  have haccepted : Configuration.ofPairs [("CDC_RETRY_MAX_RETRIES", "4294967295")] = .ok c := by
    decide +kernel
  have hretries : c.retryPolicy.maxRetries.toNat = maxCount := rfl
  have hallowed : c.retryPolicy.maxAttempts = 2 ^ 32 - 1 := rfl
  obtain ⟨hcalls, hresult, hnone⟩ := @run_of_full Unit Unit String c.retryPolicy (fun _ => true)
    operation hretries "busy" rfl (fun _ => rfl) id (.start ((), []))
  -- The run has more attempts than can be computed, so that it must not be unfolded.
  cases hrun : run c.retryPolicy (fun _ => true) id (noted operation) (.start ((), [])) with
  | mk result after => ?_
  rw [hrun] at hcalls hresult
  have hnothing : (Timeline.start ((), ([] : List (Except String Unit)))).state.2.length = 0 := rfl
  rw [hnothing, Nat.zero_add] at hcalls
  exact ⟨haccepted, hallowed, result, after, rfl, hcalls, hresult, hnone⟩

end ChangeFeed.Retry
