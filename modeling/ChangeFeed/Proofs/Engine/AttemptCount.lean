import ChangeFeed.Proofs.Engine.Attempts
import ChangeFeed.Store.Faulty
import Mathlib.Algebra.Group.Nat.Defs

/-!
# The number of attempts that is reported

A failure is meant to report how many attempts were made before it was given up. It does so where
the retries are used up. Where the last attempt fails for good, the failure itself reports a single
attempt, however many were made before, although the number that is counted is the right one. A
rejection by the store takes its number from the failure (`reported_attempts`).
-/

namespace ChangeFeed

variable {σ τ α ε : Type}

namespace Engine

/-- Among the notes of an action's attempts and of lookups, the calls to change the store are the
attempts. -/
theorem Attempts.countP_calls {engine : Engine σ} {action : Action} {failed lookUps : List CallNote}
    {last : CallNote} {result : Except Rejection CallEnd}
    (h : engine.Attempts action failed last result)
    (hlook : ∀ note ∈ lookUps, note.call.isLookUp = true) :
    (failed ++ [last] ++ lookUps).countP (!·.call.isLookUp) = failed.length + 1 := by
  have hattempts : (failed ++ [last]).countP (!·.call.isLookUp) = (failed ++ [last]).length := by
    rw [List.countP_eq_length]
    intro note hnote
    rw [h.call_eq note hnote, Action.isLookUp_call]
    rfl
  have hlooks : lookUps.countP (!·.call.isLookUp) = 0 := by
    rw [List.countP_eq_zero]
    intro note hnote
    rw [hlook note hnote]
    decide
  rw [List.countP_append, hattempts, hlooks, List.length_append]
  rfl

/-- The number of attempts that a failure reports is the number of calls that were made, or one, if
the last error is not worth a retry; the number that is counted is always that of the calls. In the
same way a rejection by the store reports the calls that were made to change the store, or one. -/
theorem reported_attempts {policy : Retry.Policy}
    (bounded : policy.maxRetries.toNat < 2 ^ 32 - 1) :
    (∀ (isRetryable : ε → Bool) (causeMessage : ε → String)
        (operation : Timeline σ → Except ε α × Timeline σ) (t : Timeline (σ × List (Except ε α))),
      let (result, after) := Retry.run policy isRetryable causeMessage (Retry.noted operation) t
      ∃ results, after.state.2 = t.state.2 ++ results ∧
        (∃ verdict, after.tally.samples.getLast? = some (verdict, results.length)) ∧
        ∀ failure, result = .error failure →
          failure.attempts = if isRetryable failure.cause then results.length else 1) ∧
    ∀ (engine : Engine τ) (request : Request) (t : Timeline (Site τ)),
      engine.tuning.retry = policy →
      let (outcome, served) := engine.serve request t
      ∃ notes, served.state.calls = t.state.calls ++ notes ∧
        ∀ kind key op attempts cause, outcome = .rejected (.apply kind key op attempts cause) →
          attempts = if cause.isRetryable then notes.countP (!·.call.isLookUp) else 1 := by
  refine ⟨fun isRetryable causeMessage operation t => ?_, fun engine request t hpolicy => ?_⟩
  · obtain ⟨failed, last, hkept, -, hresult, verdict, hsample⟩ :=
      Retry.run_noted bounded isRetryable causeMessage operation t
    cases hrun : Retry.run policy isRetryable causeMessage (Retry.noted operation) t with
    | mk result after => ?_
    rw [hrun] at hkept hresult hsample
    dsimp only at hkept hresult hsample ⊢
    have hlen : (failed ++ [last]).length = failed.length + 1 := List.length_append
    refine ⟨failed ++ [last], hkept, ⟨verdict, by rw [hlen]; exact hsample⟩, fun failure hf => ?_⟩
    rw [hf] at hresult
    cases last with
    | ok a => cases hresult
    | error e =>
      cases hresult
      rw [Retry.attempts_failure, Retry.cause_failure, hlen]
  · have hcases := engine.serve_cases request t
    cases hserve : engine.serve request t with
    | mk outcome served => ?_
    rw [hserve] at hcases
    dsimp only at hcases ⊢
    rcases hcases with ⟨e, hreason, hout, hcalls, -⟩ | ⟨action, -, hout, hafter⟩
    · -- A request without an action is not rejected by the store.
      refine ⟨[], by rw [hcalls, List.append_nil], fun kind key op attempts cause h => ?_⟩
      rw [hout] at h
      cases h
      exact absurd rfl hreason
    · subst hpolicy
      obtain ⟨failed, last, hcalls, hattempts⟩ := attempts_change bounded action t
      obtain ⟨lookUps, hlook, hall⟩ := hafter.calls
      refine ⟨failed ++ [last] ++ lookUps, by rw [hlook, hcalls, List.append_assoc],
        fun kind key op attempts cause h => ?_⟩
      rw [hout] at h
      cases hchange : (engine.change action t).1 with
      | ok ending =>
        rw [hchange] at h
        cases h
      | error e =>
        rw [hchange] at h hattempts
        obtain ⟨cause', rfl⟩ := (hattempts.error e rfl).2
        cases h
        rw [Retry.attempts_failure, hattempts.countP_calls hall]

/-- With a store that stays busy the retries are used up, and all four calls are reported. -/
theorem reported_attempts_busy :
    let fault : Fault := ⟨some .zero, .failed (.unavailable "busy")⟩
    let engine : Engine FaultyStore := ⟨.builtIn, FaultyStore.adapter, .default⟩
    let t := Timeline.start (Site.new ⟨.new, [fault, fault, fault, fault], [], []⟩)
    let event : ChangeEvent :=
      ⟨.insert, none, some (.object [("id", .ofInt64 1)]), "customers", none⟩
    let (outcome, served) := engine.serve (.event event) t
    outcome = .rejected (.apply .customer 1 .insert 4 (.unavailable "busy")) ∧
      ∃ notes, served.state.calls = t.state.calls ++ notes ∧
        4 = notes.countP (!·.call.isLookUp) := by
  intro fault engine t event
  have hout : (engine.serve (.event event) t).1 =
      .rejected (.apply .customer 1 .insert 4 (.unavailable "busy")) := by
    decide +kernel +zetaReduce
  have hbounded : engine.tuning.retry.maxRetries.toNat < 2 ^ 32 - 1 := by decide +zetaReduce
  clear_value engine t event
  have h := (reported_attempts hbounded (σ := Unit) (α := Unit) (ε := Unit)).2 engine
    (.event event) t rfl
  cases hserve : engine.serve (.event event) t with
  | mk outcome served => ?_
  rw [hserve] at hout h
  dsimp only at hout h ⊢
  obtain ⟨notes, hnotes, hcount⟩ := h
  exact ⟨hout, notes, hnotes, hcount _ _ _ _ _ hout⟩

/-- A failure that may pass and then one that does not: the operation is called twice, and a single
attempt is reported. So it is with a rejection by a store that is busy and then refuses a call. -/
theorem reported_attempts_mixed :
    (let operation (t : Timeline Nat) : Except String Unit × Timeline Nat :=
        (.error (if t.state = 0 then "flaky" else "fatal"), t.update (· + 1))
      let run := Retry.run .default (· ≠ "fatal") id (Retry.noted operation) (.start (0, []))
      let failure := Retry.Failure.permanent "fatal"
      run.1 = .error failure ∧ failure.attempts = 1 ∧ run.2.state.2.length = 2) ∧
    let faults : List Fault :=
      [⟨some .zero, .failed (.unavailable "busy")⟩, ⟨some .zero, .refused⟩]
    let engine : Engine FaultyStore := ⟨.builtIn, FaultyStore.adapter, .default⟩
    let event : ChangeEvent :=
      ⟨.insert, none, some (.object [("id", .ofInt64 1)]), "customers", none⟩
    let served := engine.serve (.event event) (.start (.new ⟨.new, faults, [], []⟩))
    served.1 = .rejected (.apply .customer 1 .insert 1 (.unknownCollection "customers")) ∧
      served.2.state.calls.countP (!·.call.isLookUp) = 2 := by
  constructor
  · decide +kernel
  · decide +kernel

end Engine

end ChangeFeed
