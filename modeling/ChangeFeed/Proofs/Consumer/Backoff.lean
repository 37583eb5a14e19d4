import ChangeFeed.Consumer.Health
import ChangeFeed.Consumer.StopSignal
import Mathlib.Algebra.Group.Nat.Defs

/-!
# The wait after a failure

A consumer keeps the number of its failures since the last success in a counter of 32 bits, and the
wait that is due doubles with each of them up to the bound (`Health.nanos_backoff`). A stop signal
ends a wait early, and nothing else does: the wait lasts until it is over or the signal is up,
whichever is first (`StopSignal.waits_wait`).
-/

namespace ChangeFeed

namespace Health

/-- Noting a number of errors moves the counter and nothing else. -/
theorem recordErrors_eq (n : Nat) (health : Health) :
    health.recordErrors n = { health with errors := health.errors + UInt32.ofNat n } := by
  induction n generalizing health with
  | zero =>
    have hzero : health.errors + UInt32.ofNat 0 = health.errors := UInt32.add_zero _
    rw [hzero]
    rfl
  | succ n ih =>
    have hsucc : health.errors + 1 + UInt32.ofNat n = health.errors + UInt32.ofNat (n + 1) := by
      rw [UInt32.ofNat_add, UInt32.add_assoc, UInt32.add_comm 1]
      rfl
    show recordErrors n health.recordError.2 = _
    rw [ih]
    show { health with errors := health.errors + 1 + UInt32.ofNat n } = _
    rw [hsucc]

/-- The nanoseconds that are due after so many failures in a row: the least wait, doubled with each
failure behind the first, up to the bound. -/
def dueNanos (health : Health) (failures : Nat) : Nat :=
  min (health.minBackoff.nanos * 2 ^ min (failures - 1) 31) health.maxBackoff.nanos

/-- The wait is the one that is due after as many failures as the counter holds. -/
theorem nanos_backoff (health : Health) (h : health.minBackoff.nanos ≤ health.maxBackoff.nanos) :
    health.backoff.nanos = health.dueNanos health.errors.toNat := by
  unfold backoff dueNanos
  by_cases hzero : health.errors = 0
  · have hnone : health.errors.toNat = 0 := by rw [hzero]; rfl
    rw [if_pos hzero, hnone]
    show _ = min (health.minBackoff.nanos * 1) health.maxBackoff.nanos
    omega
  · rw [if_neg hzero]
    show (((health.minBackoff.mul? (2 ^ min (health.errors.toNat - 1) 31)).getD
      health.maxBackoff).shorter _).nanos = _
    generalize 2 ^ min (health.errors.toNat - 1) 31 = factor
    rw [Duration.nanos_shorter]
    unfold Duration.mul?
    split
    · rfl
    · -- A product that no duration can hold is longer than the bound.
      next hlong =>
      have hmax := health.maxBackoff.le_max
      unfold Duration.maxNanos at hlong
      show min health.maxBackoff.nanos health.maxBackoff.nanos = _
      omega

/-- The wait that is due depends on the limits and the counter only. -/
theorem nanos_backoff_of_limits {health health' : Health}
    (hleast : health'.minBackoff = health.minBackoff)
    (hbound : health'.maxBackoff = health.maxBackoff)
    (h : health.minBackoff.nanos ≤ health.maxBackoff.nanos) :
    health'.backoff.nanos = health.dueNanos health'.errors.toNat := by
  rw [← hleast, ← hbound] at h
  rw [health'.nanos_backoff h]
  unfold dueNanos
  rw [hleast, hbound]

/-- The bound of a consumer's waits is never below the least one. -/
theorem minBackoff_le_maxBackoff (worker prior : Nat) (least bound : Duration) (made : Int64) :
    ((withBackoff worker least bound made).recordErrors prior).minBackoff.nanos ≤
      ((withBackoff worker least bound made).recordErrors prior).maxBackoff.nanos := by
  rw [recordErrors_eq]
  show least.nanos ≤ (bound.longer least).nanos
  rw [Duration.nanos_longer]
  exact Nat.le_max_right _ _

end Health

/-- A wait of so many nanoseconds that begins when a number of polls have started and ends at the
first moment at which it is over or the signal is up. -/
structure StopSignal.Waits (signal : StopSignal) (polls start nanos finish : Nat) : Prop where
  start_le : start ≤ finish
  finish_le : finish ≤ start + nanos
  /-- Only the signal ends it early. -/
  ends : finish = start + nanos ∨ signal.isRaised finish polls = true
  /-- It goes on as long as the signal is down. -/
  down : ∀ time, start ≤ time → time < finish → signal.isRaised time polls = false

/-- A signal is down before the time and the poll at which it is raised. -/
theorem StopSignal.isRaised_eq_false {signal : StopSignal} {time polls : Nat} :
    signal.isRaised time polls = false ↔
      (∀ raised ∈ signal.raisedAt, time < raised) ∧
        signal.raisedAtPoll.any (· ≤ polls) = false := by
  unfold isRaised
  cases signal.raisedAt <;> simp

/-- The loop waits as long as the timer runs, unless the signal ends the wait. -/
theorem StopSignal.waits_wait (signal : StopSignal) (now polls : Nat) (d : Duration) :
    signal.Waits polls now (min d.nanos Duration.longestTimer.nanos)
      (now + (signal.wait now polls d).timer.nanos) := by
  unfold wait
  rw [← Duration.nanos_timer]
  by_cases hup : signal.isRaised now polls = true
  · rw [if_pos hup]
    have hnow : now + Duration.zero.timer.nanos = now := rfl
    rw [hnow]
    exact ⟨Nat.le_refl _, Nat.le_add_right _ _, .inr hup, fun time hle hlt => by omega⟩
  · rw [if_neg hup]
    rw [Bool.not_eq_true, isRaised_eq_false] at hup
    obtain ⟨hlater, hpolls⟩ := hup
    cases hat : signal.raisedAt with
    | none =>
      -- Without a time at which it is raised the signal stays down.
      refine ⟨Nat.le_add_right _ _, Nat.le_refl _, .inl rfl, fun time _ _ => ?_⟩
      refine isRaised_eq_false.2 ⟨fun raised hraised => ?_, hpolls⟩
      rw [hat] at hraised
      cases hraised
    | some raised =>
      have hraised := hlater raised hat
      have hnanos : ((d.shorter (.ofNanos (raised - now))).timer).nanos =
          min d.timer.nanos (raised - now) := by
        have hlongest : Duration.longestTimer.nanos ≤ Duration.maxNanos :=
          Duration.longestTimer.le_max
        rw [Duration.nanos_timer, Duration.nanos_shorter, Duration.nanos_timer,
          Duration.nanos_ofNanos]
        omega
      show signal.Waits polls now d.timer.nanos
        (now + (d.shorter (.ofNanos (raised - now))).timer.nanos)
      rw [hnanos]
      refine ⟨Nat.le_add_right _ _, by omega, ?_, fun time _ hlt => ?_⟩
      · by_cases hfirst : d.timer.nanos ≤ raised - now
        · left
          omega
        · right
          rw [Nat.min_eq_right (by omega), Nat.add_sub_cancel' (Nat.le_of_lt hraised)]
          unfold isRaised
          rw [hat]
          simp
      · refine isRaised_eq_false.2 ⟨fun other hother => ?_, hpolls⟩
        rw [hat] at hother
        cases hother
        omega

end ChangeFeed
