import ChangeFeed.Proofs.Engine.Attempts
import ChangeFeed.Proofs.Engine.Comparison
import ChangeFeed.Proofs.Retry.Schedule
import ChangeFeed.Store.Faulty

/-!
# How long an event may take

A store may take any time for a call, or never answer it. The engine still comes to an outcome, and
in time: each attempt is over at the limit of a call, between two attempts there is one wait of the
policy, and the lookups behind a write share a single limit. An attempt with the wait before it is
priced once, and the chain of attempts adds the prices up (`Retry.Fails.now_le`).
`Engine.now_serve_le` states the sum for any request.
-/

namespace ChangeFeed

variable {σ α ε : Type}

namespace Retry

variable {policy : Policy} {isRetryable : ε → Bool} {causeMessage : ε → String}
  {operation : Timeline σ → Except ε α × Timeline σ}

/-- The waits before the first so many retries taken together, in nanoseconds, without a random
factor. -/
def Policy.waits (policy : Policy) : (retries : Nat) → Nat
  | 0 => 0
  | retries + 1 => policy.waits retries + (policy.backoff (retries + 1)).nanos

/-- More retries are no shorter wait. -/
theorem Policy.waits_le (policy : Policy) {m n : Nat} (h : m ≤ n) :
    policy.waits m ≤ policy.waits n := by
  induction h with
  | refl => exact Nat.le_refl _
  | step _ ih => exact Nat.le_trans ih (Nat.le_add_right _ _)

/-- Where no attempt takes longer than a limit, attempts that fail take no longer than the limit
each, with the waits of the policy behind them. -/
theorem Fails.now_le (plain : policy.jitter = false) {limit : Nat}
    (each : ∀ t, (operation t).2.now ≤ t.now + limit) (before : Nat) {errors : List ε}
    {t t' : Timeline σ}
    (h : Fails policy isRetryable causeMessage operation (before + 1) errors t t') :
    t'.now + policy.waits before ≤
      t.now + errors.length * limit + policy.waits (before + errors.length) := by
  -- The number of the first attempt grows from one failure to the next.
  generalize hk : before + 1 = k at h
  induction h generalizing before with
  | none => exact Nat.le_of_eq (by rw [List.length_nil, Nat.zero_mul]; rfl)
  | @more k e errors t t₁ t' failed _ _ _ ih =>
    subst hk
    have hattempt := each t
    rw [failed] at hattempt
    have hpause := pause_now plain causeMessage (before + 1) e t₁
    have hwait : policy.waits (before + 1) =
        policy.waits before + (policy.backoff (before + 1)).nanos := rfl
    have hrest := ih (before + 1) rfl
    rw [List.length_cons, Nat.add_mul, Nat.one_mul]
    rw [show before + (errors.length + 1) = before + 1 + errors.length by omega]
    dsimp only at hattempt
    omega

/-- Where no attempt takes longer than a limit, a run takes no longer than the limit for every
attempt that is allowed, and the waits between them. -/
theorem now_run_le (bounded : policy.maxRetries.toNat < maxCount) (plain : policy.jitter = false)
    (isRetryable : ε → Bool) (causeMessage : ε → String) {limit : Nat}
    (each : ∀ t, (operation t).2.now ≤ t.now + limit) (t : Timeline σ) :
    (run policy isRetryable causeMessage operation t).2.now ≤
      t.now + (policy.maxRetries.toNat + 1) * limit + policy.waits policy.maxRetries.toNat := by
  obtain ⟨errors, t', hfails, hlen, -, hrun⟩ :=
    run_eq_conclude bounded isRetryable causeMessage operation t
  have hbefore : t'.now + 0 ≤ t.now + errors.length * limit + policy.waits (0 + errors.length) :=
    Fails.now_le plain each 0 hfails
  have hlast := each t'
  have hlimits : errors.length * limit ≤ policy.maxRetries.toNat * limit :=
    Nat.mul_le_mul_right _ hlen
  have hwaits := policy.waits_le hlen
  rw [hrun, (conclude_timeline ..).1, Nat.add_mul, Nat.one_mul]
  rw [Nat.zero_add] at hbefore
  omega

end Retry

namespace Engine

/-- A single call is over at its limit. -/
theorem now_callOnce_le (engine : Engine σ)
    (request : Timeline (Site σ) → Reply (Site σ) (Except StoreError α)) (t : Timeline (Site σ)) :
    (engine.callOnce request t).2.now ≤ t.now + engine.tuning.storeTimeout.nanos := by
  have hlimit := engine.tuning.storeTimeout.nanos_timer_le
  obtain ⟨result, hcall⟩ := engine.callOnce_snd request t
  rw [hcall]
  exact Nat.le_trans (t.now_await?_le _ _) (Nat.add_le_add_left hlimit _)

/-- The longest that the calls of an action take: the limit for every attempt that is allowed, and
the waits between them. -/
def callSpan (engine : Engine σ) : Nat :=
  (engine.tuning.retry.maxRetries.toNat + 1) * engine.tuning.storeTimeout.nanos +
    engine.tuning.retry.waits engine.tuning.retry.maxRetries.toNat

/-- Whether an action is followed by a comparison: it writes a record with a parent, and the tuning
asks for it. -/
def compares (engine : Engine σ) : Action → Bool
  | .upsert _ record => engine.tuning.verifyAffinity && record.affinity.isSome
  | .delete .. => false

/-- A record that is compared with its parent takes no longer than a single call may, and any other
takes no time. -/
theorem now_verifyRecord_le (engine : Engine σ) (op : Operation) (record : Record)
    (t : Timeline (Site σ)) :
    (engine.verifyRecord record t).now ≤ t.now +
      if engine.compares (.upsert op record) then engine.tuning.storeTimeout.nanos else 0 := by
  unfold verifyRecord
  cases hparent : record.affinity with
  | none => exact Nat.le_add_right _ _
  | some parent =>
    cases hon : engine.tuning.verifyAffinity with
    | true =>
      have hcompares : engine.compares (.upsert op record) = true := by
        rw [compares, hon, hparent]
        rfl
      rw [if_pos hcompares]
      exact engine.now_verify_le _ parent t
    | false => exact Nat.le_add_right _ _

/-- Performing an action takes no longer than its calls, and the comparison behind them. -/
theorem now_perform_le {engine : Engine σ}
    (bounded : engine.tuning.retry.maxRetries.toNat < Retry.maxCount)
    (plain : engine.tuning.retry.jitter = false) (action : Action) (t : Timeline (Site σ)) :
    (engine.perform action t).2.now ≤ t.now + engine.callSpan +
      if engine.compares action then engine.tuning.storeTimeout.nanos else 0 := by
  -- To observe how long the calls took takes no time.
  have calls : ∀ {α} (request : Timeline (Site σ) → Reply (Site σ) (Except StoreError α)),
      (engine.call action request t).2.now ≤ t.now + engine.callSpan := by
    intro α request
    obtain ⟨elapsed, hcall⟩ := engine.call_snd action request t
    have hrun := Retry.now_run_le bounded plain StoreError.isRetryable StoreError.message
      (engine.now_callOnce_le request) t
    rw [hcall]
    show (Retry.run _ _ _ _ t).2.now ≤ _
    unfold callSpan
    omega
  cases action with
  | upsert op record =>
    have hcalls := calls (engine.put record)
    unfold perform
    dsimp only
    split
    · next _ t' h =>
      rw [h] at hcalls
      exact Nat.le_trans (engine.now_verifyRecord_le op record t') (Nat.add_le_add_right hcalls _)
    · next h =>
      rw [h] at hcalls
      exact Nat.le_trans hcalls (Nat.le_add_right _ _)
  | delete kind key =>
    have hcalls := calls (engine.remove kind key)
    unfold perform
    dsimp only
    split <;> next h =>
      rw [h] at hcalls
      exact Nat.le_trans hcalls (Nat.le_add_right _ _)

/-- Carrying out an event takes no longer than performing what is planned for it. -/
theorem now_carryOut_le {engine : Engine σ}
    (bounded : engine.tuning.retry.maxRetries.toNat < Retry.maxCount)
    (plain : engine.tuning.retry.jitter = false) (event : ChangeEvent) (t : Timeline (Site σ)) :
    (engine.carryOut event t).2.now ≤ t.now + engine.callSpan +
      if (engine.router.plan event).toOption.any engine.compares then
        engine.tuning.storeTimeout.nanos else 0 := by
  cases hplan : engine.router.plan event with
  | error e =>
    have hreport : (reportUnrouted e t).now = t.now := by cases e <;> rfl
    rw [carryOut_of_error hplan, hreport]
    omega
  | ok action =>
    rw [carryOut_of_ok hplan]
    exact now_perform_le bounded plain action t

/-- However long the store takes for its calls, and whatever it answers, a request comes to an
outcome, and in time: at the latest when every attempt that is allowed has run to the limit of a
call and the waits of the policy between them are over. If the request writes a record with a parent
and partitions are compared, one more limit is allowed, for both lookups together. -/
theorem now_serve_le {engine : Engine σ}
    (bounded : engine.tuning.retry.maxRetries.toNat < 2 ^ 32 - 1)
    (plain : engine.tuning.retry.jitter = false) (request : Request) (t : Timeline (Site σ)) :
    let retries := engine.tuning.retry.maxRetries.toNat
    let limit := engine.tuning.storeTimeout.nanos
    let (_, served) := engine.serve request t
    served.now ≤ t.now + (retries + 1) * limit + engine.tuning.retry.waits retries +
      if (engine.action? request).any engine.compares then limit else 0 := by
  intro retries limit
  have hspan : (retries + 1) * limit + engine.tuning.retry.waits retries = engine.callSpan := rfl
  dsimp only
  rw [Nat.add_assoc t.now, hspan]
  rcases engine.serve_eq_carryOut request t with
    ⟨message, e, -, -, h⟩ | ⟨event, origin, hevent, h⟩
  · -- A message without an event is rejected at once.
    rw [h]
    show t.now ≤ _
    omega
  · rw [h]
    show (engine.carryOut event t).2.now ≤ _
    unfold action?
    rw [hevent]
    exact now_carryOut_le bounded plain event t

/-- An order is written at the third attempt, and its place cannot be told: two puts and the first
lookup are never answered, and the third put is answered just in time. This takes all the time that
is allowed. -/
theorem now_serve_le_order :
    let limit := Duration.ofMillis 10
    let policy : Retry.Policy := ⟨2, .ofMillis 100, .ofMillis 150, .ofNat 2, false⟩
    let tuning : Tuning := ⟨policy, limit, true, .ofSeconds 1⟩
    let engine : Engine FaultyStore := ⟨.builtIn, FaultyStore.adapter, tuning⟩
    let never : Fault := ⟨none, .through⟩
    let faults : List Fault := [never, never, ⟨some limit, .through⟩]
    let t := Timeline.start (Site.new ⟨.new, faults, [], [never]⟩)
    let row : Json := .object [("id", .ofInt64 2), ("customer_id", .ofInt64 1)]
    let request := Request.event ⟨.insert, none, some row, "orders", none⟩
    let (outcome, served) := engine.serve request t
    (engine.tuning.retry.maxRetries.toNat < 2 ^ 32 - 1 ∧ engine.tuning.retry.jitter = false) ∧
      outcome = .applied .inserted .order 2 ∧
      served.now ≤ (2 + 1) * 10000000 + (100000000 + 150000000) + 10000000 ∧
      served.now = 290000000 := by
  intro limit policy tuning engine never faults t row request
  have hbounded : engine.tuning.retry.maxRetries.toNat < 2 ^ 32 - 1 := by decide +zetaReduce
  have hplain : engine.tuning.retry.jitter = false := rfl
  have hretries : engine.tuning.retry.maxRetries.toNat = 2 := by decide +zetaReduce
  have hlimit : engine.tuning.storeTimeout.nanos = 10000000 := by decide +zetaReduce
  have hwaits : engine.tuning.retry.waits 2 = 100000000 + 150000000 := by
    decide +kernel +zetaReduce
  have hcompares : (engine.action? request).any engine.compares = true := by
    decide +kernel +zetaReduce
  have hout : (engine.serve request t).1 = .applied .inserted .order 2 := by
    decide +kernel +zetaReduce
  have hnow : (engine.serve request t).2.now = 290000000 := by decide +kernel +zetaReduce
  have hstart : t.now = 0 := rfl
  -- From here on only these facts matter: nothing is run a second time.
  clear_value engine t request
  have h := now_serve_le hbounded hplain request t
  dsimp only at h ⊢
  rw [hretries, hlimit, hwaits, if_pos hcompares, hstart, Nat.zero_add] at h
  exact ⟨⟨hbounded, hplain⟩, hout, h, hnow⟩

end Engine

end ChangeFeed
