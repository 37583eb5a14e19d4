import ChangeFeed.Engine.Basic
import ChangeFeed.Proofs.Timeline.Waiting

/-!
# Comparing a place with its parent's

To compare the partitions of a place and of its parent an engine makes two lookups, one behind the
other, and the second one has only what the first one leaves of their common limit. So either both
are answered within the limit, or at the end of it the engine gives up the one that it waits for
(`lookUp_cases`). A comparison is these lookups and at most one line about what they found
(`verify_eq_findings`).
-/

namespace ChangeFeed

variable {σ : Type}

/-- No timer runs for longer than it is set to. -/
theorem Duration.nanos_timer_le (d : Duration) : d.timer.nanos ≤ d.nanos := by
  rw [nanos_timer]
  exact Nat.min_le_left _ _

/-- A timer can be set to what is left of a timer's time. -/
theorem Duration.nanos_timer_left (d : Duration) (spent : Nat) :
    (ofNanos (d.timer.nanos - spent)).timer.nanos = d.timer.nanos - spent := by
  have hlongest : longestTimer.nanos ≤ maxNanos := longestTimer.le_max
  rw [nanos_timer, nanos_ofNanos, nanos_timer]
  omega

/-- A timer that is set to what another one runs for runs as long as that. -/
theorem Duration.nanos_timer_timer (d : Duration) : d.timer.timer.nanos = d.timer.nanos := by
  rw [nanos_timer, nanos_timer]
  omega

/-- The line about a place that is apart from its parent. -/
def violation (place parent : Affinity) (own expected : Nat) : Journal.Line :=
  ⟨.warn, "Colocation violated: child and parent are in different partitions",
    Engine.placementFields place parent ++
      [("child_partition", .whole own), ("parent_partition", .whole expected)]⟩

namespace Engine

/-- Both lookups of a comparison are answered, together within the limit; or the second one is given
up when the limit is over, or the first one is. -/
theorem lookUp_cases (engine : Engine σ) (place parent : Affinity) (t : Timeline (Site σ)) :
    let limit := engine.tuning.storeTimeout.timer
    let first := engine.partitionOf place t
    (∃ delay, first.delay = some delay ∧ delay.timer.nanos ≤ limit.nanos ∧
      let between := t.answered delay first
      let second := engine.partitionOf parent between
      (∃ delay', second.delay = some delay' ∧
        delay.timer.nanos + delay'.timer.nanos ≤ limit.nanos ∧
        engine.lookUp place parent t =
          (some (first.answer, second.answer), between.answered delay' second)) ∨
      ∃ left, delay.timer.nanos + left.timer.nanos = limit.nanos ∧
        (∀ delay', second.delay = some delay' →
          limit.nanos < delay.timer.nanos + delay'.timer.nanos) ∧
        engine.lookUp place parent t = (none, between.givenUp left second)) ∨
    (∀ delay, first.delay = some delay → limit.nanos < delay.timer.nanos) ∧
      engine.lookUp place parent t = (none, t.givenUp limit first) := by
  intro limit first
  have htimer : limit.timer.nanos = limit.nanos := Duration.nanos_timer_timer _
  rcases t.await?_cases limit first with ⟨delay, hdelay, hle, hfirst⟩ | hfirst
  · rw [htimer] at hle
    refine .inl ⟨delay, hdelay, hle, ?_⟩
    intro between second
    -- The second lookup is waited for as long as the first one has left.
    let left := Duration.ofNanos (limit.nanos - (between.now - t.now))
    have hleft : delay.timer.nanos + left.timer.nanos = limit.nanos := by
      have hspent : between.now - t.now = delay.timer.nanos := Nat.add_sub_cancel_left ..
      show delay.timer.nanos + (Duration.ofNanos _).timer.nanos = _
      rw [hspent, Duration.nanos_timer_left]
      exact Nat.add_sub_cancel' hle
    have second_wait : ∀ {expected? t'}, between.await? left second = (expected?, t') →
        engine.lookUp place parent t = (expected?.map (first.answer, ·), t') := by
      intro expected? t' hsecond
      unfold lookUp
      dsimp only
      split
      · next h => cases hfirst.symm.trans h
      · next h =>
        cases hfirst.symm.trans h
        split <;> next h' =>
          cases hsecond.symm.trans h'
          rfl
    rcases between.await?_cases left second with ⟨delay', hdelay', hle', hsecond⟩ | hsecond
    · exact .inl ⟨delay', hdelay', by omega, second_wait hsecond⟩
    · refine .inr ⟨left, hleft, fun delay' hdelay' => ?_, second_wait hsecond⟩
      have hlate := Timeline.lt_of_await?_eq_none (congrArg Prod.fst hsecond) hdelay'
      omega
  · refine .inr ⟨fun delay hdelay => ?_, ?_⟩
    · have hlate := Timeline.lt_of_await?_eq_none (congrArg Prod.fst hfirst) hdelay
      rwa [htimer] at hlate
    · unfold lookUp
      dsimp only
      rw [hfirst]

/-- The lines of a comparison about what its lookups found. -/
def findings (engine : Engine σ) (place parent : Affinity) :
    Option (Except StoreError Nat × Except StoreError Nat) → List Journal.Line
  | none =>
    [⟨.warn, "Affinity verification timed out", placementFields place parent ++
      [("timeout_ms", .whole engine.tuning.storeTimeout.millisWord.toNat)]⟩]
  | some (.ok own, .ok expected) =>
    if own = expected then [] else [violation place parent own expected]
  | some (.error e, _) => [skipped e]
  | some (_, .error e) => [skipped e]
where
  /-- The line about a comparison that failed. -/
  skipped (e : StoreError) : Journal.Line :=
    ⟨.debug, "Skipped affinity verification",
      place.kind.keyFields place.key ++ [("error", .text e.message)]⟩

/-- A comparison is two lookups with what is written about them. -/
theorem verify_eq_findings (engine : Engine σ) (place parent : Affinity)
    (t : Timeline (Site σ)) :
    engine.verify place parent t =
      let (found, t') := engine.lookUp place parent t
      { t' with journal := t'.journal ++ engine.findings place parent found } := by
  unfold verify findings
  dsimp only
  -- The branches differ in what the lookups found; only the last one leaves open what the first
  -- lookup gave, which was no error.
  split
  · next h => rw [h]; rfl
  · next own expected t' h =>
    rw [h]
    dsimp only
    split
    · rw [List.append_nil]
    · rfl
  · next h => rw [h]; rfl
  · next own e t' hown h =>
    rw [h]
    cases own with
    | ok own => rfl
    | error e => exact absurd rfl (hown e)

/-- A comparison takes no longer than a single call may. -/
theorem now_verify_le (engine : Engine σ) (place parent : Affinity) (t : Timeline (Site σ)) :
    (engine.verify place parent t).now ≤ t.now + engine.tuning.storeTimeout.nanos := by
  have hlimit := engine.tuning.storeTimeout.nanos_timer_le
  have htimer := Duration.nanos_timer_timer engine.tuning.storeTimeout
  rw [verify_eq_findings]
  dsimp only
  rcases engine.lookUp_cases place parent t with
    ⟨delay, -, hle, ⟨delay', -, hsum, h⟩ | ⟨left, hsum, -, h⟩⟩ | ⟨-, h⟩
  · rw [h]
    show t.now + delay.timer.nanos + delay'.timer.nanos ≤ _
    omega
  · rw [h]
    show t.now + delay.timer.nanos + left.timer.nanos ≤ _
    omega
  · rw [h]
    show t.now + engine.tuning.storeTimeout.timer.timer.nanos ≤ _
    omega

end Engine

end ChangeFeed
