import ChangeFeed.Timeline.Limit

/-!
# Waiting for answers

A wait under a limit ends in one of two ways (`Timeline.await?_cases`): the answer comes in time and
brings its state and its lines with it, or the caller gives up at the limit. An answer that comes at
once is in time whatever the limit is (`Timeline.await?_of_immediate`).
-/

namespace ChangeFeed

variable {σ α ε : Type}

namespace Timeline

/-- Where a wait stands when the answer has come after a delay. -/
def answered (t : Timeline σ) (delay : Duration) (reply : Reply σ α) : Timeline σ :=
  { t.sleep delay with state := reply.after, journal := t.journal ++ reply.lines }

/-- Where a wait stands when the caller has given up. -/
def givenUp (t : Timeline σ) (limit : Duration) (reply : Reply σ α) : Timeline σ :=
  { t.sleep limit with state := reply.abandoned }

/-- A wait ends with the answer, after its delay and no later than the limit, or at the limit
without one. -/
theorem await?_cases (t : Timeline σ) (limit : Duration) (reply : Reply σ α) :
    (∃ delay, reply.delay = some delay ∧ delay.timer.nanos ≤ limit.timer.nanos ∧
      t.await? limit reply = (some reply.answer, t.answered delay reply)) ∨
    t.await? limit reply = (none, t.givenUp limit reply) := by
  unfold await?
  cases hd : reply.delay with
  | none => exact .inr rfl
  | some delay =>
    by_cases h : delay.timer.nanos ≤ limit.timer.nanos
    · exact .inl ⟨delay, rfl, h, by simp only [if_pos h]; rfl⟩
    · exact .inr (by simp only [if_neg h]; rfl)

/-- An answer that is given up would have come too late, if at all. -/
theorem lt_of_await?_eq_none {t : Timeline σ} {limit : Duration} {reply : Reply σ α}
    (h : (t.await? limit reply).1 = none) {delay : Duration} (hd : reply.delay = some delay) :
    limit.timer.nanos < delay.timer.nanos := by
  unfold await? at h
  rw [hd] at h
  refine Nat.lt_of_not_le fun hle => ?_
  dsimp only at h
  rw [if_pos hle] at h
  cases h

/-- No wait goes on behind its limit. -/
theorem now_await?_le (t : Timeline σ) (limit : Duration) (reply : Reply σ α) :
    (t.await? limit reply).2.now ≤ t.now + limit.timer.nanos := by
  rcases t.await?_cases limit reply with ⟨delay, -, hle, h⟩ | h
  · rw [h]
    exact Nat.add_le_add_left hle _
  · rw [h]
    exact Nat.le_refl _

/-- A timer that is set to no time at all has run out. -/
theorem nanos_timer_zero : Duration.zero.timer.nanos = 0 := by
  decide

/-- An answer that comes at once is never too late. -/
theorem await?_of_immediate (t : Timeline σ) (limit : Duration) (reply : Reply σ α)
    (h : reply.delay = some .zero) :
    t.await? limit reply = (some reply.answer, t.answered .zero reply) := by
  unfold await?
  rw [h]
  -- Even a limit of no time at all is not over before the answer is there.
  have hle : Duration.zero.timer.nanos ≤ limit.timer.nanos := by
    rw [nanos_timer_zero]
    exact Nat.zero_le _
  simp only [if_pos hle]
  rfl

/-- A call under a limit is a wait whose end is counted. -/
theorem withLimitResult_snd (t : Timeline σ) (limit : Duration) (reply : Reply σ (Except ε α)) :
    ∃ result, (t.withLimitResult limit reply).2 = (t.await? limit reply).2.countCall result := by
  unfold withLimitResult
  split
  · next h => exact ⟨.completed, by rw [h]⟩
  · next h => exact ⟨.failed, by rw [h]⟩
  · next h => exact ⟨.elapsed, by rw [h]⟩

end Timeline

end ChangeFeed
