import ChangeFeed.Retry.Loop

/-!
# Attempts

A retried operation is a chain of attempts. All of them but the last fail with an error that may
pass, and each of these is followed by a pause (`Retry.Fails`); the last one decides on the outcome
(`Retry.conclude`). `run_eq_conclude` shows that a run is always of this form, as long as the
counter of attempts has room for all the retries that the policy allows, and which attempt can be
the last. Without that the counter may be full instead (`run_cases`), but even then a run tells what
its last attempt told (`run_last`). What a single attempt does to the state can from there be
followed through a whole run, since a pause leaves the state alone; what holds of a timeline as a
whole is kept by a run if each of its steps keeps it (`loop_induct`). In particular an operation may
keep the results of its calls (`Retry.noted`); `run_noted` compares what it has kept with what the
run reports and counts.
-/

namespace ChangeFeed.Retry

variable {σ α β ε : Type} {policy : Policy} {isRetryable : ε → Bool} {causeMessage : ε → String}
  {operation : Timeline σ → Except ε α × Timeline σ}

/-- What every attempt keeps, every pause, and everything that is reported, attempts keep
together. -/
theorem loop_induct {P : Timeline σ → Prop} (each : ∀ t, P t → P (operation t).2)
    (paused : ∀ t n e, P t → P (pause policy causeMessage n e t))
    (reported : ∀ t (n : Nat) e, P t → P (t.log .warn "Retry budget exhausted"
      [("attempts", .whole n), ("error", .text (causeMessage e))]))
    (counted : ∀ t verdict n, P t → P (t.countAttempts verdict n)) (room attempt : Nat)
    {t : Timeline σ} (h : P t) :
    P (loop policy isRetryable causeMessage operation room attempt t).2 := by
  have next : ∀ {t r t'}, operation t = (r, t') → P t → P t' := by
    intro t r t' ho ht
    have := each t ht
    rwa [ho] at this
  -- The attempt succeeds, fails for good, is the last one, leaves no room to count another one, or
  -- is followed by another one after a pause.
  fun_induction loop policy isRetryable causeMessage operation room attempt t with
  | case1 _ _ _ _ _ ho => exact counted _ _ _ (next ho h)
  | case2 _ _ _ _ _ ho => exact counted _ _ _ (next ho h)
  | case3 _ _ _ _ _ ho => exact counted _ _ _ (reported _ _ _ (next ho h))
  | case4 _ _ _ _ ho => exact paused _ _ _ (next ho h)
  | case5 _ _ _ _ ho _ _ _ _ ih => exact ih (paused _ _ _ (next ho h))

/-- From the start of one attempt to the start of a later one, with the errors of those made
between: each may pass, is no reason to give up yet, and is followed by a pause. -/
inductive Fails (policy : Policy) (isRetryable : ε → Bool) (causeMessage : ε → String)
    (operation : Timeline σ → Except ε α × Timeline σ) :
    (attempt : Nat) → List ε → Timeline σ → Timeline σ → Prop
  | none {attempt t} : Fails policy isRetryable causeMessage operation attempt [] t t
  | more {attempt e errors t t' t''} (failed : operation t = (.error e, t'))
      (retryable : isRetryable e = true) (left : attempt ≤ policy.maxRetries.toNat)
      (rest : Fails policy isRetryable causeMessage operation (attempt + 1) errors
        (pause policy causeMessage attempt e t') t'') :
      Fails policy isRetryable causeMessage operation attempt (e :: errors) t t''

/-- The failure of an operation whose last attempt, with this number, ended with an error. -/
def failure (isRetryable : ε → Bool) (attempt : Nat) (e : ε) : Failure ε :=
  if isRetryable e then .exhausted attempt e else .permanent e

/-- What is left of a run after its last attempt, which has a number and ended with a result. -/
def conclude (isRetryable : ε → Bool) (causeMessage : ε → String) (attempt : Nat) :
    Except ε α → Timeline σ → Except (Failure ε) α × Timeline σ
  | .ok a, t => (.ok a, t.countAttempts .success attempt)
  | .error e, t =>
    if isRetryable e then
      (.error (failure isRetryable attempt e),
        (t.log .warn "Retry budget exhausted" [("attempts", .whole attempt),
          ("error", .text (causeMessage e))]).countAttempts .exhausted attempt)
    else (.error (failure isRetryable attempt e), t.countAttempts .permanent attempt)

/-- Attempts with numbers from `attempt` on fail until one of them succeeds, fails for good, or is
the last one that the policy allows. If the policy allows more attempts than can be counted, the
counter may be full before that. -/
theorem loop_cases (isRetryable : ε → Bool) (causeMessage : ε → String)
    (operation : Timeline σ → Except ε α × Timeline σ) {room attempt : Nat}
    (hroom : attempt + room = maxCount) (hleft : attempt ≤ policy.maxRetries.toNat + 1)
    (t : Timeline σ) :
    ∃ errors t', Fails policy isRetryable causeMessage operation attempt errors t t' ∧
      attempt + errors.length ≤ policy.maxAttempts ∧
      (∀ e, (operation t').1 = .error e → isRetryable e = true →
        attempt + errors.length = policy.maxAttempts) ∧
      (loop policy isRetryable causeMessage operation room attempt t =
          conclude isRetryable causeMessage (attempt + errors.length) (operation t').1
            (operation t').2 ∨
        maxCount ≤ policy.maxRetries.toNat ∧ ∃ e, (operation t').1 = .error e ∧
          isRetryable e = true ∧ loop policy isRetryable causeMessage operation room attempt t =
            (.error (.counterFull e),
              pause policy causeMessage (attempt + errors.length) e (operation t').2)) := by
  have hallowed : policy.maxAttempts = min (policy.maxRetries.toNat + 1) maxCount := rfl
  -- In every case but the last the first attempt is the one that decides.
  fun_induction loop policy isRetryable causeMessage operation room attempt t with
  | case1 room attempt t a t' ho =>
    refine ⟨[], t, .none, ?_, fun e he => ?_, .inl ?_⟩
    · rw [List.length_nil]
      omega
    · rw [ho] at he
      cases he
    · rw [ho]
      rfl
  | case2 room attempt t e t' ho hretry =>
    have hfinal : isRetryable e = false := by simpa using hretry
    refine ⟨[], t, .none, ?_, fun e' he hretry' => ?_, .inl ?_⟩
    · rw [List.length_nil]
      omega
    · rw [ho] at he
      cases he
      rw [hfinal] at hretry'
      cases hretry'
    · simp only [ho, conclude, failure, hfinal]
      rfl
  | case3 room attempt t e t' ho hretry hlast =>
    have hpass : isRetryable e = true := by simpa using hretry
    refine ⟨[], t, .none, ?_, fun _ _ _ => ?_, .inl ?_⟩
    · rw [List.length_nil]
      omega
    · rw [List.length_nil]
      omega
    · simp only [ho, conclude, failure, hpass]
      rfl
  | case4 attempt t e t' ho hretry hlast =>
    -- More attempts are allowed, but this one has the last number there is.
    have hpass : isRetryable e = true := by simpa using hretry
    refine ⟨[], t, .none, ?_, fun _ _ _ => ?_,
      .inr ⟨by omega, e, by rw [ho], hpass, by rw [ho]; rfl⟩⟩
    · rw [List.length_nil]
      omega
    · rw [List.length_nil]
      omega
  | case5 attempt t e t' ho hretry hlast room pause ih =>
    have hpass : isRetryable e = true := by simpa using hretry
    obtain ⟨errors, last, hfails, hlen, hend, hloop⟩ := ih (by omega) (by omega)
    have hcount : attempt + (e :: errors).length = attempt + 1 + errors.length := by
      rw [List.length_cons]
      omega
    refine ⟨e :: errors, last, .more ho hpass (by omega) hfails, ?_, ?_, ?_⟩
    · rw [hcount]
      exact hlen
    · rw [hcount]
      exact hend
    · rw [hcount]
      exact hloop

/-- A run is a chain of attempts that fail and one that decides, or after which the counter is full.
Where the last one fails with an error that may pass, the attempts are used up. -/
theorem run_cases (policy : Policy) (isRetryable : ε → Bool) (causeMessage : ε → String)
    (operation : Timeline σ → Except ε α × Timeline σ) (t : Timeline σ) :
    ∃ errors t', Fails policy isRetryable causeMessage operation 1 errors t t' ∧
      errors.length + 1 ≤ policy.maxAttempts ∧
      (∀ e, (operation t').1 = .error e → isRetryable e = true →
        errors.length + 1 = policy.maxAttempts) ∧
      (run policy isRetryable causeMessage operation t =
          conclude isRetryable causeMessage (errors.length + 1) (operation t').1
            (operation t').2 ∨
        maxCount ≤ policy.maxRetries.toNat ∧ ∃ e, (operation t').1 = .error e ∧
          isRetryable e = true ∧ run policy isRetryable causeMessage operation t =
            (.error (.counterFull e),
              pause policy causeMessage (errors.length + 1) e (operation t').2)) := by
  have hroom : 1 + (maxCount - 1) = maxCount := by decide
  obtain ⟨errors, t', h⟩ :=
    loop_cases isRetryable causeMessage operation hroom (Nat.le_add_left 1 _) t
  rw [Nat.add_comm 1] at h
  exact ⟨errors, t', h⟩

/-- A run is a chain of attempts that fail and one that decides, as long as all of them can be
counted. Where the last one fails with an error that may pass, the retries are used up. -/
theorem run_eq_conclude (bounded : policy.maxRetries.toNat < maxCount)
    (isRetryable : ε → Bool) (causeMessage : ε → String)
    (operation : Timeline σ → Except ε α × Timeline σ) (t : Timeline σ) :
    ∃ errors t', Fails policy isRetryable causeMessage operation 1 errors t t' ∧
      errors.length ≤ policy.maxRetries.toNat ∧
      (∀ e, (operation t').1 = .error e → isRetryable e = true →
        errors.length = policy.maxRetries.toNat) ∧
      run policy isRetryable causeMessage operation t =
        conclude isRetryable causeMessage (errors.length + 1) (operation t').1
          (operation t').2 := by
  have hallowed : policy.maxAttempts = policy.maxRetries.toNat + 1 :=
    Nat.min_eq_left (Nat.succ_le_of_lt bounded)
  obtain ⟨errors, t', hfails, hlen, hend, hrun⟩ :=
    run_cases policy isRetryable causeMessage operation t
  rw [hallowed] at hlen hend
  refine ⟨errors, t', hfails, Nat.le_of_succ_le_succ hlen,
    fun e he hpass => Nat.succ.inj (hend e he hpass), ?_⟩
  rcases hrun with hrun | ⟨hfull, -⟩
  · exact hrun
  · exact absurd bounded (Nat.not_lt_of_le hfull)

/-! ## What is reported -/

/-- The result of a run is that of its last attempt, with an error as its failure. -/
theorem conclude_fst (isRetryable : ε → Bool) (causeMessage : ε → String) (attempt : Nat)
    (result : Except ε α) (t : Timeline σ) :
    (conclude isRetryable causeMessage attempt result t).1 =
      result.mapError (failure isRetryable attempt) := by
  cases result with
  | ok a => rfl
  | error e =>
    simp only [conclude]
    split <;> rfl

/-- An attempt that decides on the outcome does not leave the counter full. -/
theorem conclude_fst_ne_counterFull (isRetryable : ε → Bool) (causeMessage : ε → String)
    (attempt : Nat) (result : Except ε α) (t : Timeline σ) (e : ε) :
    (conclude isRetryable causeMessage attempt result t).1 ≠ .error (.counterFull e) := by
  rw [conclude_fst]
  cases result with
  | ok a => nofun
  | error e' =>
    show Except.error (failure isRetryable attempt e') ≠ _
    unfold failure
    split <;> nofun

/-- The end of a run leaves the state of the last attempt. -/
theorem conclude_state (isRetryable : ε → Bool) (causeMessage : ε → String) (attempt : Nat)
    (result : Except ε α) (t : Timeline σ) :
    (conclude isRetryable causeMessage attempt result t).2.state = t.state := by
  cases result with
  | ok a => rfl
  | error e =>
    simp only [conclude]
    split <;> rfl

/-- The error of a failure is that of the last attempt. -/
theorem cause_failure (isRetryable : ε → Bool) (attempt : Nat) (e : ε) :
    (failure isRetryable attempt e).cause = e := by
  unfold failure
  split <;> rfl

/-- A failure reports the number of the last attempt where that failed with an error that may pass,
and one attempt otherwise. -/
theorem attempts_failure (isRetryable : ε → Bool) (attempt : Nat) (e : ε) :
    (failure isRetryable attempt e).attempts = if isRetryable e then attempt else 1 := by
  unfold failure
  split <;> rfl

/-- The end of a run counts the operation as retried, with the number of its last attempt. -/
theorem conclude_samples (isRetryable : ε → Bool) (causeMessage : ε → String) (attempt : Nat)
    (result : Except ε α) (t : Timeline σ) :
    ∃ verdict, (conclude isRetryable causeMessage attempt result t).2.tally.samples.getLast? =
      some (verdict, attempt) := by
  cases result with
  | ok a => exact ⟨.success, List.getLast?_concat⟩
  | error e =>
    simp only [conclude]
    split
    · exact ⟨.exhausted, List.getLast?_concat⟩
    · exact ⟨.permanent, List.getLast?_concat⟩

/-! ## What attempts do to the state -/

/-- A pause leaves the state alone. -/
theorem pause_state (policy : Policy) (causeMessage : ε → String) (attempt : Nat) (e : ε)
    (t : Timeline σ) : (pause policy causeMessage attempt e t).state = t.state := by
  -- A wait that is stretched takes a factor, which is no part of the state.
  have hwait : (nextWait policy attempt t).2.state = t.state := by
    unfold nextWait
    dsimp only
    split
    · split <;> rfl
    · rfl
  exact hwait

/-- A pause counts nothing. -/
theorem pause_tally (policy : Policy) (causeMessage : ε → String) (attempt : Nat) (e : ε)
    (t : Timeline σ) : (pause policy causeMessage attempt e t).tally = t.tally := by
  have hwait : (nextWait policy attempt t).2.tally = t.tally := by
    unfold nextWait
    dsimp only
    split
    · split <;> rfl
    · rfl
  exact hwait

/-- Whatever the policy allows, a run tells the result of its last attempt and leaves its state.
Where that attempt fails with an error that may pass, the attempts are used up. -/
theorem run_last (policy : Policy) (isRetryable : ε → Bool) (causeMessage : ε → String)
    (operation : Timeline σ → Except ε α × Timeline σ) (t : Timeline σ) :
    ∃ errors t', Fails policy isRetryable causeMessage operation 1 errors t t' ∧
      errors.length + 1 ≤ policy.maxAttempts ∧
      (∀ e, (operation t').1 = .error e → isRetryable e = true →
        errors.length + 1 = policy.maxAttempts) ∧
      (run policy isRetryable causeMessage operation t).1.mapError Failure.cause =
        (operation t').1 ∧
      (run policy isRetryable causeMessage operation t).2.state = (operation t').2.state := by
  obtain ⟨errors, t', hfails, hlen, hend, hrun | ⟨-, e, he, -, hrun⟩⟩ :=
    run_cases policy isRetryable causeMessage operation t
  · refine ⟨errors, t', hfails, hlen, hend, ?_, ?_⟩
    · rw [hrun, conclude_fst]
      cases (operation t').1 with
      | ok a => rfl
      | error e => exact congrArg Except.error (cause_failure ..)
    · rw [hrun, conclude_state]
  · refine ⟨errors, t', hfails, hlen, hend, ?_, ?_⟩
    · rw [hrun, he]
      rfl
    · rw [hrun]
      exact pause_state ..

/-- What every attempt that fails with an error that may pass leaves as it is, all of them do. -/
theorem Fails.keeps {attempt : Nat} {errors : List ε} {t t' : Timeline σ}
    (h : Fails policy isRetryable causeMessage operation attempt errors t t') (view : σ → β)
    (each : ∀ {t e t'}, operation t = (.error e, t') → isRetryable e = true →
      view t'.state = view t.state) : view t'.state = view t.state := by
  induction h with
  | none => rfl
  | more failed retryable _ _ ih => rw [ih, pause_state, each failed retryable]

/-- Attempts that each write one entry behind the others write as many as there are errors. -/
theorem Fails.writes {attempt : Nat} {errors : List ε} {t t' : Timeline σ}
    (h : Fails policy isRetryable causeMessage operation attempt errors t t') (view : σ → List β)
    (P : β → Prop)
    (each : ∀ {t e t'}, operation t = (.error e, t') → isRetryable e = true →
      ∃ entry, view t'.state = view t.state ++ [entry] ∧ P entry) :
    ∃ written, view t'.state = view t.state ++ written ∧ written.length = errors.length ∧
      ∀ entry ∈ written, P entry := by
  induction h with
  | none => exact ⟨[], (List.append_nil _).symm, rfl, fun _ hl => absurd hl List.not_mem_nil⟩
  | more failed retryable _ _ ih =>
    obtain ⟨entry, hentry, hP⟩ := each failed retryable
    obtain ⟨rest, hrest, hlen, hall⟩ := ih
    refine ⟨entry :: rest, ?_, ?_, fun other hl => ?_⟩
    · rw [hrest, pause_state, hentry, List.append_assoc, List.singleton_append]
    · rw [List.length_cons, List.length_cons, hlen]
    · rcases List.mem_cons.1 hl with rfl | hl
      · exact hP
      · exact hall other hl

/-! ## Operations that keep their results -/

/-- An operation that also keeps the results of its calls, the oldest first. -/
def noted (operation : Timeline σ → Except ε α × Timeline σ)
    (t : Timeline (σ × List (Except ε α))) : Except ε α × Timeline (σ × List (Except ε α)) :=
  let (result, t') := operation { t with state := t.state.1 }
  (result, { t' with state := (t'.state, t.state.2 ++ [result]) })

/-- A run of an operation that keeps its results leaves those of attempts that failed and may pass,
and behind them the one that the run ends with. Their number is counted. -/
theorem run_noted (bounded : policy.maxRetries.toNat < maxCount) (isRetryable : ε → Bool)
    (causeMessage : ε → String) (operation : Timeline σ → Except ε α × Timeline σ)
    (t : Timeline (σ × List (Except ε α))) :
    ∃ failed last,
      (run policy isRetryable causeMessage (noted operation) t).2.state.2 =
        t.state.2 ++ (failed ++ [last]) ∧
      (∀ r ∈ failed, ∃ e, r = .error e ∧ isRetryable e = true) ∧
      (run policy isRetryable causeMessage (noted operation) t).1 =
        last.mapError (failure isRetryable (failed.length + 1)) ∧
      ∃ verdict,
        (run policy isRetryable causeMessage (noted operation) t).2.tally.samples.getLast? =
          some (verdict, failed.length + 1) := by
  have hkept : ∀ t, (noted operation t).2.state.2 = t.state.2 ++ [(noted operation t).1] :=
    fun _ => rfl
  obtain ⟨errors, t', hfails, -, -, hrun⟩ :=
    run_eq_conclude bounded isRetryable causeMessage (noted operation) t
  obtain ⟨failed, hwritten, hcount, hall⟩ :=
    hfails.writes Prod.snd (fun r => ∃ e, r = .error e ∧ isRetryable e = true) (by
      intro t e t' ho hretry
      have hone := hkept t
      rw [ho] at hone
      exact ⟨.error e, hone, e, rfl, hretry⟩)
  rw [hrun, conclude_state, conclude_fst, ← hcount]
  refine ⟨failed, (noted operation t').1, ?_, hall, rfl, conclude_samples ..⟩
  rw [hkept, hwritten, List.append_assoc]

end ChangeFeed.Retry
