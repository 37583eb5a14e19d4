import Mathlib
import ChangeFeed.Proofs.Engine.Attempts
import ChangeFeed.Proofs.Retry.Schedule

/-!
# What a request adds to the metrics

The calls to a store are counted where their limit is watched, the attempts at an operation where it
is retried, the time that they took where it is observed, and the event where it is concluded. The
calls for an action are as many as its attempts, and of these the last alone may be completed
(`Engine.countsAttempts`). Behind them comes one sample and one duration (`Engine.gains_call`), and
the lookups that may follow are counted nowhere (`Engine.gains_verifyRecord`). So a request adds to
each of the metrics what its outcome says (`Engine.gains_serve`).

This is so for every request whose handling comes to its end (`Engine.Returns`). It does not where
the attempts go on until there is no number left for the next one, and that can only be if the
policy allows as many retries as there are numbers (`Engine.not_fillsCounter`). Then the calls are
counted, but no operation is (`Engine.unsampled_serve`).
-/

namespace ChangeFeed

variable {σ α : Type}

/-! ## What is counted -/

namespace Tally

/-- The number of calls, however they ended. -/
def callTotal (tally : Tally) : Nat :=
  tally.callCount .completed + tally.callCount .failed + tally.callCount .elapsed

/-- The number of retried operations, however they ended. -/
def operationTotal (tally : Tally) : Nat :=
  (tally.attempts .success).length + (tally.attempts .permanent).length +
    (tally.attempts .exhausted).length

/-- The attempts of all retried operations together. -/
def attemptTotal (tally : Tally) : Nat :=
  (tally.attempts .success).sum + (tally.attempts .permanent).sum +
    (tally.attempts .exhausted).sum

end Tally

/-- The number of durations that a recorder has observed, over all collections. -/
def Recorder.observations (recorder : Recorder) : Nat :=
  (recorder.durations.map fun entry => entry.2.values.length).sum

/-- The number of calls that write to a store: those that are no lookups. -/
def CallNote.countWrites (calls : List CallNote) : Nat :=
  calls.countP fun note => !note.call.isLookUp

/-- A call is counted under one result. -/
theorem Timeline.callTotal_countCall (t : Timeline σ) (result : CallResult) :
    (t.countCall result).tally.callTotal = t.tally.callTotal + 1 := by
  unfold Tally.callTotal Tally.callCount countCall
  simp only [List.count_append, List.count_singleton]
  cases result <;> simp +arith

/-- A duration is added to the histogram of one collection, or to a new one. -/
theorem Recorder.sum_addDuration (collection : String) (value : Binary64)
    (entries : List (String × Histogram)) :
    ((addDuration collection value entries).map fun entry => entry.2.values.length).sum =
      (entries.map fun entry => entry.2.values.length).sum + 1 := by
  induction entries with
  | nil => rfl
  | cons entry rest ih =>
    unfold addDuration
    split
    · simp only [List.map_cons, List.sum_cons, List.length_append, List.length_singleton]
      omega
    · simp only [List.map_cons, List.sum_cons, ih]
      omega

/-- An observed duration is one more. -/
theorem Recorder.observations_observe (recorder : Recorder) (collection : String)
    (elapsed : Duration) :
    (recorder.observe collection elapsed).observations = recorder.observations + 1 :=
  sum_addDuration ..

/-- A retried operation adds one sample of its attempts, under its verdict. -/
theorem Timeline.attempts_countAttempts (t : Timeline σ) (verdict other : Verdict)
    (attempts : Nat) :
    (t.countAttempts verdict attempts).tally.attempts other =
      t.tally.attempts other ++ if verdict = other then [attempts] else [] := by
  unfold Tally.attempts countAttempts
  dsimp only
  rw [List.filter_append, List.map_append, List.filter_singleton]
  by_cases h : verdict = other <;> simp [h]

/-- The attempts of all operations grow by those of one. -/
theorem Timeline.attemptTotal_countAttempts (t : Timeline σ) (verdict : Verdict) (attempts : Nat) :
    (t.countAttempts verdict attempts).tally.attemptTotal = t.tally.attemptTotal + attempts := by
  unfold Tally.attemptTotal
  simp only [attempts_countAttempts, List.sum_append]
  cases verdict <;> simp +arith

/-- An operation is counted under one verdict. -/
theorem Timeline.operationTotal_countAttempts (t : Timeline σ) (verdict : Verdict)
    (attempts : Nat) :
    (t.countAttempts verdict attempts).tally.operationTotal = t.tally.operationTotal + 1 := by
  unfold Tally.operationTotal
  simp only [attempts_countAttempts, List.length_append]
  cases verdict <;> simp +arith

/-- What is added to the metrics from one timeline to another: so many attempts at so many
operations, so many of which succeed. -/
structure Gains (attempts operations successes : Nat) (t t' : Timeline (Site σ)) : Prop where
  callTotal : t'.tally.callTotal = t.tally.callTotal + attempts
  countWrites : CallNote.countWrites t'.state.calls = CallNote.countWrites t.state.calls + attempts
  attemptTotal : t'.tally.attemptTotal = t.tally.attemptTotal + attempts
  operationTotal : t'.tally.operationTotal = t.tally.operationTotal + operations
  observations : t'.state.recorder.observations = t.state.recorder.observations + operations
  completed : t'.tally.callCount .completed = t.tally.callCount .completed + successes
  succeeded : (t'.tally.attempts .success).length =
    (t.tally.attempts .success).length + successes

/-- Nothing is added where nothing happens. -/
theorem Gains.none (t : Timeline (Site σ)) : Gains 0 0 0 t t :=
  ⟨rfl, rfl, rfl, rfl, rfl, rfl, rfl⟩

/-- What has been added stays the same while nothing is counted and nothing but lookups noted. -/
theorem Gains.of_same {attempts operations successes : Nat} {t t' t'' : Timeline (Site σ)}
    (h : Gains attempts operations successes t t') (htally : t''.tally = t'.tally)
    (hwrites : CallNote.countWrites t''.state.calls = CallNote.countWrites t'.state.calls)
    (hobservations : t''.state.recorder.observations = t'.state.recorder.observations) :
    Gains attempts operations successes t t'' where
  callTotal := by rw [htally, h.callTotal]
  countWrites := hwrites.trans h.countWrites
  attemptTotal := by rw [htally, h.attemptTotal]
  operationTotal := by rw [htally, h.operationTotal]
  observations := hobservations.trans h.observations
  completed := by rw [htally, h.completed]
  succeeded := by rw [htally, h.succeeded]

namespace Engine

/-! ## The calls of an action -/

variable {engine : Engine σ} {request : Timeline (Site σ) → Reply (Site σ) (Except StoreError α)}

/-- A single call is counted once, as completed if it is answered well. -/
theorem counts_callOnce (engine : Engine σ)
    (request : Timeline (Site σ) → Reply (Site σ) (Except StoreError α)) (t : Timeline (Site σ)) :
    (engine.callOnce request t).2.tally.callTotal = t.tally.callTotal + 1 ∧
      (engine.callOnce request t).2.tally.callCount .completed =
        t.tally.callCount .completed + (engine.callOnce request t).1.isOk.toNat ∧
      (engine.callOnce request t).2.tally.samples = t.tally.samples := by
  rcases engine.callOnce_cases request t with ⟨delay, a, -, -, h⟩ | ⟨delay, e, -, -, h⟩ | h
  · rw [h]
    exact ⟨Timeline.callTotal_countCall .., List.count_append, rfl⟩
  · rw [h]
    exact ⟨Timeline.callTotal_countCall .., List.count_append, rfl⟩
  · rw [h]
    exact ⟨Timeline.callTotal_countCall .., List.count_append, rfl⟩

/-- Calls that fail one after the other are counted, none of them as completed. -/
theorem counts_fails {attempt : Nat} {errors : List StoreError} {t t' : Timeline (Site σ)}
    (h : Retry.Fails engine.tuning.retry StoreError.isRetryable StoreError.message
      (engine.callOnce request) attempt errors t t') :
    t'.tally.callTotal = t.tally.callTotal + errors.length ∧
      t'.tally.callCount .completed = t.tally.callCount .completed ∧
      t'.tally.samples = t.tally.samples := by
  induction h with
  | none => exact ⟨rfl, rfl, rfl⟩
  | @more attempt e errors t t₁ t' failed _ _ _ ih =>
    obtain ⟨htotal, hcompleted, hsamples⟩ := engine.counts_callOnce request t
    rw [failed] at htotal hcompleted hsamples
    rw [Retry.pause_tally] at ih
    obtain ⟨ihtotal, ihcompleted, ihsamples⟩ := ih
    refine ⟨?_, ihcompleted.trans hcompleted, ihsamples.trans hsamples⟩
    rw [ihtotal, htotal, List.length_cons]
    omega

/-- The number of writes among calls behind others. -/
theorem countWrites_append (calls more : List CallNote) :
    CallNote.countWrites (calls ++ more) = CallNote.countWrites calls + CallNote.countWrites more :=
  List.countP_append

/-- Calls of an action are all writes. -/
theorem countWrites_of_call {action : Action} {notes : List CallNote}
    (h : ∀ note ∈ notes, note.call = action.call) : CallNote.countWrites notes = notes.length :=
  List.countP_eq_length.2 fun note hnote => by rw [h note hnote, action.isLookUp_call]; rfl

/-- A single call leaves the recorder alone. -/
theorem recorder_callOnce (engine : Engine σ) {call : StoreCall} {shown : α → CallEnd}
    {reply : Timeline (Site σ) → Reply σ (Except StoreError α)}
    (hcalls : Calls request call shown reply) (t : Timeline (Site σ)) :
    (engine.callOnce request t).2.state.recorder = t.state.recorder := by
  obtain ⟨result, h⟩ := engine.callOnce_snd request t
  rw [h, hcalls.noted]
  exact (await?_reply ..).1

/-- What some attempts at an action, the last of which has a result, add to the metrics. -/
structure CountsAttempts (attempts : Nat) (result : Except StoreError α)
    (t t' : Timeline (Site σ)) : Prop where
  callTotal : t'.tally.callTotal = t.tally.callTotal + attempts
  completed : t'.tally.callCount .completed = t.tally.callCount .completed + result.isOk.toNat
  samples : t'.tally.samples = t.tally.samples
  countWrites : CallNote.countWrites t'.state.calls = CallNote.countWrites t.state.calls + attempts
  recorder : t'.state.recorder = t.state.recorder

/-- Attempts are calls, of which only the last can be completed, and nothing else is counted before
all of them are made. -/
theorem countsAttempts {action : Action} {shown : α → CallEnd}
    {reply : Timeline (Site σ) → Reply σ (Except StoreError α)}
    (hcalls : Calls request action.call shown reply) {errors : List StoreError}
    {t t' : Timeline (Site σ)}
    (hfails : Retry.Fails engine.tuning.retry StoreError.isRetryable StoreError.message
      (engine.callOnce request) 1 errors t t') :
    CountsAttempts (errors.length + 1) (engine.callOnce request t').1 t
      (engine.callOnce request t').2 := by
  obtain ⟨hfailed, hcompleted, hsamples⟩ := counts_fails hfails
  obtain ⟨hlast, hlastCompleted, hlastSamples⟩ := engine.counts_callOnce request t'
  -- Every attempt has noted one call, and all of them are the call of the action.
  obtain ⟨failed, last, hnotes, hlength, hpass, hcall, -⟩ := engine.notes_of_fails hcalls hfails
  have hall : ∀ note ∈ failed ++ [last], note.call = action.call := fun note hnote => by
    rcases List.mem_append.1 hnote with hnote | hnote
    · exact (hpass note hnote).1
    · rw [List.mem_singleton.1 hnote]
      exact hcall
  refine ⟨by omega, by rw [hlastCompleted, hcompleted], hlastSamples.trans hsamples, ?_, ?_⟩
  · rw [hnotes, countWrites_append, countWrites_of_call hall, List.length_append, hlength,
      List.length_singleton]
  · rw [engine.recorder_callOnce hcalls]
    refine hfails.keeps Site.recorder fun {t e t'} failed _ => ?_
    have hrecorder := engine.recorder_callOnce hcalls t
    rwa [failed] at hrecorder

/-- Behind the last attempt at an action comes one sample, and the time that all of them took is
observed. -/
theorem CountsAttempts.gains {attempts : Nat} {result : Except StoreError α}
    {t t' t'' : Timeline (Site σ)} (h : CountsAttempts attempts result t t')
    (htally : t''.tally =
      (t'.countAttempts (Retry.verdict StoreError.isRetryable result) attempts).tally)
    (collection : String) (elapsed : Duration)
    (hstate : t''.state = t'.state.record (·.observe collection elapsed)) :
    Gains attempts 1 result.isOk.toNat t t'' := by
  have hattempts : ∀ verdict, t'.tally.attempts verdict = t.tally.attempts verdict :=
    fun verdict => by
      unfold Tally.attempts
      rw [h.samples]
  refine ⟨?_, ?_, ?_, ?_, ?_, ?_, ?_⟩
  · rw [htally]
    exact h.callTotal
  · rw [hstate]
    exact h.countWrites
  · rw [htally, Timeline.attemptTotal_countAttempts]
    simp only [Tally.attemptTotal, hattempts]
  · rw [htally, Timeline.operationTotal_countAttempts]
    simp only [Tally.operationTotal, hattempts]
  · rw [hstate]
    show (t'.state.recorder.observe _ _).observations = _
    rw [Recorder.observations_observe, h.recorder]
  · rw [htally]
    exact h.completed
  · rw [htally, Timeline.attempts_countAttempts, hattempts]
    cases result with
    | ok a => exact List.length_append
    | error e =>
      -- An error is counted under one of the other two verdicts.
      unfold Retry.verdict
      dsimp only
      split <;> rw [if_neg nofun, List.append_nil] <;> rfl

/-- The attempts at a request to the store go on until their counter is full. -/
def FillsCounter (engine : Engine σ)
    (request : Timeline (Site σ) → Reply (Site σ) (Except StoreError α)) (t : Timeline (Site σ)) :
    Prop :=
  ∃ e, (Retry.run engine.tuning.retry StoreError.isRetryable StoreError.message
    (engine.callOnce request) t).1 = .error (.counterFull e)

/-- Where the counter is full, the policy allows as many retries as it can hold, and as many
attempts have failed. Nothing else is counted of them. -/
theorem run_of_fillsCounter {t : Timeline (Site σ)} (h : engine.FillsCounter request t) :
    ∃ errors t', Retry.Fails engine.tuning.retry StoreError.isRetryable StoreError.message
        (engine.callOnce request) 1 errors t t' ∧
      errors.length + 1 = Retry.maxCount ∧
      engine.tuning.retry.maxRetries.toNat = Retry.maxCount ∧
      (Retry.run engine.tuning.retry StoreError.isRetryable StoreError.message
          (engine.callOnce request) t).2.tally = (engine.callOnce request t').2.tally := by
  obtain ⟨e, hfull⟩ := h
  obtain ⟨errors, t', hfails, -, hspent, hrun | ⟨hmany, e', he', hpass, hrun⟩⟩ := Retry.run_cases
    engine.tuning.retry StoreError.isRetryable StoreError.message (engine.callOnce request) t
  · rw [hrun] at hfull
    exact (Retry.conclude_fst_ne_counterFull _ _ _ _ _ _ hfull).elim
  · -- The last attempt fails with an error that may pass, so that all the attempts are made.
    have hword : engine.tuning.retry.maxRetries.toNat ≤ Retry.maxCount :=
      Nat.le_of_lt_succ (UInt32.toNat_lt _)
    have hallowed : engine.tuning.retry.maxAttempts =
        min (engine.tuning.retry.maxRetries.toNat + 1) Retry.maxCount := rfl
    have hcount := hspent e' he' hpass
    refine ⟨errors, t', hfails, by omega, by omega, ?_⟩
    rw [hrun, Retry.pause_tally]

/-- The counter has room for all the attempts that a policy allows, unless these are as many as it
can count. -/
theorem not_fillsCounter (bounded : engine.tuning.retry.maxRetries.toNat < Retry.maxCount)
    (request : Timeline (Site σ) → Reply (Site σ) (Except StoreError α)) (t : Timeline (Site σ)) :
    ¬engine.FillsCounter request t := by
  intro h
  obtain ⟨-, -, -, -, hfull, -⟩ := run_of_fillsCounter h
  omega

/-- The calls of an action are one operation of as many attempts as there were calls, unless they
fill the counter of attempts. -/
theorem gains_call {action : Action} {shown : α → CallEnd}
    {reply : Timeline (Site σ) → Reply σ (Except StoreError α)}
    (hcalls : Calls request action.call shown reply) {t : Timeline (Site σ)}
    (hends : ¬engine.FillsCounter request t) :
    ∃ attempts, Gains attempts 1 (engine.call action request t).1.isOk.toNat t
      (engine.call action request t).2 := by
  -- The attempts are concluded behind the last of them, or else there is no number for a next one.
  obtain ⟨errors, t', hfails, -, -, hrun | ⟨-, e, -, -, hfull⟩⟩ := Retry.run_cases
    engine.tuning.retry StoreError.isRetryable StoreError.message (engine.callOnce request) t
  · obtain ⟨elapsed, hafter⟩ := engine.call_snd action request t
    rw [hrun] at hafter
    have hok : (engine.call action request t).1.isOk = (engine.callOnce request t').1.isOk := by
      rw [engine.call_fst, hrun, Retry.conclude_fst]
      cases (engine.callOnce request t').1 <;> rfl
    refine ⟨errors.length + 1, ?_⟩
    rw [hok, hafter]
    refine (countsAttempts hcalls hfails).gains (Retry.conclude_tally ..)
      action.kind.collection elapsed ?_
    exact congrArg (Site.record · (·.observe _ elapsed)) (Retry.conclude_state ..)
  · exact absurd ⟨e, congrArg Prod.fst hfull⟩ hends

/-- Calls that are counted while no operation is: as many as the counter of attempts can hold. -/
structure Unsampled (t t' : Timeline (Site σ)) : Prop where
  callTotal : t'.tally.callTotal = t.tally.callTotal + Retry.maxCount
  samples : t'.tally.samples = t.tally.samples

/-- The calls of an action that fill the counter of attempts are not counted as an operation. -/
theorem unsampled_call {t : Timeline (Site σ)} (hfull : engine.FillsCounter request t)
    (action : Action) :
    Unsampled t (engine.call action request t).2 ∧
      ∃ e, (engine.call action request t).1 = .error e := by
  obtain ⟨errors, t', hfails, hmany, -, htally⟩ := run_of_fillsCounter hfull
  obtain ⟨elapsed, hafter⟩ := engine.call_snd action request t
  obtain ⟨hfailed, -, hsamples⟩ := counts_fails hfails
  obtain ⟨hlast, -, hlastSamples⟩ := engine.counts_callOnce request t'
  -- To observe the time that the calls took does not change the tally.
  have hcall : (engine.call action request t).2.tally = (engine.callOnce request t').2.tally := by
    rw [hafter]
    exact htally
  obtain ⟨e, hfull⟩ := hfull
  refine ⟨⟨?_, ?_⟩, _, by rw [call_fst, hfull]; rfl⟩
  · rw [hcall, hlast, hfailed]
    omega
  · rw [hcall, hlastSamples, hsamples]

/-! ## Requests -/

/-- The calls of an action come to their end before the counter of attempts is full. -/
def Ends (engine : Engine σ) (t : Timeline (Site σ)) : Action → Prop
  | .upsert _ record => ¬engine.FillsCounter (engine.put record) t
  | .delete kind key => ¬engine.FillsCounter (engine.remove kind key) t

/-- Handling a request comes to its end: so do the calls of the action that is planned for it, if
there is one. -/
def Returns (engine : Engine σ) (request : Request) (t : Timeline (Site σ)) : Prop :=
  ∀ action, engine.Plans request action → engine.Ends t action

/-- Where the calls of an action fail, it is rejected on behalf of the store. -/
theorem reason_of_call {action : Action} {t : Timeline (Site σ)} {e : Rejection}
    (h : (engine.call action request t).1 = .error e) : e.reason = .apply := by
  rw [call_fst] at h
  generalize (Retry.run _ _ _ _ t).1 = result at h
  cases result with
  | ok a => cases h
  | error f =>
    cases h
    rfl

/-- Comparing the place of a record with its parent's adds nothing to the metrics. -/
theorem gains_verifyRecord {attempts operations successes : Nat} {t t' : Timeline (Site σ)}
    (h : Gains attempts operations successes t t') (engine : Engine σ) (record : Record) :
    Gains attempts operations successes t (engine.verifyRecord record t') := by
  have hlooks := engine.looks_verifyRecord record t'
  obtain ⟨lookUps, hcalls, hall⟩ := (Looks.inspects hlooks).calls
  refine h.of_same (Looks.tally hlooks) ?_ (congrArg _ (Looks.recorder hlooks))
  have hnone : CallNote.countWrites lookUps = 0 :=
    List.countP_eq_zero.2 fun note hnote => by rw [hall note hnote]; decide
  rw [hcalls, countWrites_append, hnone, Nat.add_zero]

/-- Performing an action is one operation, which is counted as a success if the action is carried
out. Otherwise the action is rejected on behalf of the store. -/
theorem gains_perform {action : Action} {t : Timeline (Site σ)} (hends : engine.Ends t action) :
    (∃ attempts, Gains attempts 1 (engine.perform action t).1.isOk.toNat t
      (engine.perform action t).2) ∧
    ∀ e, (engine.perform action t).1 = .error e → e.reason = .apply := by
  have applied : ∀ e, (.ok () : Except Rejection Unit) = .error e → e.reason = .apply := by
    rintro _ ⟨⟩
  have failed : ∀ {e : Rejection}, e.reason = .apply →
      ∀ e', (.error e : Except Rejection Unit) = .error e' → e'.reason = .apply := by
    rintro e hreason _ ⟨⟩
    exact hreason
  cases action with
  | upsert op record =>
    obtain ⟨attempts, hgains⟩ := gains_call (engine.calls_put op record) hends
    unfold perform
    dsimp only
    split
    · next h =>
      rw [h] at hgains
      exact ⟨⟨attempts, gains_verifyRecord hgains engine record⟩, applied⟩
    · next h =>
      rw [h] at hgains
      exact ⟨⟨attempts, hgains⟩, failed (reason_of_call (congrArg Prod.fst h))⟩
  | delete kind key =>
    obtain ⟨attempts, hgains⟩ := gains_call (engine.calls_remove kind key) hends
    unfold perform
    dsimp only
    split
    · next h =>
      rw [h] at hgains
      exact ⟨⟨attempts, hgains⟩, applied⟩
    · next h =>
      rw [h] at hgains
      exact ⟨⟨attempts, hgains.of_same rfl rfl rfl⟩, applied⟩
    · next h =>
      rw [h] at hgains
      exact ⟨⟨attempts, hgains⟩, failed (reason_of_call (congrArg Prod.fst h))⟩

/-- Performing an action whose calls fill the counter of attempts counts them, but no operation. -/
theorem unsampled_perform {action : Action} {t : Timeline (Site σ)} (h : ¬engine.Ends t action) :
    Unsampled t (engine.perform action t).2 := by
  cases action with
  | upsert op record =>
    -- The call has failed, so that no lookups come behind it.
    obtain ⟨hcounts, e, hfailed⟩ := unsampled_call (not_not.1 h) (.upsert op record)
    unfold perform
    dsimp only
    split
    · next hcall =>
      rw [hcall] at hfailed
      cases hfailed
    · next hcall =>
      rwa [hcall] at hcounts
  | delete kind key =>
    obtain ⟨hcounts, -⟩ := unsampled_call (not_not.1 h) (.delete kind key)
    unfold perform
    dsimp only
    split <;> next hcall =>
      rw [hcall] at hcounts
      exact ⟨hcounts.callTotal, hcounts.samples⟩

end Engine

/-- Counting events observes nothing. -/
theorem Recorder.observations_bumpAll (recorder : Recorder) (cells : List Cell) :
    (recorder.bumpAll cells).observations = recorder.observations := by
  unfold bumpAll
  induction cells generalizing recorder with
  | nil => rfl
  | cons cell rest ih =>
    rw [List.foldl_cons, ih]
    cases cell with
    | event count => cases count <;> rfl
    | rejection reason => cases reason <;> rfl

/-- Ending an event adds nothing to the metrics but its own cells. -/
theorem Gains.finish {attempts operations successes : Nat} {t t' : Timeline (Site σ)}
    (h : Gains attempts operations successes t t') (origin : Origin)
    (result : Except Rejection Action) :
    Gains attempts operations successes t (Engine.finish origin result t').2 :=
  h.of_same rfl rfl (Recorder.observations_bumpAll ..)

/-- The operations on behalf of an event with an outcome, and those of them that succeed. -/
structure Outcome.Counts (outcome : Outcome) (operations successes : Nat) : Prop where
  applied : successes = outcome.cells.count (.event .inserted) +
    outcome.cells.count (.event .updated) + outcome.cells.count (.event .deleted)
  tried : operations = successes + outcome.cells.count (.rejection .apply)

/-- An event that is rejected for another reason than the store is counted as no operation. -/
theorem Outcome.counts_of_reason {e : Rejection} (h : e.reason ≠ .apply) :
    (Outcome.rejected e).Counts 0 0 := by
  cases e with
  | apply => exact absurd rfl h
  | _ => exact ⟨rfl, rfl⟩

/-- An event that is applied is counted as an operation that succeeds, and one that is rejected on
behalf of the store as one that does not. -/
theorem Outcome.counts_ofResult (result : Except Rejection Action)
    (h : ∀ e, result = .error e → e.reason = .apply) :
    (ofResult result).Counts 1 result.isOk.toNat := by
  have happlied := (ofResult result).count_applied
  have hreason := (ofResult result).count_reason .apply
  cases result with
  | ok action => exact ⟨happlied.symm, by rw [hreason]; rfl⟩
  | error e =>
    have happly : (ofResult (.error e)).reason? = some .apply := congrArg some (h e rfl)
    rw [if_pos happly] at hreason
    exact ⟨happlied.symm, by rw [hreason]; rfl⟩

namespace Engine

/-- Handling a request that comes to its end adds to the metrics what its outcome says: an operation
if it is applied or rejected on behalf of the store, which is a success if it is applied. -/
theorem gains_serve {engine : Engine σ} {request : Request} {t : Timeline (Site σ)}
    (hreturns : engine.Returns request t) :
    ∃ attempts operations successes,
      Gains attempts operations successes t (engine.serve request t).2 ∧
      (engine.serve request t).1.Counts operations successes := by
  rcases engine.serve_eq_carryOut request t with
    ⟨message, e, -, hread, hserve⟩ | ⟨event, origin, hevent, hserve⟩
  · rw [hserve]
    exact ⟨0, 0, 0, (Gains.none t).finish _ _,
      Outcome.counts_of_reason (ChangeEvent.reason_of_ofMessage hread)⟩
  · rw [hserve]
    cases hplan : engine.router.plan event with
    | error e =>
      have htally : (reportUnrouted e t).tally = t.tally := by cases e <;> rfl
      have hstate : (reportUnrouted e t).state = t.state := by cases e <;> rfl
      have hsame : Gains 0 0 0 t (reportUnrouted e t) :=
        (Gains.none t).of_same htally (by rw [hstate]) (by rw [hstate])
      rw [carryOut_of_error hplan]
      exact ⟨0, 0, 0, hsame.finish _ _, Outcome.counts_of_reason (Router.reason_of_plan hplan)⟩
    | ok action =>
      obtain ⟨⟨attempts, hgains⟩, hreason⟩ := gains_perform (hreturns action ⟨event, hevent, hplan⟩)
      rw [carryOut_of_ok hplan]
      refine ⟨attempts, 1, _, hgains.finish _ _, ?_⟩
      cases hresult : (engine.perform action t).1 with
      | ok u =>
        refine Outcome.counts_ofResult (.ok action) ?_
        rintro _ ⟨⟩
      | error e =>
        refine Outcome.counts_ofResult (.error e) ?_
        rintro _ ⟨⟩
        exact hreason e hresult

/-- Where the calls for a request fill the counter of attempts, they are counted, and no operation
is. -/
theorem unsampled_serve {engine : Engine σ} {request : Request} {t : Timeline (Site σ)}
    (h : ¬engine.Returns request t) : Unsampled t (engine.serve request t).2 := by
  unfold Returns at h
  push Not at h
  obtain ⟨action, ⟨event, hevent, hplan⟩, hends⟩ := h
  rcases engine.serve_eq_carryOut request t with
    ⟨message, e, hrequest, hread, -⟩ | ⟨event', origin, hevent', hserve⟩
  · -- The request has an event, so that it is no message without one.
    have hnone : request.event? = none := by
      show request.event? = (Except.error e : Except Rejection ChangeEvent).toOption
      rw [hrequest, ← hread]
      rfl
    rw [hnone] at hevent
    cases hevent
  · obtain rfl : event = event' := Option.some.inj (hevent.symm.trans hevent')
    have hcounts := unsampled_perform hends
    rw [hserve, carryOut_of_ok hplan]
    exact ⟨hcounts.callTotal, hcounts.samples⟩

end Engine

end ChangeFeed
