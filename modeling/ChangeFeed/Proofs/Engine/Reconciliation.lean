import ChangeFeed.Configuration.Reader
import ChangeFeed.Proofs.Engine.Gains
import ChangeFeed.Proofs.Retry.Budget
import ChangeFeed.Store.Faulty

/-!
# The metrics agree with each other

The engines of a process share one tally of their calls and retried operations, and count their
events in recorders of which there may be several. Every request that is handled adds to all of
these alike (`Process.Handles.gains`), so that they agree for as long as every request that the
process was given is handled to its end (`Process.reconciles`).

A request is not where its calls fill the counter of attempts. With a store that is busy for good,
and as many retries as the counter can hold, this does happen (`Process.calls_without_sample`).
-/

namespace ChangeFeed

/-- The metrics of a process: the tally that its engines share, the calls that they have made to
their stores, and its recorders. -/
structure Process (ι : Type) where
  tally : Tally
  calls : List CallNote
  recorder : ι → Recorder

namespace Process

variable {ι : Type}

/-- A process that has not done anything. -/
def fresh : Process ι :=
  ⟨.empty, [], fun _ => .empty⟩

/-- What a cell holds in all recorders together. -/
def read [Fintype ι] (p : Process ι) (cell : Cell) : Nat :=
  ∑ i, (p.recorder i).read cell

/-- The durations that were observed by all recorders together. -/
def observations [Fintype ι] (p : Process ι) : Nat :=
  ∑ i, (p.recorder i).observations

/-- An engine of a process handles a request to its end and counts it in one of the recorders. The
store, the engine's tuning and the time may be any. Handling a request to its end is no matter of
course: `hreturns` says that its calls do not fill the counter of attempts. -/
inductive Handles [DecidableEq ι] : Process ι → Process ι → Prop
  | intro {σ : Type} {p} (engine : Engine σ) (i : ι) (request : Request) (t : Timeline (Site σ))
      (htally : t.tally = p.tally) (hcalls : t.state.calls = p.calls)
      (hrecorder : t.state.recorder = p.recorder i) (hreturns : engine.Returns request t) :
      Handles p
        ⟨(engine.serve request t).2.tally, (engine.serve request t).2.state.calls,
          Function.update p.recorder i (engine.serve request t).2.state.recorder⟩

/-- A process whose metrics agree with each other. -/
structure Balanced [Fintype ι] (p : Process ι) : Prop where
  calls : p.tally.callTotal = CallNote.countWrites p.calls
  attempts : CallNote.countWrites p.calls = p.tally.attemptTotal
  observed : p.tally.operationTotal = p.observations
  tried : p.tally.operationTotal = p.read (.event .inserted) + p.read (.event .updated) +
    p.read (.event .deleted) + p.read (.rejection .apply)
  completed : p.tally.callCount .completed = (p.tally.attempts .success).length
  applied : (p.tally.attempts .success).length =
    p.read (.event .inserted) + p.read (.event .updated) + p.read (.event .deleted)

/-- A sum over all recorders changes by what one of them changes. -/
theorem sum_update [Fintype ι] [DecidableEq ι] (f : Recorder → Nat) (recorder : ι → Recorder)
    (i : ι) (r : Recorder) :
    ∑ j, f (Function.update recorder i r j) + f (recorder i) = ∑ j, f (recorder j) + f r := by
  have hrest : ∑ j ∈ Finset.univ.erase i, f (Function.update recorder i r j) =
      ∑ j ∈ Finset.univ.erase i, f (recorder j) :=
    Finset.sum_congr rfl fun j hj => by rw [Function.update_of_ne (Finset.ne_of_mem_erase hj)]
  rw [← Finset.add_sum_erase _ _ (Finset.mem_univ i), hrest, Function.update_self,
    ← Finset.add_sum_erase _ (fun j => f (recorder j)) (Finset.mem_univ i)]
  omega

/-- The metrics of a fresh process agree. -/
theorem balanced_fresh [Fintype ι] : (fresh : Process ι).Balanced := by
  have hread : ∀ cell, (fresh : Process ι).read cell = 0 := fun cell =>
    Finset.sum_eq_zero fun _ _ => by
      cases cell with
      | event count => cases count <;> rfl
      | rejection reason => cases reason <;> rfl
  have hobservations : (fresh : Process ι).observations = 0 :=
    Finset.sum_eq_zero fun _ _ => rfl
  refine ⟨rfl, rfl, hobservations.symm, ?_, rfl, ?_⟩
  · rw [hread, hread, hread, hread]
    rfl
  · rw [hread, hread, hread]
    rfl

/-- What handling a request adds to the metrics of the process is what it adds where the engine is,
and the cells of the outcome. -/
theorem Handles.gains [Fintype ι] [DecidableEq ι] {p p' : Process ι} (step : Handles p p') :
    ∃ attempts operations successes, ∃ outcome : Outcome, outcome.Counts operations successes ∧
      p'.tally.callTotal = p.tally.callTotal + attempts ∧
      CallNote.countWrites p'.calls = CallNote.countWrites p.calls + attempts ∧
      p'.tally.attemptTotal = p.tally.attemptTotal + attempts ∧
      p'.tally.operationTotal = p.tally.operationTotal + operations ∧
      p'.observations = p.observations + operations ∧
      p'.tally.callCount .completed = p.tally.callCount .completed + successes ∧
      (p'.tally.attempts .success).length = (p.tally.attempts .success).length + successes ∧
      ∀ cell, p'.read cell = p.read cell + outcome.cells.count cell := by
  cases step with
  | intro engine i request t htally hcalls hrecorder hreturns =>
    -- Only the recorder `i` has changed, so that a sum over all of them changes by what it gains.
    obtain ⟨attempts, operations, successes, hgains, hcounts⟩ := Engine.gains_serve hreturns
    refine ⟨attempts, operations, successes, _, hcounts, htally ▸ hgains.callTotal,
      hcalls ▸ hgains.countWrites, htally ▸ hgains.attemptTotal, htally ▸ hgains.operationTotal,
      ?_, htally ▸ hgains.completed, htally ▸ hgains.succeeded, fun cell => ?_⟩
    · have hsum := sum_update (·.observations) p.recorder i
        (engine.serve request t).2.state.recorder
      have hown := hgains.observations
      rw [hrecorder] at hown
      unfold observations
      dsimp only at hsum ⊢
      omega
    · have hsum := sum_update (·.read cell) p.recorder i (engine.serve request t).2.state.recorder
      have hown := engine.read_serve request t cell
      rw [hrecorder] at hown
      unfold read
      dsimp only at hsum ⊢
      omega

/-- Handling a request keeps the metrics in agreement. -/
theorem Balanced.handles [Fintype ι] [DecidableEq ι] {p p' : Process ι} (h : p.Balanced)
    (step : Handles p p') : p'.Balanced := by
  obtain ⟨attempts, operations, successes, outcome, ⟨happlied, htried⟩, hcalls, hwrites, hattempts,
    hoperations, hobservations, hcompleted, hsucceeded, hread⟩ := step.gains
  refine ⟨?_, ?_, ?_, ?_, ?_, ?_⟩
  · rw [hcalls, hwrites, h.calls]
  · rw [hwrites, hattempts, h.attempts]
  · rw [hoperations, hobservations, h.observed]
  · have := h.tried
    simp only [hoperations, hread]
    omega
  · rw [hcompleted, hsucceeded, h.completed]
  · have := h.applied
    simp only [hsucceeded, hread]
    omega

/-- The metrics of a process that has handled all its requests to their end agree with each other.
Of the calls to stores that write, each is counted once under its result and is one attempt of a
retried operation. Each operation is counted once under its verdict, its time is observed once, and
its event is counted as applied or as rejected on behalf of the store. The operations that succeed
are those with a call that completes and those whose event is applied. To look up partitions adds to
none of this.

A request is handled to its end as long as the tuning allows fewer than `2 ^ 32 - 1` retries. With
as many it may also be that all of its `2 ^ 32 - 1` calls are counted and no operation is. -/
theorem reconciles [Fintype ι] [DecidableEq ι] {p : Process ι}
    (h : Relation.ReflTransGen Handles fresh p) :
    (p.tally.callCount .completed + p.tally.callCount .failed + p.tally.callCount .elapsed =
        p.calls.countP (fun note => !note.call.isLookUp) ∧
      p.calls.countP (fun note => !note.call.isLookUp) =
        (p.tally.attempts .success).sum + (p.tally.attempts .permanent).sum +
          (p.tally.attempts .exhausted).sum) ∧
    ((p.tally.attempts .success).length + (p.tally.attempts .permanent).length +
          (p.tally.attempts .exhausted).length =
        ∑ i, (p.recorder i).observations ∧
      ∑ i, (p.recorder i).observations =
        ∑ i, (p.recorder i).inserted + ∑ i, (p.recorder i).updated + ∑ i, (p.recorder i).deleted +
          ∑ i, (p.recorder i).apply) ∧
    (p.tally.callCount .completed = (p.tally.attempts .success).length ∧
      (p.tally.attempts .success).length =
        ∑ i, (p.recorder i).inserted + ∑ i, (p.recorder i).updated +
          ∑ i, (p.recorder i).deleted) ∧
    ∀ {σ : Type} (engine : Engine σ) (t : Timeline (Site σ)),
      (∀ record, (engine.verifyRecord record t).tally = t.tally ∧
        (engine.verifyRecord record t).state.recorder = t.state.recorder) ∧
      (engine.tuning.retry.maxRetries.toNat < 2 ^ 32 - 1 →
        ∀ request, engine.Returns request t) ∧
      ∀ request, engine.Returns request t ∨
        (engine.serve request t).2.tally.callTotal = t.tally.callTotal + (2 ^ 32 - 1) ∧
        (engine.serve request t).2.tally.samples = t.tally.samples := by
  have hbalanced : p.Balanced := by
    induction h with
    | refl => exact balanced_fresh
    | tail _ step ih => exact ih.handles step
  refine ⟨⟨hbalanced.calls, hbalanced.attempts⟩,
    ⟨hbalanced.observed, hbalanced.observed.symm.trans hbalanced.tried⟩,
    ⟨hbalanced.completed, hbalanced.applied⟩, fun engine t => ⟨fun record => ?_, ?_, ?_⟩⟩
  · have hlooks := engine.looks_verifyRecord record t
    exact ⟨Engine.Looks.tally hlooks, Engine.Looks.recorder hlooks⟩
  · intro bounded request action _
    cases action with
    | upsert op record => exact Engine.not_fillsCounter bounded _ t
    | delete kind key => exact Engine.not_fillsCounter bounded _ t
  · intro request
    by_cases hreturns : engine.Returns request t
    · exact .inl hreturns
    · have hcounts := Engine.unsampled_serve hreturns
      exact .inr ⟨hcounts.callTotal, hcounts.samples⟩

/-- Two engines with a recorder each: over a busy store the second attempt completes, and the other
store refuses the only one. -/
theorem reconciles_busy :
    ∃ p : Process Bool, Relation.ReflTransGen Handles fresh p ∧
      p.tally.callCount .completed = 1 ∧ p.tally.callCount .failed = 2 ∧
      p.tally.attempts .success = [2] ∧ p.tally.attempts .permanent = [1] ∧
      p.calls.countP (fun note => !note.call.isLookUp) = 3 ∧
      ∑ i, (p.recorder i).observations = 2 ∧
      ∑ i, (p.recorder i).inserted + ∑ i, (p.recorder i).updated + ∑ i, (p.recorder i).deleted =
        1 := by
  let engine : Engine FaultyStore := ⟨.builtIn, FaultyStore.adapter, .default⟩
  let request : Request :=
    .event ⟨.insert, none, some (.object [("id", .ofInt64 1)]), "customers", none⟩
  let busy : FaultyStore := ⟨.new, [⟨some .zero, .failed (.unavailable "busy")⟩], [], []⟩
  let closed : FaultyStore := ⟨.new, [⟨some .zero, .refused⟩], [], []⟩
  let first := (engine.serve request (.start (.new busy))).2
  let second :=
    (engine.serve request ⟨0, [], first.tally, [], ⟨closed, first.state.calls, .empty⟩⟩).2
  have hresults :
      second.tally = ⟨[.failed, .completed, .failed], [(.success, 2), (.permanent, 1)]⟩ := by
    decide +kernel +zetaReduce
  have hbounded : engine.tuning.retry.maxRetries.toNat < 2 ^ 32 - 1 := by decide +zetaReduce
  -- From here on the engine and its stores may be any: nothing is run again.
  clear_value engine request busy closed
  have hreturns := fun t => ((reconciles (ι := Bool) .refl).2.2.2 engine t).2.1 hbounded request
  let p : Process Bool := ⟨first.tally, first.state.calls,
    Function.update fresh.recorder true first.state.recorder⟩
  let p' : Process Bool := ⟨second.tally, second.state.calls,
    Function.update p.recorder false second.state.recorder⟩
  have hfirst : Handles fresh p := .intro engine true request _ rfl rfl rfl (hreturns _)
  have hsecond : Handles p p' := .intro engine false request _ rfl rfl rfl (hreturns _)
  have hrun : Relation.ReflTransGen Handles fresh p' := .tail (.single hfirst) hsecond
  have htally : p'.tally = ⟨[.failed, .completed, .failed], [(.success, 2), (.permanent, 1)]⟩ :=
    hresults
  obtain ⟨⟨hcalls, -⟩, ⟨hoperations, -⟩, ⟨-, happlied⟩, -⟩ := reconciles hrun
  refine ⟨p', hrun, ?_, ?_, ?_, ?_, hcalls.symm.trans ?_, hoperations.symm.trans ?_,
    happlied.symm.trans ?_⟩ <;> rw [htally] <;> rfl

/-- A store that is busy for good: it refuses every call at once. -/
def busyStore : StoreAdapter Unit where
  put _ _ _ _ _ s := .now (.error (.unavailable "busy")) s
  remove _ _ _ s := .now (.error (.unavailable "busy")) s
  partitionOf _ _ _ s := .now (.error (.unavailable "busy")) s

/-- Every call that is made once to a busy store fails with an error that may pass. -/
theorem fails_of_busyStore {engine : Engine Unit} (h : engine.store = busyStore) (record : Record)
    (t : Timeline (Site Unit)) :
    ∃ e, (engine.callOnce (engine.put record) t).1 = .error e ∧ e.isRetryable = true := by
  have hrefused : (engine.put record t).answer = .error (.unavailable "busy") := by
    unfold Engine.put
    rw [h]
    rfl
  rcases engine.callOnce_cases (engine.put record) t with
    ⟨delay, a, hanswer, -, -⟩ | ⟨delay, e, hanswer, -, hcall⟩ | hcall
  · rw [hrefused] at hanswer
    cases hanswer
  · obtain rfl : StoreError.unavailable "busy" = e := Except.error.inj (hrefused.symm.trans hanswer)
    exact ⟨_, by rw [hcall], rfl⟩
  · -- The limit has elapsed before the store answers, which may pass as well.
    exact ⟨_, by rw [hcall], rfl⟩

/-- Settings with `2 ^ 32 - 1` retries are accepted. The insertion of a single customer into a store
that is busy for good then makes as many calls, all of them counted, and there is no operation that
they would be the attempts of. -/
theorem calls_without_sample :
    let c := { Configuration.default with retryMaxRetries := 4294967295 }
    let engine : Engine Unit := ⟨.builtIn, busyStore, c.tuning⟩
    let request : Request :=
      .event ⟨.insert, none, some (.object [("id", .ofInt64 1)]), "customers", none⟩
    Configuration.ofPairs [("CDC_RETRY_MAX_RETRIES", "4294967295")] = .ok c ∧
      ∃ tally, (engine.serve request (.start (.new ()))).2.tally = tally ∧
        tally.callCount .completed + tally.callCount .failed + tally.callCount .elapsed =
          2 ^ 32 - 1 ∧
        (tally.attempts .success).sum + (tally.attempts .permanent).sum +
          (tally.attempts .exhausted).sum = 0 ∧
        tally.samples = [] := by
  intro c engine request
  have haccepted : Configuration.ofPairs [("CDC_RETRY_MAX_RETRIES", "4294967295")] = .ok c := by
    decide +kernel
  have hretries : engine.tuning.retry.maxRetries.toNat = Retry.maxCount := rfl
  obtain ⟨record, hplan⟩ : ∃ record, engine.Plans request (.upsert .insert record) :=
    ⟨_, _, rfl, rfl⟩
  have hfull : ¬engine.Returns request (.start (.new ())) := fun hreturns =>
    hreturns _ hplan (Retry.counterFull_of_failing hretries (fails_of_busyStore rfl record) _ _)
  obtain ⟨hcalls, hsamples⟩ := Engine.unsampled_serve hfull
  -- The run has more attempts than can be computed, so that it must not be unfolded.
  generalize (engine.serve request (.start (.new ()))).2.tally = tally at hcalls hsamples ⊢
  have hnothing : tally.samples = [] := hsamples
  have hnone : ∀ verdict, tally.attempts verdict = [] := fun verdict => by
    unfold Tally.attempts
    rw [hnothing]
    rfl
  refine ⟨haccepted, tally, rfl, hcalls, ?_, hnothing⟩
  rw [hnone, hnone, hnone]
  rfl

end Process

end ChangeFeed
