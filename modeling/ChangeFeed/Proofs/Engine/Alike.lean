import ChangeFeed.Proofs.Engine.Attempts
import ChangeFeed.Proofs.Retry.Attempts

/-!
# Runs that differ in their lookups only

Two runs over one store may stand at different times and have made different lookups of partitions,
and still be alike in everything else (`Alike`). Over a store whose puts and removals depend on a
view of it and not on the time (`StoreAdapter.Steady`), the same calls then have the same ends and
take the same time, also with all their retries: `InStep` adds to `Alike` that the two runs have
taken the same time since some moment, and each step of a call keeps it. Lookups take one of the two
runs forward without leaving the relation (`Alike.looks`), so that runs stay alike whether or not
partitions are compared.
-/

namespace ChangeFeed

variable {σ α β ε : Type}

/-! ## Steady stores -/

/-- Two replies that come after the same time with the same answer, and leave the same view of the
store, whether they are waited for or given up. -/
structure Reply.Matches (view : σ → β) (r r' : Reply σ α) : Prop where
  delay : r.delay = r'.delay
  answer : r.answer = r'.answer
  after : view r.after = view r'.after
  abandoned : view r.abandoned = view r'.abandoned

/-- A store whose puts and removals depend on a view of it only, and not on the time, and whose
lookups of partitions leave that view alone. -/
structure StoreAdapter.Steady (store : StoreAdapter σ) (view : σ → β) : Prop where
  put : ∀ {s s'}, view s = view s' → ∀ kind key affinity record now now',
    (store.put kind key affinity record now s).Matches view
      (store.put kind key affinity record now' s')
  remove : ∀ {s s'}, view s = view s' → ∀ kind key now now',
    (store.remove kind key now s).Matches view (store.remove kind key now' s')
  partitionOf : ∀ kind key now s, view (store.partitionOf kind key now s).after = view s ∧
    view (store.partitionOf kind key now s).abandoned = view s

/-! ## Runs that are alike -/

/-- The calls that were made to change the store, with their ends, the oldest first. -/
def Timeline.changes (t : Timeline (Site σ)) : List (StoreCall × CallEnd) :=
  (t.state.calls.filter (!·.call.isLookUp)).map fun note => (note.call, note.ending)

/-- Two runs over one store are alike: they have made the same calls to change it, with the same
ends, and have the same view of it, the same counts, and the same random factors ahead. -/
structure Alike (view : σ → β) (t t' : Timeline (Site σ)) : Prop where
  changes : t.changes = t'.changes
  store : view t.state.store = view t'.state.store
  recorder : t.state.recorder = t'.state.recorder
  tally : t.tally = t'.tally
  factors : t.factors = t'.factors

/-- Two runs are alike, and have taken the same time since each of them was at some moment. -/
structure InStep (view : σ → β) (start start' : Nat) (t t' : Timeline (Site σ)) : Prop
    extends Alike view t t' where
  since : t.now + start' = t'.now + start

variable {view : σ → β} {start start' : Nat} {t t' t'' : Timeline (Site σ)}

namespace Alike

/-- Every run is like itself. -/
theorem refl (view : σ → β) (t : Timeline (Site σ)) : Alike view t t :=
  ⟨rfl, rfl, rfl, rfl, rfl⟩

/-- Likeness goes both ways. -/
theorem symm (h : Alike view t t') : Alike view t' t :=
  ⟨h.changes.symm, h.store.symm, h.recorder.symm, h.tally.symm, h.factors.symm⟩

/-- Runs that are like the same run are alike. -/
theorem trans (h : Alike view t t') (h' : Alike view t' t'') : Alike view t t'' :=
  ⟨h.changes.trans h'.changes, h.store.trans h'.store, h.recorder.trans h'.recorder,
    h.tally.trans h'.tally, h.factors.trans h'.factors⟩

/-- A line makes no difference. -/
theorem log (t : Timeline (Site σ)) (level : Journal.Level) (message : String)
    (fields : List (String × Journal.Value)) : Alike view t (t.log level message fields) :=
  ⟨rfl, rfl, rfl, rfl, rfl⟩

/-- What is recorded of both runs makes no difference between them. -/
theorem record (h : Alike view t t') (f : Recorder → Recorder) :
    Alike view (t.update (·.record f)) (t'.update (·.record f)) :=
  ⟨h.changes, h.store, congrArg f h.recorder, h.tally, h.factors⟩

/-- Two runs that are alike are in step from here on. -/
theorem inStep (h : Alike view t t') : InStep view t.now t'.now t t' :=
  ⟨h, Nat.add_comm _ _⟩

end Alike

namespace InStep

/-- A line in each of the runs makes no difference. -/
theorem log (h : InStep view start start' t t') (level : Journal.Level) (message : String)
    (fields : List (String × Journal.Value)) :
    InStep view start start' (t.log level message fields) (t'.log level message fields) :=
  ⟨⟨h.changes, h.store, h.recorder, h.tally, h.factors⟩, h.since⟩

/-- Both runs count the end of a call. -/
theorem countCall (h : InStep view start start' t t') (result : CallResult) :
    InStep view start start' (t.countCall result) (t'.countCall result) :=
  ⟨⟨h.changes, h.store, h.recorder, by rw [Timeline.countCall, h.tally]; rfl, h.factors⟩, h.since⟩

/-- Both runs count an operation that was retried. -/
theorem countAttempts (h : InStep view start start' t t') (verdict : Verdict) (attempts : Nat) :
    InStep view start start' (t.countAttempts verdict attempts)
      (t'.countAttempts verdict attempts) :=
  ⟨⟨h.changes, h.store, h.recorder, by rw [Timeline.countAttempts, h.tally]; rfl, h.factors⟩,
    h.since⟩

/-- Both runs let a timer run. -/
theorem sleep (h : InStep view start start' t t') (d : Duration) :
    InStep view start start' (t.sleep d) (t'.sleep d) := by
  refine ⟨⟨h.changes, h.store, h.recorder, h.tally, h.factors⟩, ?_⟩
  have hsince := h.since
  show t.now + d.timer.nanos + start' = t'.now + d.timer.nanos + start
  omega

/-- Both runs note the same call to change the store, with the same end. -/
theorem note (h : InStep view start start' t t') {s s' : σ} (hview : view s = view s')
    (now now' : Nat) {call : StoreCall} (hcall : call.isLookUp = false) (ending : CallEnd)
    (journal journal' : List Journal.Line) :
    InStep view start start'
      { t with state := t.state.note s now call ending, journal := journal }
      { t' with state := t'.state.note s' now' call ending, journal := journal' } := by
  have added : ∀ (t : Timeline (Site σ)) s now, ({ t with
      state := t.state.note s now call ending } : Timeline (Site σ)).changes =
        t.changes ++ [(call, ending)] := by
    intro t s now
    unfold Timeline.changes
    show List.map _ (List.filter _ (t.state.calls ++ [⟨now, call, ending⟩])) = _
    rw [List.filter_append, List.map_append, List.filter_cons_of_pos (by rw [hcall]; rfl)]
    rfl
  refine ⟨⟨?_, hview, h.recorder, h.tally, h.factors⟩, h.since⟩
  exact (added t s now).trans ((congrArg (· ++ _) h.changes).trans (added t' s' now').symm)

end InStep

/-! ## Steps that two runs take together -/

/-- A step that two runs take with the same result, and without leaving a relation. -/
def Agrees (R : Timeline σ → Timeline σ → Prop) (step step' : Timeline σ → α × Timeline σ) : Prop :=
  ∀ {t t'}, R t t' → (step t).1 = (step' t').1 ∧ R (step t).2 (step' t').2

/-- Where one run takes the step, so does the other. -/
theorem Agrees.follow {R : Timeline σ → Timeline σ → Prop}
    {step step' : Timeline σ → α × Timeline σ} (h : Agrees R step step') {t t' u : Timeline σ}
    {result : α} (ht : R t t') (hstep : step t = (result, u)) :
    ∃ u', step' t' = (result, u') ∧ R u u' := by
  obtain ⟨hresult, hnext⟩ := h ht
  rw [hstep] at hresult hnext
  exact ⟨(step' t').2, Prod.ext hresult.symm rfl, hnext⟩

/-- Waiting for replies that match has the same result, and keeps two runs in step. -/
theorem InStep.await? (h : InStep view start start' t t')
    {r r' : Reply σ (Except StoreError α)} (hmatches : r.Matches view r') (limit : Duration)
    {call : StoreCall} (hcall : call.isLookUp = false) (shown : α → CallEnd) :
    (t.await? limit (t.state.reply t.now call shown r)).1 =
        (t'.await? limit (t'.state.reply t'.now call shown r')).1 ∧
      InStep view start start' (t.await? limit (t.state.reply t.now call shown r)).2
        (t'.await? limit (t'.state.reply t'.now call shown r')).2 := by
  have hdelay : (t.state.reply t.now call shown r).delay = r'.delay := hmatches.delay
  have hdelay' : (t'.state.reply t'.now call shown r').delay = r'.delay := rfl
  have hanswer : (t.state.reply t.now call shown r).answer =
      (t'.state.reply t'.now call shown r').answer := hmatches.answer
  -- Both runs wait for the same time, for the answer or up to the limit.
  have answered : ∀ delay, InStep view start start'
      (t.answered delay (t.state.reply t.now call shown r))
      (t'.answered delay (t'.state.reply t'.now call shown r')) := by
    intro delay
    have hnote := (h.sleep delay).note hmatches.after t.now t'.now hcall
      (.ofAnswer shown r'.answer) (t.journal ++ r.lines) (t'.journal ++ r'.lines)
    rw [Timeline.answered, Site.reply, hmatches.answer]
    exact hnote
  have givenUp : InStep view start start'
      (t.givenUp limit (t.state.reply t.now call shown r))
      (t'.givenUp limit (t'.state.reply t'.now call shown r')) :=
    (h.sleep limit).note hmatches.abandoned t.now t'.now hcall .cancelled t.journal t'.journal
  unfold Timeline.await?
  rw [hdelay, hdelay']
  cases r'.delay with
  | none => exact ⟨rfl, givenUp⟩
  | some delay =>
    dsimp only
    split
    · exact ⟨congrArg some hanswer, answered delay⟩
    · exact ⟨rfl, givenUp⟩

/-- The wait before a retry is the same in both runs. -/
theorem InStep.nextWait (h : InStep view start start' t t') (policy : Retry.Policy)
    (retry : Nat) :
    (Retry.nextWait policy retry t).1 = (Retry.nextWait policy retry t').1 ∧
      InStep view start start' (Retry.nextWait policy retry t).2
        (Retry.nextWait policy retry t').2 := by
  -- A random factor is taken from what both have ahead.
  unfold Retry.nextWait
  rw [h.factors]
  dsimp only
  split
  · split
    · exact ⟨rfl, ⟨h.changes, h.store, h.recorder, h.tally, rfl⟩, h.since⟩
    · exact ⟨rfl, h⟩
  · exact ⟨rfl, h⟩

/-- The pause between two attempts is the same in both runs. -/
theorem InStep.pause (h : InStep view start start' t t') (policy : Retry.Policy)
    (causeMessage : ε → String) (attempt : Nat) (e : ε) :
    InStep view start start' (Retry.pause policy causeMessage attempt e t)
      (Retry.pause policy causeMessage attempt e t') := by
  obtain ⟨hwait, hnext⟩ := h.nextWait policy attempt
  unfold Retry.pause
  dsimp only
  rw [hwait]
  exact (hnext.log ..).sleep _

/-- An operation whose single attempts keep two runs in step keeps them in step with its retries. -/
theorem agrees_loop (policy : Retry.Policy) (isRetryable : ε → Bool) (causeMessage : ε → String)
    {operation : Timeline (Site σ) → Except ε α × Timeline (Site σ)}
    (each : Agrees (InStep view start start') operation operation) (room attempt : Nat) :
    Agrees (InStep view start start')
      (Retry.loop policy isRetryable causeMessage operation room attempt)
      (Retry.loop policy isRetryable causeMessage operation room attempt) := by
  intro t t' h
  -- The induction follows the first run. The second one takes the same branch each time, since an
  -- attempt tells both the same.
  fun_induction Retry.loop policy isRetryable causeMessage operation room attempt t
    generalizing t' with
  | case1 room attempt t a u ho =>
    obtain ⟨u', ho', hnext⟩ := each.follow h ho
    unfold Retry.loop
    rw [ho']
    exact ⟨rfl, hnext.countAttempts ..⟩
  | case2 room attempt t e u ho hretry =>
    obtain ⟨u', ho', hnext⟩ := each.follow h ho
    unfold Retry.loop
    rw [ho']
    dsimp only
    rw [if_pos hretry]
    exact ⟨rfl, hnext.countAttempts ..⟩
  | case3 room attempt t e u ho hretry hlast =>
    obtain ⟨u', ho', hnext⟩ := each.follow h ho
    unfold Retry.loop
    rw [ho']
    dsimp only
    rw [if_neg hretry, if_pos hlast]
    exact ⟨rfl, (hnext.log ..).countAttempts ..⟩
  | case4 attempt t e u ho hretry hlast =>
    obtain ⟨u', ho', hnext⟩ := each.follow h ho
    unfold Retry.loop
    rw [ho']
    dsimp only
    rw [if_neg hretry, if_neg hlast]
    exact ⟨rfl, hnext.pause ..⟩
  | case5 attempt t e u ho hretry hlast paused room =>
    rename_i ih
    obtain ⟨u', ho', hnext⟩ := each.follow h ho
    have hloop : Retry.loop policy isRetryable causeMessage operation room.succ attempt t' =
        Retry.loop policy isRetryable causeMessage operation room (attempt + 1)
          (Retry.pause policy causeMessage attempt e u') := by
      rw [Retry.loop.eq_def]
      dsimp only
      rw [ho']
      dsimp only
      rw [if_neg hretry, if_neg hlast]
    rw [hloop]
    exact ih (hnext.pause ..)

/-! ## Engines over steady stores -/

namespace Engine

/-- An engine that compares partitions, or one that does not, and is otherwise the same. -/
def verifying (engine : Engine σ) (on : Bool) : Engine σ :=
  { engine with tuning := { engine.tuning with verifyAffinity := on } }

/-- To compare partitions is no part of the calls that an action needs. -/
theorem change_verifying (engine : Engine σ) (on : Bool) (action : Action)
    (t : Timeline (Site σ)) : (engine.verifying on).change action t = engine.change action t := by
  have hcall : ∀ {α} (request : Timeline (Site σ) → Reply (Site σ) (Except StoreError α)),
      (engine.verifying on).call action request t = engine.call action request t := by
    intro α request
    have honce : (engine.verifying on).callOnce request = engine.callOnce request := rfl
    have hretry : (engine.verifying on).tuning.retry = engine.tuning.retry := rfl
    unfold call
    rw [honce, hretry]
  cases action with
  | upsert op record =>
    have hput : (engine.verifying on).put record = engine.put record := rfl
    unfold change
    dsimp only
    rw [hput, hcall]
  | delete kind key =>
    have hremove : (engine.verifying on).remove kind key = engine.remove kind key := rfl
    unfold change
    dsimp only
    rw [hremove, hcall]

/-- A single call to change the store keeps two runs in step, if the replies to it match. -/
theorem agrees_callOnce (engine : Engine σ) {call : StoreCall} (hcall : call.isLookUp = false)
    {shown : α → CallEnd} {request : Timeline (Site σ) → Reply (Site σ) (Except StoreError α)}
    {reply : Timeline (Site σ) → Reply σ (Except StoreError α)}
    (hcalls : Calls request call shown reply)
    (hmatches : ∀ {t t'}, view t.state.store = view t'.state.store →
      (reply t).Matches view (reply t')) :
    Agrees (InStep view start start') (engine.callOnce request) (engine.callOnce request) := by
  intro t t' h
  have hwait := h.await? (hmatches h.store) engine.tuning.storeTimeout hcall shown
  rw [← hcalls.noted, ← hcalls.noted] at hwait
  unfold callOnce Timeline.withLimitResult
  cases hu : t.await? engine.tuning.storeTimeout (request t) with | mk answer u => ?_
  cases hu' : t'.await? engine.tuning.storeTimeout (request t') with | mk answer' u' => ?_
  rw [hu, hu'] at hwait
  obtain ⟨rfl, hnext⟩ := hwait
  rcases answer with _ | (e | a)
  · exact ⟨rfl, hnext.countCall .elapsed⟩
  · exact ⟨rfl, hnext.countCall .failed⟩
  · exact ⟨rfl, hnext.countCall .completed⟩

/-- All calls of an action keep two runs alike, if the replies to a single one match. -/
theorem agrees_call (engine : Engine σ) {action : Action} {shown : α → CallEnd}
    {request : Timeline (Site σ) → Reply (Site σ) (Except StoreError α)}
    {reply : Timeline (Site σ) → Reply σ (Except StoreError α)}
    (hcalls : Calls request action.call shown reply)
    (hmatches : ∀ {t t'}, view t.state.store = view t'.state.store →
      (reply t).Matches view (reply t')) :
    Agrees (Alike view) (engine.call action request) (engine.call action request) := by
  intro t t' h
  have hrun := agrees_loop engine.tuning.retry StoreError.isRetryable StoreError.message
    (engine.agrees_callOnce action.isLookUp_call hcalls hmatches) (Retry.maxCount - 1) 1 h.inStep
  unfold call Retry.run
  generalize Retry.loop engine.tuning.retry StoreError.isRetryable StoreError.message
    (engine.callOnce request) (Retry.maxCount - 1) 1 t = ran at hrun ⊢
  generalize Retry.loop engine.tuning.retry StoreError.isRetryable StoreError.message
    (engine.callOnce request) (Retry.maxCount - 1) 1 t' = ran' at hrun ⊢
  obtain ⟨result, after⟩ := ran
  obtain ⟨result', after'⟩ := ran'
  obtain ⟨rfl, hafter⟩ := hrun
  -- Both have taken the same time, so that the same is observed.
  have hsince : after.now + t'.now = after'.now + t.now := hafter.since
  have helapsed : after.now - t.now = after'.now - t'.now := by omega
  dsimp only
  rw [helapsed]
  cases result with
  | ok a => exact ⟨rfl, hafter.toAlike.record _⟩
  | error f => exact ⟨rfl, hafter.toAlike.record _⟩

/-- Over a steady store, the calls that an action needs keep two runs alike. -/
theorem agrees_change {engine : Engine σ} (steady : engine.store.Steady view) (action : Action) :
    Agrees (Alike view) (engine.change action) (engine.change action) := by
  intro t t' h
  cases action with
  | upsert op record =>
    obtain ⟨hresult, hnext⟩ := engine.agrees_call (engine.calls_put op record)
      (fun hview => steady.put hview ..) h
    exact ⟨congrArg (Except.map _) hresult, hnext⟩
  | delete kind key =>
    obtain ⟨hresult, hnext⟩ := engine.agrees_call (engine.calls_remove kind key)
      (fun hview => steady.remove hview ..) h
    exact ⟨congrArg (Except.map _) hresult, hnext⟩

/-- A look takes one run forward, and leaves it alike. -/
theorem alike_look {engine : Engine σ} (steady : engine.store.Steady view) {record : Record}
    (h : engine.Look record t t') : Alike view t t' := by
  cases h with
  | log level message fields => exact Alike.log t level message fields
  | @lookUp parent place _ limit =>
    -- A note of a lookup is none of a change.
    have passed : ∀ (site : Site σ) ending,
        (site.calls ++ [(⟨t.now, .partitionOf place.kind place.key, ending⟩ : CallNote)]).filter
          (!·.call.isLookUp) = site.calls.filter (!·.call.isLookUp) := by
      intro site ending
      rw [List.filter_append, List.filter_cons_of_neg Bool.false_ne_true, List.filter_nil,
        List.append_nil]
    obtain ⟨hafter, habandoned⟩ :=
      steady.partitionOf place.kind place.key t.now t.state.store
    rcases t.await?_cases limit (engine.partitionOf place t) with ⟨delay, -, -, hc⟩ | hc
    · rw [hc]
      exact ⟨congrArg (List.map _) (passed ..).symm, hafter.symm, rfl, rfl, rfl⟩
    · rw [hc]
      exact ⟨congrArg (List.map _) (passed ..).symm, habandoned.symm, rfl, rfl, rfl⟩

/-- A chain of looks takes one run forward, and leaves it alike. -/
theorem alike_looks {engine : Engine σ} (steady : engine.store.Steady view) {record : Record}
    (h : engine.Looks record t t') : Alike view t t' := by
  induction h with
  | refl => exact Alike.refl view t
  | tail _ look ih => exact ih.trans (alike_look steady look)

/-- What follows the calls of an action leaves a run alike. -/
theorem alike_perform {engine : Engine σ} (steady : engine.store.Steady view) (action : Action)
    (t : Timeline (Site σ)) :
    Alike view (engine.change action t).2 (engine.perform action t).2 := by
  cases action with
  | upsert op record =>
    unfold perform change
    dsimp only
    split
    · next h =>
      rw [h]
      exact alike_looks steady (engine.looks_verifyRecord record _)
    · next h =>
      rw [h]
      exact Alike.refl view _
  | delete kind key =>
    unfold perform change
    dsimp only
    split
    · next h =>
      rw [h]
      exact Alike.refl view _
    · next h =>
      rw [h]
      exact Alike.log ..
    · next h =>
      rw [h]
      exact Alike.refl view _

/-- Whether or not partitions are compared, an action comes to the same, and runs that perform it
stay alike. -/
theorem agrees_perform {engine : Engine σ} (steady : engine.store.Steady view) (on on' : Bool)
    (action : Action) :
    Agrees (Alike view) ((engine.verifying on).perform action)
      ((engine.verifying on').perform action) := by
  intro t t' h
  obtain ⟨hresult, hnext⟩ := agrees_change steady action h
  have hsteady : ∀ on, (engine.verifying on).store.Steady view := fun _ => steady
  have hfirst := alike_perform (hsteady on) action t
  have hsecond := alike_perform (hsteady on') action t'
  rw [change_verifying] at hfirst hsecond
  refine ⟨?_, hfirst.symm.trans (hnext.trans hsecond)⟩
  rw [(perform_eq_change (engine.verifying on) action t).1,
    (perform_eq_change (engine.verifying on') action t').1, change_verifying, change_verifying,
    hresult]

/-- Whether or not partitions are compared, an event comes to the same, and runs that carry it out
stay alike. -/
theorem agrees_carryOut {engine : Engine σ} (steady : engine.store.Steady view) (on on' : Bool)
    (event : ChangeEvent) :
    Agrees (Alike view) ((engine.verifying on).carryOut event)
      ((engine.verifying on').carryOut event) := by
  intro t t' h
  have hplan : ∀ on, (engine.verifying on).router.plan event = engine.router.plan event :=
    fun _ => rfl
  cases hplanned : engine.router.plan event with
  | error e =>
    rw [carryOut_of_error ((hplan on).trans hplanned),
      carryOut_of_error ((hplan on').trans hplanned)]
    refine ⟨rfl, ?_⟩
    -- A table that is not routed may be reported.
    have hreport : ∀ t : Timeline (Site σ), Alike view t (reportUnrouted e t) := by
      intro t
      cases e with
      | routing table => exact Alike.log ..
      | _ => exact Alike.refl view t
    exact (hreport t).symm.trans (h.trans (hreport t'))
  | ok action =>
    obtain ⟨hresult, hnext⟩ := agrees_perform steady on on' action h
    rw [carryOut_of_ok ((hplan on).trans hplanned), carryOut_of_ok ((hplan on').trans hplanned),
      hresult]
    exact ⟨rfl, hnext⟩

/-- Runs that conclude an event with the same result stay alike. -/
theorem alike_finish (h : Alike view t t') (origin : Origin) (result : Except Rejection Action) :
    Alike view (finish origin result t).2 (finish origin result t').2 :=
  have hcount := h.record (·.bumpAll (Outcome.ofResult result).cells)
  ((Alike.log ..).symm.trans hcount).trans (Alike.log ..)

/-- Whether or not partitions are compared, a request comes to the same outcome, and runs that serve
it stay alike. -/
theorem agrees_serve {engine : Engine σ} (steady : engine.store.Steady view) (on on' : Bool)
    (request : Request) :
    Agrees (Alike view) ((engine.verifying on).serve request)
      ((engine.verifying on').serve request) := by
  intro t t' h
  have concluded : ∀ event origin,
      let carried := (engine.verifying on).carryOut event t
      let carried' := (engine.verifying on').carryOut event t'
      (finish origin carried.1 carried.2).1 = (finish origin carried'.1 carried'.2).1 ∧
        Alike view (finish origin carried.1 carried.2).2
          (finish origin carried'.1 carried'.2).2 := by
    intro event origin carried carried'
    obtain ⟨hresult, hnext⟩ := agrees_carryOut steady on on' event h
    change carried.1 = carried'.1 at hresult
    rw [hresult]
    exact ⟨rfl, alike_finish hnext origin _⟩
  cases request with
  | event event => exact concluded event _
  | message message =>
    show ((engine.verifying on).handle message t).1 = ((engine.verifying on').handle message t').1 ∧
      Alike view ((engine.verifying on).handle message t).2
        ((engine.verifying on').handle message t').2
    cases hread : ChangeEvent.ofMessage message with
    | error e =>
      rw [handle_of_error hread, handle_of_error hread]
      exact ⟨rfl, alike_finish h _ _⟩
    | ok event =>
      rw [handle_of_ok hread, handle_of_ok hread]
      exact concluded event _

/-- Whether or not partitions are compared, requests come to the same outcomes, and runs that serve
them stay alike. -/
theorem agrees_serveAll {engine : Engine σ} (steady : engine.store.Steady view) (on on' : Bool)
    (requests : List Request) :
    Agrees (Alike view) ((engine.verifying on).serveAll requests)
      ((engine.verifying on').serveAll requests) := by
  induction requests with
  | nil => exact fun h => ⟨rfl, h⟩
  | cons request rest ih =>
    intro t t' h
    obtain ⟨houtcome, hnext⟩ := agrees_serve steady on on' request h
    obtain ⟨houtcomes, hlast⟩ := ih hnext
    refine ⟨?_, hlast⟩
    simp only [serveAll, houtcome, houtcomes]

end Engine

end ChangeFeed
