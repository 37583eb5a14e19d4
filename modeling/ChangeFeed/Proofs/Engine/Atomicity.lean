import ChangeFeed.Proofs.Engine.Attempts
import ChangeFeed.Proofs.Store.Replay
import ChangeFeed.Store.Faulty
import Mathlib.Algebra.Group.Nat.Defs

/-!
# Events over a store that fails

A store may be slow and may fail, and yet do no harm: every call is passed on to a store in memory
after some wait, or refused with an error before it gets there (`StoreAdapter.Wraps`). A call that
is cut off at its limit has not got there either. So an attempt of an action leaves the store as it
was, or carries the action out and is the last one (`settles_change`).

`atomic_serve` states what follows for an event: it is carried out once, by its last attempt, or not
at all.
-/

namespace ChangeFeed

variable {σ α ε : Type} {inner : σ → MemoryStore}

/-! ## Wrapped stores -/

/-- A reply of a state with a store in memory inside, to a call that would have a result there: it
brings that result, or an error and the store as it was. The store stays as it was, too, if the
caller stops waiting. Nothing is said of the wait. -/
structure Reply.PassesOn (inner : σ → MemoryStore) (own : MemoryStore → α × MemoryStore) (s : σ)
    (reply : Reply σ (Except StoreError α)) : Prop where
  answered : (reply.answer = .ok (own (inner s)).1 ∧ inner reply.after = (own (inner s)).2) ∨
    ∃ e, reply.answer = .error e ∧ inner reply.after = inner s
  abandoned : inner reply.abandoned = inner s

namespace MemoryStore

/-- The result of a put. -/
def putting (kind : Kind) (key : Int64) (affinity : Option Affinity) (record : Record)
    (store : MemoryStore) : Unit × MemoryStore :=
  ((), store.put kind key affinity record)

/-- The result of a removal. -/
def removing (kind : Kind) (key : Int64) (store : MemoryStore) : Bool × MemoryStore :=
  (store.contains kind key, store.remove kind key)

/-- How the call of an action ends. -/
def ending (store : MemoryStore) : Action → CallEnd
  | .upsert .. => .stored
  | .delete kind key => .removed (store.contains kind key)

end MemoryStore

/-- An adapter that passes calls on to a store in memory inside. Lookups of partitions may be
answered in any way, but leave that store alone. -/
structure StoreAdapter.Wraps (adapter : StoreAdapter σ) (inner : σ → MemoryStore) : Prop where
  put : ∀ kind key affinity record now s,
    (adapter.put kind key affinity record now s).PassesOn inner
      (MemoryStore.putting kind key affinity record) s
  remove : ∀ kind key now s,
    (adapter.remove kind key now s).PassesOn inner (MemoryStore.removing kind key) s
  partitionOf : ∀ kind key now s,
    inner (adapter.partitionOf kind key now s).after = inner s ∧
      inner (adapter.partitionOf kind key now s).abandoned = inner s

namespace FaultyStore

/-- A reply of the store in memory that is subject to a fault is passed on. -/
theorem passesOn_subject {own : MemoryStore → α × MemoryStore} (fault : Fault) (kind : Kind)
    {s rest : FaultyStore} (hrest : rest.store = s.store)
    {reply : Reply MemoryStore (Except StoreError α)} (hanswer : reply.answer = .ok (own s.store).1)
    (hafter : reply.after = (own s.store).2) :
    (subject fault kind rest reply).PassesOn FaultyStore.store own s := by
  unfold subject
  split
  · next e _ => exact ⟨.inr ⟨e, rfl, hrest⟩, hrest⟩
  · exact ⟨.inl ⟨hanswer, hafter⟩, hrest⟩

/-- A store that fails by a script wraps its store in memory. -/
theorem wraps_adapter : FaultyStore.adapter.Wraps FaultyStore.store where
  put _ _ _ _ _ _ := by refine passesOn_subject _ _ ?_ ?_ ?_ <;> rfl
  remove _ _ _ _ := by refine passesOn_subject _ _ ?_ ?_ ?_ <;> rfl
  partitionOf kind key now s := by
    -- Whatever the fault, the answer comes with the store that was asked.
    have hplaced : ∀ fault, (placed fault (MemoryStore.adapter.partitionOf kind key now
        s.store)).after = s.store := by
      intro fault
      unfold placed
      split <;> rfl
    show (subject ..).after.store = s.store ∧ (subject ..).abandoned.store = s.store
    unfold subject
    split
    · exact ⟨rfl, rfl⟩
    · exact ⟨hplaced _, rfl⟩

end FaultyStore

namespace Engine

/-- Over a wrapped store, lookups of partitions leave the store inside alone. -/
theorem looksOnly_of_wraps {engine : Engine σ} (wraps : engine.store.Wraps inner) :
    engine.LooksOnly inner :=
  fun place t => wraps.partitionOf place.kind place.key t.now t.state.store

/-! ## The calls of an action over a wrapped store -/

/-- What came of a call to the store inside, whether of one attempt or of all: the result that the
call has there, or an error, and the store is as it was. -/
def Settles (inner : σ → MemoryStore) (own : MemoryStore → α × MemoryStore)
    (t : Timeline (Site σ)) : Except ε α → Timeline (Site σ) → Prop
  | .ok a, t' =>
    a = (own (inner t.state.store)).1 ∧ inner t'.state.store = (own (inner t.state.store)).2
  | .error _, t' => inner t'.state.store = inner t.state.store

/-- What is settled stays so if the answer is shown as something else. -/
theorem Settles.map {β : Type} {own : MemoryStore → α × MemoryStore} {t t' : Timeline (Site σ)}
    {result : Except ε α} (h : Settles inner own t result t') (f : α → β) :
    Settles inner (fun store => (f (own store).1, (own store).2)) t (result.map f) t' := by
  cases result with
  | ok a => exact ⟨congrArg f h.1, h.2⟩
  | error e => exact h

/-- A single attempt settles a call that is passed on. -/
theorem settles_callOnce (engine : Engine σ) {call : StoreCall} {shown : α → CallEnd}
    {request : Timeline (Site σ) → Reply (Site σ) (Except StoreError α)}
    {reply : Timeline (Site σ) → Reply σ (Except StoreError α)}
    {own : MemoryStore → α × MemoryStore} (hcalls : Calls request call shown reply)
    (passes : ∀ t, (reply t).PassesOn inner own t.state.store) (t : Timeline (Site σ)) :
    Settles inner own t (engine.callOnce request t).1 (engine.callOnce request t).2 := by
  rcases engine.callOnce_cases request t with
    ⟨delay, a, ha, -, h⟩ | ⟨delay, e, he, -, h⟩ | h
  · rw [h]
    show a = _ ∧ inner (request t).after.store = _
    rw [hcalls.after_eq]
    rw [hcalls.answer_eq] at ha
    -- An answer in time is that of the store inside.
    rcases (passes t).answered with ⟨hown, hstore⟩ | ⟨e, hown, -⟩
    · rw [ha] at hown
      exact ⟨Except.ok.inj hown, hstore⟩
    · rw [ha] at hown
      cases hown
  · rw [h]
    show inner (request t).after.store = _
    rw [hcalls.after_eq]
    rw [hcalls.answer_eq] at he
    -- With an error the call did not get there.
    rcases (passes t).answered with ⟨hown, -⟩ | ⟨e', -, hstore⟩
    · rw [he] at hown
      cases hown
    · exact hstore
  · rw [h]
    show inner (request t).abandoned.store = _
    rw [hcalls.abandoned_eq]
    exact (passes t).abandoned

/-- All attempts of an action together settle a call that is passed on. -/
theorem settles_call {engine : Engine σ}
    (bounded : engine.tuning.retry.maxRetries.toNat < Retry.maxCount) (action : Action)
    {call : StoreCall} {shown : α → CallEnd}
    {request : Timeline (Site σ) → Reply (Site σ) (Except StoreError α)}
    {reply : Timeline (Site σ) → Reply σ (Except StoreError α)}
    {own : MemoryStore → α × MemoryStore} (hcalls : Calls request call shown reply)
    (passes : ∀ t, (reply t).PassesOn inner own t.state.store) (t : Timeline (Site σ)) :
    Settles inner own t (engine.call action request t).1 (engine.call action request t).2 := by
  obtain ⟨errors, t', hfails, -, hresult, hstore, -⟩ := call_eq_attempts bounded action request t
  -- Up to the last attempt nothing has happened to the store inside.
  have hbefore : inner t'.state.store = inner t.state.store := by
    refine hfails.keeps (fun site => inner site.store) fun {t e t'} ho _ => ?_
    have hone := engine.settles_callOnce hcalls passes t
    rw [ho] at hone
    exact hone
  have hlast := engine.settles_callOnce hcalls passes t'
  rw [hresult]
  cases hr : (engine.callOnce request t').1 with
  | ok a =>
    rw [hr] at hlast
    show a = _ ∧ inner (engine.call action request t).2.state.store = _
    rw [hstore, ← hbefore]
    exact hlast
  | error e =>
    rw [hr] at hlast
    show inner (engine.call action request t).2.state.store = _
    rw [hstore, ← hbefore]
    exact hlast

/-- The calls of an action over a wrapped store carry it out, or leave the store inside as it
was. -/
theorem settles_change {engine : Engine σ} (wraps : engine.store.Wraps inner)
    (bounded : engine.tuning.retry.maxRetries.toNat < Retry.maxCount) (action : Action)
    (t : Timeline (Site σ)) :
    Settles inner (fun store => (store.ending action, store.carry action)) t
      (engine.change action t).1 (engine.change action t).2 := by
  cases action with
  | upsert op record =>
    have hcall := settles_call bounded (.upsert op record) (engine.calls_put op record)
      (fun t => wraps.put record.kind record.key record.affinity record t.now t.state.store) t
    exact hcall.map fun _ => CallEnd.stored
  | delete kind key =>
    have hcall := settles_call bounded (.delete kind key) (engine.calls_remove kind key)
      (fun t => wraps.remove kind key t.now t.state.store) t
    exact hcall.map CallEnd.removed

/-- An event over a wrapped store is carried out once or not at all. All attempts that are made for
it are the same call, the one of its action, and there is at most one more of them than there are
retries. If the event is applied, the last attempt carried it out, and those before it were cut off
or failed with errors that may pass. If it is rejected, no attempt was carried out, and the store
inside is as it was. -/
theorem atomic_serve {engine : Engine σ} (wraps : engine.store.Wraps inner)
    (bounded : engine.tuning.retry.maxRetries.toNat < 2 ^ 32 - 1) (request : Request)
    (t : Timeline (Site σ)) :
    let (outcome, served) := engine.serve request t
    let before := inner t.state.store
    let after := inner served.state.store
    ∃ attempts lookUps, served.state.calls = t.state.calls ++ attempts ++ lookUps ∧
      (∀ note ∈ lookUps, note.call.isLookUp = true) ∧
      (∀ note ∈ attempts, ∃ action, engine.Plans request action ∧ note.call = action.call) ∧
      (∀ note ∈ attempts, ∀ other ∈ attempts, note.call = other.call) ∧
      attempts.length ≤ engine.tuning.retry.maxRetries.toNat + 1 ∧
      match outcome with
      | .applied effect kind key =>
        ∃ action failed last, engine.Plans request action ∧
          effect = action.effect ∧ kind = action.kind ∧ key = action.key ∧
          attempts = failed ++ [last] ∧ (∀ note ∈ failed, note.ending.mayPass = true) ∧
          last.ending = before.ending action ∧ after = before.carry action
      | .rejected _ => (∀ note ∈ attempts, note.ending.isDone = false) ∧ after = before := by
  have hcases := engine.serve_cases request t
  cases hserve : engine.serve request t with
  | mk outcome served => ?_
  rw [hserve] at hcases
  dsimp only at hcases ⊢
  rcases hcases with ⟨e, -, hout, hcalls, hstore⟩ | ⟨action, hplans, hout, hafter⟩
  · -- Without an action there is no attempt.
    refine ⟨[], [], by rw [hcalls, List.append_nil, List.append_nil], List.forall_mem_nil _,
      List.forall_mem_nil _, List.forall_mem_nil _, Nat.zero_le _, ?_⟩
    rw [hout]
    exact ⟨List.forall_mem_nil _, congrArg inner hstore⟩
  · obtain ⟨failed, last, hcalls, hattempts⟩ := attempts_change bounded action t
    obtain ⟨lookUps, hlook, hall⟩ := hafter.calls
    have hsettles := settles_change wraps bounded action t
    have hkept := hafter.keeps (looksOnly_of_wraps wraps)
    have hcall := hattempts.call_eq
    refine ⟨failed ++ [last], lookUps, by rw [hlook, hcalls], hall,
      fun note hnote => ⟨action, hplans, hcall note hnote⟩,
      fun note hnote other hother => (hcall note hnote).trans (hcall other hother).symm,
      ?_, ?_⟩
    · rw [List.length_append, List.length_singleton]
      exact Nat.succ_le_succ hattempts.length_le
    · rw [hout]
      cases hchange : (engine.change action t).1 with
      | ok ending =>
        rw [hchange] at hattempts hsettles
        refine ⟨action, failed, last, hplans, rfl, rfl, rfl, rfl,
          fun note hnote => (hattempts.mayPass note hnote).2, ?_, hkept.trans hsettles.2⟩
        rw [hattempts.ok ending rfl, hsettles.1]
      | error e =>
        rw [hchange] at hattempts hsettles
        exact ⟨hattempts.not_isDone, hkept.trans hsettles⟩

/-- A customer is added in spite of a store that is first busy, then does not answer, and then
answers no sooner than it has to. -/
theorem atomic_serve_retried :
    let limit := Tuning.defaultStoreTimeout
    let faults : List Fault :=
      [⟨some .zero, .failed (.unavailable "busy")⟩, ⟨none, .through⟩, ⟨some limit, .through⟩]
    let engine : Engine FaultyStore := ⟨.builtIn, FaultyStore.adapter, .default⟩
    let t := Timeline.start (Site.new ⟨.new, faults, [], []⟩)
    let event : ChangeEvent :=
      ⟨.insert, none, some (.object [("id", .ofInt64 1)]), "customers", none⟩
    let action := Action.upsert .insert (.customer ⟨1, none, none, none⟩)
    let (outcome, served) := engine.serve (.event event) t
    outcome = .applied .inserted .customer 1 ∧
      served.state.calls.map (·.ending) = [.failed (.unavailable "busy"), .cancelled, .stored] ∧
      served.state.store.store = MemoryStore.new.carry action := by
  intro limit faults engine t event action
  have hout : (engine.serve (.event event) t).1 = .applied .inserted .customer 1 := by
    decide +kernel +zetaReduce
  have hcalls : (engine.serve (.event event) t).2.state.calls.map (·.ending) =
      [.failed (.unavailable "busy"), .cancelled, .stored] := by
    decide +kernel +zetaReduce
  have hplan : engine.router.plan event = .ok action := by decide +kernel +zetaReduce
  have hwraps : engine.store.Wraps FaultyStore.store := FaultyStore.wraps_adapter
  have hbounded : engine.tuning.retry.maxRetries.toNat < 2 ^ 32 - 1 := by decide +zetaReduce
  have hstart : t.state.store.store = .new := rfl
  -- From here on only these facts matter: nothing is run a second time.
  clear_value engine t event
  have h := atomic_serve hwraps hbounded (.event event) t
  cases hserve : engine.serve (.event event) t with
  | mk outcome served => ?_
  rw [hserve] at hout hcalls h
  dsimp only at hout hcalls h ⊢
  subst hout
  obtain ⟨attempts, lookUps, -, -, -, -, -, planned, failed, last, ⟨event', hevent, hplan'⟩, -, -,
    -, -, -, -, hstore⟩ := h
  cases hevent
  cases hplan.symm.trans hplan'
  refine ⟨rfl, hcalls, ?_⟩
  rw [hstore, hstart]

end Engine

end ChangeFeed
