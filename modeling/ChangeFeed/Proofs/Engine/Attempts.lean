import ChangeFeed.Proofs.Engine.Account
import ChangeFeed.Proofs.Retry.Attempts

/-!
# The calls made for an action

For every action an engine calls the store once or several times, always in the same way, until a
call is answered well or there is no point in going on. A single call under its limit ends in one of
three ways (`callOnce_cases`); the calls of an action are a chain of those (`call_eq_attempts`).

The site keeps a note of every call. `Attempts` says what the notes of an action tell: all of them
but the last are of calls that were cut off or failed with an error that may pass, and the last one
tells how the action ended (`attempts_change`). A request either has no action, and is rejected
without a call, or comes to what its action comes to, with lookups of partitions at most behind it
(`serve_cases`).
-/

namespace ChangeFeed

variable {σ α : Type}

/-- The call to the store that an action makes. -/
def Action.call : Action → StoreCall
  | .upsert _ record => .put record.kind record.key record.affinity record
  | .delete kind key => .remove kind key

/-- Whether a call only looks up a partition. -/
def StoreCall.isLookUp : StoreCall → Bool
  | .put .. => false
  | .remove .. => false
  | .partitionOf .. => true

/-- The call of an action is no lookup. -/
theorem Action.isLookUp_call (action : Action) : action.call.isLookUp = false := by
  cases action <;> rfl

namespace CallEnd

/-- Whether the store carried the call out and said so in time. -/
def isDone : CallEnd → Bool
  | .stored => true
  | .removed _ => true
  | .placed _ => true
  | .failed _ => false
  | .cancelled => false

/-- Whether the call was cut off, or failed with an error that may pass. -/
def mayPass : CallEnd → Bool
  | .failed e => e.isRetryable
  | .cancelled => true
  | .stored => false
  | .removed _ => false
  | .placed _ => false

/-- What the caller of a call under a limit is told of its end. -/
def Tells (limit : Duration) (shown : α → CallEnd) (ending : CallEnd) :
    Except StoreError α → Prop
  | .ok a => ending = shown a
  | .error e => ending = .failed e ∨ ending = .cancelled ∧ e = .timeout limit

/-- An end that is told as an error that may pass is one that may. -/
theorem Tells.mayPass {limit : Duration} {shown : α → CallEnd} {ending : CallEnd} {e : StoreError}
    (h : ending.Tells limit shown (.error e)) (hpass : e.isRetryable = true) :
    ending.mayPass = true := by
  rcases h with rfl | ⟨rfl, -⟩
  · exact hpass
  · rfl

/-- An end that is told as an error is not that of a call that was carried out. -/
theorem Tells.not_isDone {limit : Duration} {shown : α → CallEnd} {ending : CallEnd}
    {e : StoreError} (h : ending.Tells limit shown (.error e)) : ending.isDone = false := by
  rcases h with rfl | ⟨rfl, -⟩ <;> rfl

/-- An end that may pass is not that of a call that was carried out. -/
theorem not_isDone_of_mayPass {ending : CallEnd} (h : ending.mayPass = true) :
    ending.isDone = false := by
  cases ending with
  | stored => cases h
  | removed present => cases h
  | placed partition => cases h
  | failed e => rfl
  | cancelled => rfl

end CallEnd

namespace Engine

/-! ## A single call -/

/-- A call under its limit is answered in time, well or with an error, or it is given up. -/
theorem callOnce_cases (engine : Engine σ)
    (request : Timeline (Site σ) → Reply (Site σ) (Except StoreError α)) (t : Timeline (Site σ)) :
    (∃ delay a, (request t).answer = .ok a ∧
      delay.timer.nanos ≤ engine.tuning.storeTimeout.timer.nanos ∧
      engine.callOnce request t = (.ok a, (t.answered delay (request t)).countCall .completed)) ∨
    (∃ delay e, (request t).answer = .error e ∧
      delay.timer.nanos ≤ engine.tuning.storeTimeout.timer.nanos ∧
      engine.callOnce request t = (.error e, (t.answered delay (request t)).countCall .failed)) ∨
    engine.callOnce request t = (.error (.timeout engine.tuning.storeTimeout),
      (t.givenUp engine.tuning.storeTimeout (request t)).countCall .elapsed) := by
  unfold callOnce Timeline.withLimitResult
  rcases t.await?_cases engine.tuning.storeTimeout (request t) with ⟨delay, -, hle, h⟩ | h
  · rw [h]
    cases hanswer : (request t).answer with
    | ok a => exact .inl ⟨delay, a, rfl, hle, rfl⟩
    | error e => exact .inr (.inl ⟨delay, e, rfl, hle, rfl⟩)
  · rw [h]
    exact .inr (.inr rfl)

/-- A request that is a call to the store, noted under its name. -/
structure Calls (request : Timeline (Site σ) → Reply (Site σ) (Except StoreError α))
    (call : StoreCall) (shown : α → CallEnd)
    (reply : Timeline (Site σ) → Reply σ (Except StoreError α)) : Prop where
  noted : ∀ t, request t = t.state.reply t.now call shown (reply t)

namespace Calls

variable {call : StoreCall} {shown : α → CallEnd}
  {request : Timeline (Site σ) → Reply (Site σ) (Except StoreError α)}
  {reply : Timeline (Site σ) → Reply σ (Except StoreError α)}

/-- The answer is that of the store. -/
theorem answer_eq (h : Calls request call shown reply) (t : Timeline (Site σ)) :
    (request t).answer = (reply t).answer := by
  rw [h.noted]
  rfl

/-- With an answer the state is the store's own, with a note of how the call ended. -/
theorem after_eq (h : Calls request call shown reply) (t : Timeline (Site σ)) :
    (request t).after =
      t.state.note (reply t).after t.now call (.ofAnswer shown (reply t).answer) := by
  rw [h.noted]
  rfl

/-- Without one the state is the store's own, with a note that the call was cut off. -/
theorem abandoned_eq (h : Calls request call shown reply) (t : Timeline (Site σ)) :
    (request t).abandoned = t.state.note (reply t).abandoned t.now call .cancelled := by
  rw [h.noted]
  rfl

end Calls

/-- Putting a record is the call of the action that writes it. -/
theorem calls_put (engine : Engine σ) (op : Operation) (record : Record) :
    Calls (engine.put record) (Action.upsert op record).call (fun _ => .stored) fun t =>
      engine.store.put record.kind record.key record.affinity record t.now t.state.store :=
  ⟨fun _ => rfl⟩

/-- Removing a key is the call of the action that takes it out. -/
theorem calls_remove (engine : Engine σ) (kind : Kind) (key : Int64) :
    Calls (engine.remove kind key) (Action.delete kind key).call .removed fun t =>
      engine.store.remove kind key t.now t.state.store :=
  ⟨fun _ => rfl⟩

/-- A single call leaves one note, which tells what the caller is told. -/
theorem note_callOnce (engine : Engine σ) {call : StoreCall} {shown : α → CallEnd}
    {request : Timeline (Site σ) → Reply (Site σ) (Except StoreError α)}
    {reply : Timeline (Site σ) → Reply σ (Except StoreError α)}
    (hcalls : Calls request call shown reply) (t : Timeline (Site σ)) :
    ∃ note, (engine.callOnce request t).2.state.calls = t.state.calls ++ [note] ∧
      note.call = call ∧
      note.ending.Tells engine.tuning.storeTimeout shown (engine.callOnce request t).1 := by
  have answered : ∀ {result}, (request t).answer = result →
      (request t).after.calls =
        t.state.calls ++ [⟨t.now, call, CallEnd.ofAnswer shown result⟩] := by
    intro result hanswer
    rw [hcalls.after_eq, ← hcalls.answer_eq, hanswer]
    rfl
  rcases engine.callOnce_cases request t with
    ⟨delay, a, hanswer, -, h⟩ | ⟨delay, e, hanswer, -, h⟩ | h
  · rw [h]
    exact ⟨_, answered hanswer, rfl, rfl⟩
  · rw [h]
    exact ⟨_, answered hanswer, rfl, .inl rfl⟩
  · rw [h]
    refine ⟨⟨t.now, call, .cancelled⟩, ?_, rfl, .inr ⟨rfl, rfl⟩⟩
    show (request t).abandoned.calls = _
    rw [hcalls.abandoned_eq]
    rfl

/-! ## The calls of an action -/

/-- The calls of an action give what the run of single calls gives, with a failure turned into a
rejection. -/
theorem call_fst (engine : Engine σ) (action : Action)
    (request : Timeline (Site σ) → Reply (Site σ) (Except StoreError α)) (t : Timeline (Site σ)) :
    (engine.call action request t).1 =
      (Retry.run engine.tuning.retry StoreError.isRetryable StoreError.message
        (engine.callOnce request) t).1.mapError
          fun f => .apply action.kind action.key action.operation f.attempts f.cause := by
  unfold call
  cases Retry.run engine.tuning.retry StoreError.isRetryable StoreError.message
    (engine.callOnce request) t with
  | mk result after => cases result <;> rfl

/-- The time that the calls of an action took is all that is changed after the run of single
calls. -/
theorem call_snd (engine : Engine σ) (action : Action)
    (request : Timeline (Site σ) → Reply (Site σ) (Except StoreError α)) (t : Timeline (Site σ)) :
    ∃ elapsed, (engine.call action request t).2 =
      (Retry.run engine.tuning.retry StoreError.isRetryable StoreError.message
        (engine.callOnce request) t).2.update
          (·.record (·.observe action.kind.collection elapsed)) := by
  unfold call
  cases Retry.run engine.tuning.retry StoreError.isRetryable StoreError.message
    (engine.callOnce request) t with
  | mk result after => cases result <;> exact ⟨_, rfl⟩

/-- The rejection of an action whose last call, after so many failed ones, ended with an error. -/
def rejection (action : Action) (failed : Nat) (e : StoreError) : Rejection :=
  .apply action.kind action.key action.operation
    (Retry.failure StoreError.isRetryable (failed + 1) e).attempts e

/-- The calls of an action are single calls that fail with errors that may pass, and one that
decides. -/
theorem call_eq_attempts {engine : Engine σ}
    (bounded : engine.tuning.retry.maxRetries.toNat < Retry.maxCount) (action : Action)
    (request : Timeline (Site σ) → Reply (Site σ) (Except StoreError α)) (t : Timeline (Site σ)) :
    ∃ errors t', Retry.Fails engine.tuning.retry StoreError.isRetryable StoreError.message
        (engine.callOnce request) 1 errors t t' ∧
      errors.length ≤ engine.tuning.retry.maxRetries.toNat ∧
      (engine.call action request t).1 =
        (engine.callOnce request t').1.mapError (rejection action errors.length) ∧
      (engine.call action request t).2.state.store =
        (engine.callOnce request t').2.state.store ∧
      (engine.call action request t).2.state.calls =
        (engine.callOnce request t').2.state.calls := by
  obtain ⟨errors, t', hfails, hlen, -, hrun⟩ := Retry.run_eq_conclude bounded
    StoreError.isRetryable StoreError.message (engine.callOnce request) t
  obtain ⟨elapsed, hsnd⟩ := engine.call_snd action request t
  have hstate := Retry.conclude_state StoreError.isRetryable StoreError.message
    (errors.length + 1) (engine.callOnce request t').1 (engine.callOnce request t').2
  rw [← hrun] at hstate
  refine ⟨errors, t', hfails, hlen, ?_, ?_, ?_⟩
  · rw [call_fst, hrun, Retry.conclude_fst]
    cases (engine.callOnce request t').1 with
    | ok a => rfl
    | error e =>
      simp only [Except.mapError, Retry.cause_failure]
      rfl
  · have hstore := congrArg Site.store hstate
    rw [hsnd]
    exact hstore
  · have hcalls := congrArg Site.calls hstate
    rw [hsnd]
    exact hcalls

/-- What the notes of the calls for an action tell: some failed in a way that may pass, no more than
there are retries, and the last one ended as the result says. -/
structure Attempts (engine : Engine σ) (action : Action) (failed : List CallNote)
    (last : CallNote) (result : Except Rejection CallEnd) : Prop where
  mayPass : ∀ note ∈ failed, note.call = action.call ∧ note.ending.mayPass = true
  length_le : failed.length ≤ engine.tuning.retry.maxRetries.toNat
  call_last : last.call = action.call
  ok : ∀ ending, result = .ok ending → last.ending = ending
  error : ∀ e, result = .error e → last.ending.isDone = false ∧
    ∃ cause, e = rejection action failed.length cause

/-- Every attempt is the call of the action. -/
theorem Attempts.call_eq {engine : Engine σ} {action : Action} {failed : List CallNote}
    {last : CallNote} {result : Except Rejection CallEnd}
    (h : engine.Attempts action failed last result) :
    ∀ note ∈ failed ++ [last], note.call = action.call := by
  intro note hnote
  rcases List.mem_append.1 hnote with hnote | hnote
  · exact (h.mayPass note hnote).1
  · rw [List.mem_singleton.1 hnote]
    exact h.call_last

/-- Where an action is rejected, none of its attempts was carried out. -/
theorem Attempts.not_isDone {engine : Engine σ} {action : Action} {failed : List CallNote}
    {last : CallNote} {e : Rejection} (h : engine.Attempts action failed last (.error e)) :
    ∀ note ∈ failed ++ [last], note.ending.isDone = false := by
  intro note hnote
  rcases List.mem_append.1 hnote with hnote | hnote
  · exact CallEnd.not_isDone_of_mayPass (h.mayPass note hnote).2
  · rw [List.mem_singleton.1 hnote]
    exact (h.error e rfl).1

/-- Calls that fail and the one behind them leave a note each: the first ones of ends that may pass,
and the last one of what its caller was told. -/
theorem notes_of_fails (engine : Engine σ) {call : StoreCall} {shown : α → CallEnd}
    {request : Timeline (Site σ) → Reply (Site σ) (Except StoreError α)}
    {reply : Timeline (Site σ) → Reply σ (Except StoreError α)}
    (hcalls : Calls request call shown reply) {attempt : Nat} {errors : List StoreError}
    {t t' : Timeline (Site σ)}
    (hfails : Retry.Fails engine.tuning.retry StoreError.isRetryable StoreError.message
      (engine.callOnce request) attempt errors t t') :
    ∃ failed last, (engine.callOnce request t').2.state.calls =
        t.state.calls ++ (failed ++ [last]) ∧
      failed.length = errors.length ∧
      (∀ note ∈ failed, note.call = call ∧ note.ending.mayPass = true) ∧
      last.call = call ∧
      last.ending.Tells engine.tuning.storeTimeout shown (engine.callOnce request t').1 := by
  obtain ⟨failed, hwritten, hcount, hpass⟩ :=
    hfails.writes Site.calls (fun note => note.call = call ∧ note.ending.mayPass = true) (by
      intro t e t' ho hretry
      obtain ⟨note, hnote, hcall, htells⟩ := engine.note_callOnce hcalls t
      rw [ho] at hnote htells
      exact ⟨note, hnote, hcall, htells.mayPass hretry⟩)
  obtain ⟨last, hnote, hcall, htells⟩ := engine.note_callOnce hcalls t'
  exact ⟨failed, last, by rw [hnote, hwritten, List.append_assoc], hcount, hpass, hcall, htells⟩

/-- The calls of an action are noted as its attempts. -/
theorem attempts_call {engine : Engine σ}
    (bounded : engine.tuning.retry.maxRetries.toNat < Retry.maxCount) {action : Action}
    {shown : α → CallEnd} {request : Timeline (Site σ) → Reply (Site σ) (Except StoreError α)}
    {reply : Timeline (Site σ) → Reply σ (Except StoreError α)}
    (hcalls : Calls request action.call shown reply) (t : Timeline (Site σ)) :
    ∃ failed last, (engine.call action request t).2.state.calls =
        t.state.calls ++ (failed ++ [last]) ∧
      engine.Attempts action failed last ((engine.call action request t).1.map shown) := by
  obtain ⟨errors, t', hfails, hlen, hresult, -, hnotes⟩ :=
    call_eq_attempts bounded action request t
  obtain ⟨failed, last, hwritten, hcount, hpass, hcall, htells⟩ :=
    engine.notes_of_fails hcalls hfails
  refine ⟨failed, last, hnotes.trans hwritten, hpass, hcount ▸ hlen,
    hcall, fun ending hok => ?_, fun e herror => ?_⟩
  · cases hlast : (engine.callOnce request t').1 with
    | ok a =>
      rw [hresult, hlast] at hok
      rw [hlast] at htells
      cases hok
      exact htells
    | error e =>
      rw [hresult, hlast] at hok
      cases hok
  · cases hlast : (engine.callOnce request t').1 with
    | ok a =>
      rw [hresult, hlast] at herror
      cases herror
    | error cause =>
      rw [hresult, hlast] at herror
      rw [hlast] at htells
      cases herror
      exact ⟨htells.not_isDone, cause, by rw [hcount]⟩

/-- Makes the calls that an action needs to take effect, and tells how the last of them ended. -/
def change (engine : Engine σ) (action : Action) (t : Timeline (Site σ)) :
    Except Rejection CallEnd × Timeline (Site σ) :=
  match action with
  | .upsert _ record =>
    (engine.call action (engine.put record) t).map (·.map fun _ => .stored) id
  | .delete kind key => (engine.call action (engine.remove kind key) t).map (·.map .removed) id

/-- The calls that an action needs are noted as its attempts. -/
theorem attempts_change {engine : Engine σ}
    (bounded : engine.tuning.retry.maxRetries.toNat < Retry.maxCount) (action : Action)
    (t : Timeline (Site σ)) :
    ∃ failed last, (engine.change action t).2.state.calls = t.state.calls ++ (failed ++ [last]) ∧
      engine.Attempts action failed last (engine.change action t).1 := by
  cases action with
  | upsert op record => exact attempts_call bounded (engine.calls_put op record) t
  | delete kind key => exact attempts_call bounded (engine.calls_remove kind key) t

/-! ## What follows the calls of an action -/

/-- From one timeline to another the store is asked for nothing but partitions. -/
structure Inspects (engine : Engine σ) (t t' : Timeline (Site σ)) : Prop where
  calls : ∃ lookUps, t'.state.calls = t.state.calls ++ lookUps ∧
    ∀ note ∈ lookUps, note.call.isLookUp = true
  keeps : ∀ {β : Type} {view : σ → β}, engine.LooksOnly view →
    view t'.state.store = view t.state.store

/-- Where the store and its calls are the same, nothing was asked. -/
theorem Inspects.of_same {engine : Engine σ} {t t' : Timeline (Site σ)}
    (hcalls : t'.state.calls = t.state.calls) (hstore : t'.state.store = t.state.store) :
    engine.Inspects t t' where
  calls := ⟨[], by rw [hcalls, List.append_nil], fun _ hl => absurd hl List.not_mem_nil⟩
  keeps _ := by rw [hstore]

/-- A call that an engine makes for a record that is written: the record has a parent, partitions
are compared, and the call asks for that of the record or of the parent. -/
def Compares (engine : Engine σ) (record : Record) (call : StoreCall) : Prop :=
  engine.tuning.verifyAffinity = true ∧ ∃ parent, record.affinity = some parent ∧
    (call = .partitionOf record.kind record.key ∨ call = .partitionOf parent.kind parent.key)

/-- What compares a record with its parent is a lookup. -/
theorem Compares.isLookUp {engine : Engine σ} {record : Record} {call : StoreCall}
    (h : engine.Compares record call) : call.isLookUp = true := by
  obtain ⟨-, parent, -, rfl | rfl⟩ := h <;> rfl

/-- A look makes no call but one that compares the record with its parent. -/
theorem Look.calls {engine : Engine σ} {record : Record} {t t' : Timeline (Site σ)}
    (h : engine.Look record t t') :
    ∃ lookUps, t'.state.calls = t.state.calls ++ lookUps ∧
      ∀ note ∈ lookUps, engine.Compares record note.call := by
  cases h with
  | @lookUp parent place _ limit on child hplace =>
    have hcompares : engine.Compares record (.partitionOf place.kind place.key) := by
      refine ⟨on, parent, child, ?_⟩
      rcases hplace with rfl | rfl
      · exact .inl rfl
      · exact .inr rfl
    rcases t.await?_cases limit (engine.partitionOf place t) with ⟨delay, -, -, hc⟩ | hc
    · rw [hc]
      exact ⟨[_], rfl, fun note hl => by rw [List.mem_singleton.1 hl]; exact hcompares⟩
    · rw [hc]
      exact ⟨[_], rfl, fun note hl => by rw [List.mem_singleton.1 hl]; exact hcompares⟩
  | log => exact ⟨[], (List.append_nil _).symm, fun _ hl => absurd hl List.not_mem_nil⟩

/-- A chain of looks makes no call but those that compare the record with its parent. -/
theorem Looks.calls {engine : Engine σ} {record : Record} {t t' : Timeline (Site σ)}
    (h : engine.Looks record t t') :
    ∃ lookUps, t'.state.calls = t.state.calls ++ lookUps ∧
      ∀ note ∈ lookUps, engine.Compares record note.call := by
  induction h with
  | refl => exact ⟨[], (List.append_nil _).symm, fun _ hl => absurd hl List.not_mem_nil⟩
  | tail _ look ih =>
    obtain ⟨first, hfirst, hall⟩ := ih
    obtain ⟨second, hsecond, hall'⟩ := look.calls
    refine ⟨first ++ second, by rw [hsecond, hfirst, List.append_assoc], fun note hl => ?_⟩
    rcases List.mem_append.1 hl with hl | hl
    · exact hall note hl
    · exact hall' note hl

/-- A chain of looks asks for nothing but partitions. -/
theorem Looks.inspects {engine : Engine σ} {record : Record} {t t' : Timeline (Site σ)}
    (h : engine.Looks record t t') : engine.Inspects t t' where
  keeps hlook := hlook.looks h
  calls := by
    obtain ⟨lookUps, hcalls, hall⟩ := Looks.calls h
    exact ⟨lookUps, hcalls, fun note hl => (hall note hl).isLookUp⟩

/-- Performing an action comes to what its calls come to, and does no more than ask for partitions
once they are made. -/
theorem perform_eq_change (engine : Engine σ) (action : Action) (t : Timeline (Site σ)) :
    (engine.perform action t).1 = (engine.change action t).1.map (fun _ => ()) ∧
      engine.Inspects (engine.change action t).2 (engine.perform action t).2 := by
  cases action with
  | upsert op record =>
    unfold perform change
    dsimp only
    split
    · next h =>
      rw [h]
      exact ⟨rfl, Looks.inspects (engine.looks_verifyRecord record _)⟩
    · next h =>
      rw [h]
      exact ⟨rfl, .of_same rfl rfl⟩
  | delete kind key =>
    unfold perform change
    dsimp only
    split <;> next h =>
      rw [h]
      exact ⟨rfl, .of_same rfl rfl⟩

/-- Behind the calls of an action come none but those that compare a record with its parent, once it
is written. -/
theorem lookUps_perform (engine : Engine σ) (action : Action) (t : Timeline (Site σ)) :
    ∃ lookUps, (engine.perform action t).2.state.calls =
        (engine.change action t).2.state.calls ++ lookUps ∧
      ∀ note ∈ lookUps, (engine.change action t).1 = .ok .stored ∧
        ∃ op record, action = .upsert op record ∧ engine.Compares record note.call := by
  have nothing : ∀ {t' : Timeline (Site σ)} {P : CallNote → Prop},
      ∃ lookUps, t'.state.calls = t'.state.calls ++ lookUps ∧ ∀ note ∈ lookUps, P note :=
    ⟨[], (List.append_nil _).symm, List.forall_mem_nil _⟩
  cases action with
  | upsert op record =>
    unfold perform change
    dsimp only
    split
    · next t' h =>
      rw [h]
      obtain ⟨lookUps, hcalls, hall⟩ := Looks.calls (engine.looks_verifyRecord record t')
      exact ⟨lookUps, hcalls, fun note hl => ⟨rfl, op, record, rfl, hall note hl⟩⟩
    · next h =>
      rw [h]
      exact nothing
  | delete kind key =>
    unfold perform change
    dsimp only
    split <;> next h =>
      rw [h]
      exact nothing

/-! ## Requests -/

/-- The action that is planned for the event of a request. -/
def Plans (engine : Engine σ) (request : Request) (action : Action) : Prop :=
  ∃ event, request.event? = some event ∧ engine.router.plan event = .ok action

/-- The action that is planned for the event of a request, if there is one. -/
def action? (engine : Engine σ) (request : Request) : Option Action :=
  request.event?.bind fun event => (engine.router.plan event).toOption

end Engine

/-- A message without an event is not rejected on behalf of the store. -/
theorem ChangeEvent.reason_of_ofMessage {message : Message} {e : Rejection}
    (h : ChangeEvent.ofMessage message = .error e) : e.reason ≠ .apply := by
  unfold ChangeEvent.ofMessage ChangeEvent.ofBytes at h
  split at h
  · cases h
    nofun
  · cases h
    nofun
  · split at h <;> cases h
    nofun

/-- An event without an action is not rejected on behalf of the store. -/
theorem Router.reason_of_plan {router : Router} {event : ChangeEvent} {e : Rejection}
    (h : router.plan event = .error e) : e.reason ≠ .apply := by
  unfold Router.plan at h
  split at h
  · cases h
    nofun
  · next kind _ =>
    -- The event has no image at all, not the one that its operation uses, or one that cannot be
    -- read.
    unfold ChangeEvent.validate ChangeEvent.image Kind.action at h
    split at h
    · cases h
      nofun
    · split at h
      · dsimp only [bind, Except.bind] at h
        split at h <;> split at h <;> cases h <;> nofun
      · cases h
        nofun

namespace Engine

/-- Carrying out an event for which no action is planned does nothing to the store. Otherwise it
comes to what the calls of the action come to. -/
theorem carryOut_cases (engine : Engine σ) (event : ChangeEvent) (t : Timeline (Site σ)) :
    (∃ e, engine.router.plan event = .error e ∧ (engine.carryOut event t).1 = .error e ∧
      (engine.carryOut event t).2.state = t.state) ∨
    ∃ action, engine.router.plan event = .ok action ∧
      (engine.carryOut event t).1 = (engine.change action t).1.map (fun _ => action) ∧
      engine.Inspects (engine.change action t).2 (engine.carryOut event t).2 := by
  cases hplan : engine.router.plan event with
  | error e =>
    rw [carryOut_of_error hplan]
    refine .inl ⟨e, rfl, rfl, ?_⟩
    cases e <;> rfl
  | ok action =>
    obtain ⟨hresult, hafter⟩ := engine.perform_eq_change action t
    rw [carryOut_of_ok hplan, hresult]
    refine .inr ⟨action, rfl, ?_, hafter⟩
    cases (engine.change action t).1 <;> rfl

/-- A request for which no action is planned is rejected without a call to the store. Any other
comes to what the calls of its action come to. -/
theorem serve_cases (engine : Engine σ) (request : Request) (t : Timeline (Site σ)) :
    (∃ e, e.reason ≠ .apply ∧ (engine.serve request t).1 = .rejected e ∧
      (engine.serve request t).2.state.calls = t.state.calls ∧
      (engine.serve request t).2.state.store = t.state.store) ∨
    ∃ action, engine.Plans request action ∧
      (engine.serve request t).1 =
        .ofResult ((engine.change action t).1.map fun _ => action) ∧
      engine.Inspects (engine.change action t).2 (engine.serve request t).2 := by
  rcases engine.serve_eq_carryOut request t with
    ⟨message, e, -, hread, hserve⟩ | ⟨event, origin, hevent, hserve⟩
  · rw [hserve]
    exact .inl ⟨e, ChangeEvent.reason_of_ofMessage hread, rfl, rfl, rfl⟩
  · rw [hserve]
    rcases engine.carryOut_cases event t with ⟨e, hplan, hresult, hstate⟩ |
      ⟨action, hplan, hresult, hafter⟩
    · have hcalls : (engine.carryOut event t).2.state.calls = t.state.calls := by rw [hstate]
      have hstore : (engine.carryOut event t).2.state.store = t.state.store := by rw [hstate]
      refine .inl ⟨e, Router.reason_of_plan hplan, ?_, hcalls, hstore⟩
      rw [hresult]
      rfl
    · refine .inr ⟨action, ⟨event, hevent, hplan⟩, ?_, hafter.calls, hafter.keeps⟩
      rw [hresult]
      rfl

end Engine

end ChangeFeed
