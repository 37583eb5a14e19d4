import ChangeFeed.Engine.Handle
import ChangeFeed.Proofs.Retry.Attempts
import ChangeFeed.Proofs.Timeline.Waiting
import Mathlib.Logic.Relation

/-!
# The work of an engine

Between the moment it is given an event and the moment it concludes it, an engine does nothing but
a few small things: it waits for a call to the store that the event's action asks for, lets a timer
run, counts, and writes lines. `Engine.Move` lists them, with what allows each, and `Engine.Works`
is a chain of them. `works_carryOut` shows that carrying out an event is such a chain, so that a
fact about the whole of it needs a look at each move only. Two such facts follow: the work changes
none of the counts (`Works.recorder`), and of the lines that tell how an event ended it writes none
but what the store itself reports (`Works.journal`).

Once a record is written, what is left to do is to compare its place with its parent's. That is a
chain of moves of its own, of which `Engine.Look` lists the kinds: it changes nothing of the store
but what a lookup of a partition changes (`LooksOnly.looks`).
-/

namespace ChangeFeed

variable {σ α β ε : Type}

/-- Whether a line tells how an event ended. -/
def Journal.Line.IsTerminal (line : Journal.Line) : Prop :=
  line.message = "Applied change event" ∨
    ∃ cause, line.message = "Rejected change event: " ++ cause

/-- The lines that a store may report with its answers. -/
inductive StoreAdapter.Writes (adapter : StoreAdapter σ) (line : Journal.Line) : Prop
  | put {kind key affinity record now s}
      (h : line ∈ (adapter.put kind key affinity record now s).lines)
  | remove {kind key now s} (h : line ∈ (adapter.remove kind key now s).lines)
  | partitionOf {kind key now s} (h : line ∈ (adapter.partitionOf kind key now s).lines)

namespace Engine

/-- One of the small things that an engine does for an action, or for an event without one. -/
inductive Move (engine : Engine σ) :
    Option Action → Timeline (Site σ) → Timeline (Site σ) → Prop
  | put {op record t} (limit : Duration) :
      Move engine (some (.upsert op record)) t (t.await? limit (engine.put record t)).2
  | remove {kind key t} (limit : Duration) :
      Move engine (some (.delete kind key)) t (t.await? limit (engine.remove kind key t)).2
  /-- Partitions are looked up for a record with a parent only, and only its own and the
  parent's. -/
  | lookUp {op record parent place t} (limit : Duration)
      (on : engine.tuning.verifyAffinity = true) (child : record.affinity = some parent)
      (h : place = ⟨record.kind, record.key⟩ ∨ place = parent) :
      Move engine (some (.upsert op record)) t (t.await? limit (engine.partitionOf place t)).2
  | sleep {action t} (d : Duration) : Move engine action t (t.sleep d)
  | draw {action t} (factors : List Binary64) : Move engine action t { t with factors := factors }
  | countCall {action t} (result : CallResult) : Move engine action t (t.countCall result)
  | countAttempts {action t} (verdict : Verdict) (attempts : Nat) :
      Move engine action t (t.countAttempts verdict attempts)
  | observe {action t} (collection : String) (elapsed : Duration) :
      Move engine action t (t.update (·.record (·.observe collection elapsed)))
  | log {action t} (level : Journal.Level) (message : String)
      (fields : List (String × Journal.Value))
      (h : ¬ (⟨level, message, fields⟩ : Journal.Line).IsTerminal) :
      Move engine action t (t.log level message fields)

/-- A chain of moves. -/
abbrev Works (engine : Engine σ) (action : Option Action) :
    Timeline (Site σ) → Timeline (Site σ) → Prop :=
  Relation.ReflTransGen (engine.Move action)

open Relation

/-! ## Calls to the store -/

/-- A line whose text begins otherwise than those about the end of an event is none of them. -/
theorem not_isTerminal {level : Journal.Level} {message : String}
    {fields : List (String × Journal.Value)}
    (h : message.toList.take 3 ≠ ['A', 'p', 'p'] ∧ message.toList.take 3 ≠ ['R', 'e', 'j']) :
    ¬ (⟨level, message, fields⟩ : Journal.Line).IsTerminal := by
  -- The first three letters tell the two texts from all others.
  rintro (rfl | ⟨cause, rfl⟩)
  · exact h.1 (by decide)
  · exact h.2 (by simp [String.toList_append])

/-- The pause between two attempts is work. -/
theorem works_pause (engine : Engine σ) (action : Option Action) (policy : Retry.Policy)
    (causeMessage : ε → String) (attempt : Nat) (e : ε) (t : Timeline (Site σ)) :
    engine.Works action t (Retry.pause policy causeMessage attempt e t) := by
  -- A wait that is stretched takes the next factor, if there is one left.
  have hdraw : engine.Works action t (Retry.nextWait policy attempt t).2 := by
    unfold Retry.nextWait
    dsimp only
    split
    · split
      · exact .single (.draw _)
      · exact .refl
    · exact .refl
  unfold Retry.pause
  dsimp only
  refine (hdraw.tail (.log _ _ _ ?_)).tail (.sleep _)
  exact not_isTerminal (by simp [String.toList_append])

/-- Retrying an operation is work if the operation is. -/
theorem works_retry {engine : Engine σ} {action : Option Action} {policy : Retry.Policy}
    {isRetryable : ε → Bool} {causeMessage : ε → String}
    {operation : Timeline (Site σ) → Except ε α × Timeline (Site σ)}
    (hop : ∀ t, engine.Works action t (operation t).2) (room attempt : Nat)
    (t : Timeline (Site σ)) :
    engine.Works action t
      (Retry.loop policy isRetryable causeMessage operation room attempt t).2 :=
  Retry.loop_induct (P := engine.Works action t) (fun u h => h.trans (hop u))
    (fun u n e h => h.trans (engine.works_pause action policy causeMessage n e u))
    (fun _ _ _ h => h.tail (.log _ _ _ (not_isTerminal (by decide))))
    (fun _ verdict n h => h.tail (.countAttempts verdict n)) room attempt .refl

/-- However a single call ends, it is a wait for its answer, and its end is counted. -/
theorem callOnce_snd (engine : Engine σ)
    (request : Timeline (Site σ) → Reply (Site σ) (Except StoreError α)) (t : Timeline (Site σ)) :
    ∃ result, (engine.callOnce request t).2 =
      (t.await? engine.tuning.storeTimeout (request t)).2.countCall result := by
  obtain ⟨result, hcount⟩ := t.withLimitResult_snd engine.tuning.storeTimeout (request t)
  refine ⟨result, ?_⟩
  rw [← hcount]
  unfold callOnce
  split <;> simp only [*]

/-- A single call is work if waiting for its answer is a move. -/
theorem works_callOnce {engine : Engine σ} {action : Option Action}
    {request : Timeline (Site σ) → Reply (Site σ) (Except StoreError α)}
    (hmove : ∀ t limit, engine.Move action t (t.await? limit (request t)).2)
    (t : Timeline (Site σ)) : engine.Works action t (engine.callOnce request t).2 := by
  obtain ⟨result, h⟩ := engine.callOnce_snd request t
  rw [h]
  exact (ReflTransGen.single (hmove t _)).tail (.countCall result)

/-- A call with its retries is work if waiting for its answer is a move. -/
theorem works_call {engine : Engine σ} {action : Option Action} (of : Action)
    {request : Timeline (Site σ) → Reply (Site σ) (Except StoreError α)}
    (hmove : ∀ t limit, engine.Move action t (t.await? limit (request t)).2)
    (t : Timeline (Site σ)) : engine.Works action t (engine.call of request t).2 := by
  have hrun : engine.Works action t (Retry.run engine.tuning.retry StoreError.isRetryable
      StoreError.message (engine.callOnce request) t).2 :=
    works_retry (works_callOnce hmove) _ _ t
  unfold call
  dsimp only
  split <;> exact hrun.tail (.observe _ _)

/-! ## Comparing partitions -/

/-- One of the things that an engine does to compare the place of a record with its parent's: it
looks up either one's partition, or writes a line. -/
inductive Look (engine : Engine σ) (record : Record) :
    Timeline (Site σ) → Timeline (Site σ) → Prop
  | lookUp {parent place t} (limit : Duration) (on : engine.tuning.verifyAffinity = true)
      (child : record.affinity = some parent)
      (h : place = ⟨record.kind, record.key⟩ ∨ place = parent) :
      Look engine record t (t.await? limit (engine.partitionOf place t)).2
  | log {t} (level : Journal.Level) (message : String) (fields : List (String × Journal.Value))
      (h : ¬ (⟨level, message, fields⟩ : Journal.Line).IsTerminal) :
      Look engine record t (t.log level message fields)

/-- A chain of looks. -/
abbrev Looks (engine : Engine σ) (record : Record) :
    Timeline (Site σ) → Timeline (Site σ) → Prop :=
  Relation.ReflTransGen (engine.Look record)

/-- Looking up a record's partition and its parent's is a chain of looks. -/
theorem looks_lookUp {engine : Engine σ} {record : Record} {parent : Affinity}
    (on : engine.tuning.verifyAffinity = true) (child : record.affinity = some parent)
    (t : Timeline (Site σ)) :
    engine.Looks record t (engine.lookUp ⟨record.kind, record.key⟩ parent t).2 := by
  have look : ∀ {place t r t'} limit, place = ⟨record.kind, record.key⟩ ∨ place = parent →
      t.await? limit (engine.partitionOf place t) = (r, t') → engine.Look record t t' := by
    intro place t r t' limit hplace h
    have hlook := Look.lookUp (t := t) limit on child hplace
    rwa [h] at hlook
  unfold lookUp
  dsimp only
  split
  · next h => exact .single (look _ (.inl rfl) h)
  · next h =>
    have hown := ReflTransGen.single (look _ (.inl rfl) h)
    split
    · next h' => exact hown.tail (look _ (.inr rfl) h')
    · next h' => exact hown.tail (look _ (.inr rfl) h')

/-- Comparing a record's partition with its parent's is a chain of looks. -/
theorem looks_verifyRecord (engine : Engine σ) (record : Record) (t : Timeline (Site σ)) :
    engine.Looks record t (engine.verifyRecord record t) := by
  unfold verifyRecord
  split
  · next parent child =>
    split
    · next on =>
      have hlook : engine.Looks record t _ := looks_lookUp on child t
      -- Only partitions that agree are passed over in silence.
      unfold verify
      dsimp only
      split
      · next h =>
        rw [h] at hlook
        exact hlook.tail (.log _ _ _ (not_isTerminal (by decide)))
      · next h =>
        rw [h] at hlook
        split
        · exact hlook
        · exact hlook.tail (.log _ _ _ (not_isTerminal (by decide)))
      · next h =>
        rw [h] at hlook
        exact hlook.tail (.log _ _ _ (not_isTerminal (by decide)))
      · next h =>
        rw [h] at hlook
        exact hlook.tail (.log _ _ _ (not_isTerminal (by decide)))
    · exact .refl
  · exact .refl

/-- An engine whose lookups of partitions leave a view of the store as it is, whether they are
answered or given up. -/
def LooksOnly (engine : Engine σ) (view : σ → β) : Prop :=
  ∀ place t, view (engine.partitionOf place t).after.store = view t.state.store ∧
    view (engine.partitionOf place t).abandoned.store = view t.state.store

/-- A look leaves the view as it is. -/
theorem LooksOnly.look {engine : Engine σ} {view : σ → β} (hlook : engine.LooksOnly view)
    {record : Record} {t t' : Timeline (Site σ)} (h : engine.Look record t t') :
    view t'.state.store = view t.state.store := by
  cases h with
  | @lookUp parent place _ limit =>
    -- The lookup is answered, or it is given up.
    obtain ⟨hafter, habandoned⟩ := hlook place t
    rcases t.await?_cases limit (engine.partitionOf place t) with ⟨delay, -, -, hc⟩ | hc
    · rw [hc]
      exact hafter
    · rw [hc]
      exact habandoned
  | log => rfl

/-- A chain of looks leaves the view as it is. -/
theorem LooksOnly.looks {engine : Engine σ} {view : σ → β} (hlook : engine.LooksOnly view)
    {record : Record} {t t' : Timeline (Site σ)} (h : engine.Looks record t t') :
    view t'.state.store = view t.state.store := by
  induction h with
  | refl => rfl
  | tail _ h ih => rw [hlook.look h, ih]

/-- A look is a move. -/
theorem Look.move {engine : Engine σ} {op : Operation} {record : Record}
    {t t' : Timeline (Site σ)} (h : engine.Look record t t') :
    engine.Move (some (.upsert op record)) t t' := by
  cases h with
  | lookUp limit on child h => exact .lookUp limit on child h
  | log level message fields h => exact .log level message fields h

/-! ## Carrying out an event -/

/-- Performing an action is work. -/
theorem works_perform (engine : Engine σ) (action : Action) (t : Timeline (Site σ)) :
    engine.Works (some action) t (engine.perform action t).2 := by
  cases action with
  | upsert op record =>
    have hcall : engine.Works (some (.upsert op record)) t
        (engine.call (.upsert op record) (engine.put record) t).2 :=
      works_call _ (fun _ limit => .put limit) t
    unfold perform
    dsimp only
    split
    · next h =>
      rw [h] at hcall
      -- The record is written. What is left is to compare its place with its parent's.
      exact hcall.trans ((engine.looks_verifyRecord record _).lift id fun _ _ => Look.move)
    · next h =>
      rw [h] at hcall
      exact hcall
  | delete kind key =>
    have hcall : engine.Works (some (.delete kind key)) t
        (engine.call (.delete kind key) (engine.remove kind key) t).2 :=
      works_call _ (fun _ limit => .remove limit) t
    unfold perform
    dsimp only
    split
    · next h =>
      rw [h] at hcall
      exact hcall
    · next h =>
      rw [h] at hcall
      exact hcall.tail (.log _ _ _ (not_isTerminal (by decide)))
    · next h =>
      rw [h] at hcall
      exact hcall

/-- Carrying out an event is work on the action that is planned for it. -/
theorem works_carryOut (engine : Engine σ) (event : ChangeEvent) (t : Timeline (Site σ)) :
    engine.Works (engine.router.plan event).toOption t (engine.carryOut event t).2 := by
  cases hplan : engine.router.plan event with
  | error e =>
    rw [carryOut_of_error hplan]
    dsimp only
    unfold reportUnrouted
    split
    · exact .single (.log _ _ _ (not_isTerminal (by decide)))
    · exact .refl
  | ok action =>
    rw [carryOut_of_ok hplan]
    exact works_perform engine action t

/-- A message without an event is concluded at once. -/
theorem handle_of_error {engine : Engine σ} {message : Message} {e : Rejection}
    (h : ChangeEvent.ofMessage message = .error e) (t : Timeline (Site σ)) :
    engine.handle message t = finish ⟨some message, none⟩ (.error e) t := by
  unfold handle
  rw [h]

/-- A message with an event is concluded with what came of carrying the event out. -/
theorem handle_of_ok {engine : Engine σ} {message : Message} {event : ChangeEvent}
    (h : ChangeEvent.ofMessage message = .ok event) (t : Timeline (Site σ)) :
    engine.handle message t =
      finish ⟨some message, event.timestamp⟩ (engine.carryOut event t).1
        (engine.carryOut event t).2 := by
  unfold handle
  rw [h]

/-! ## What the work leaves alone -/

/-- Waiting for the store leaves the recorder alone and writes no line but those that the store
reports. -/
theorem await?_reply (t : Timeline (Site σ)) (limit : Duration) (call : StoreCall)
    (shown : α → CallEnd) (reply : Reply σ (Except StoreError α)) :
    (t.await? limit (t.state.reply t.now call shown reply)).2.state.recorder =
        t.state.recorder ∧
      ∃ written, (t.await? limit (t.state.reply t.now call shown reply)).2.journal =
          t.journal ++ written ∧ ∀ line ∈ written, line ∈ reply.lines := by
  rcases t.await?_cases limit (t.state.reply t.now call shown reply) with
    ⟨delay, -, -, h⟩ | h
  · rw [h]
    exact ⟨rfl, reply.lines, rfl, fun _ hl => hl⟩
  · rw [h]
    exact ⟨rfl, [], (List.append_nil _).symm, fun _ hl => absurd hl List.not_mem_nil⟩

/-- Comparing places leaves the recorder alone. -/
theorem Looks.recorder {engine : Engine σ} {record : Record} {t t' : Timeline (Site σ)}
    (h : engine.Looks record t t') : t'.state.recorder = t.state.recorder := by
  induction h with
  | refl => rfl
  | tail _ look ih =>
    cases look with
    | lookUp => exact (await?_reply ..).1.trans ih
    | log => exact ih

/-- Comparing places counts nothing. -/
theorem Looks.tally {engine : Engine σ} {record : Record} {t t' : Timeline (Site σ)}
    (h : engine.Looks record t t') : t'.tally = t.tally := by
  induction h with
  | refl => rfl
  | @tail u _ _ look ih =>
    cases look with
    | @lookUp _ place _ limit =>
      rcases u.await?_cases limit (engine.partitionOf place u) with ⟨delay, -, -, h⟩ | h
      · rw [h]
        exact ih
      · rw [h]
        exact ih
    | log => exact ih

/-- A move changes nothing of the recorder but the durations. -/
theorem Move.recorder {engine : Engine σ} {action : Option Action} {t t' : Timeline (Site σ)}
    (h : engine.Move action t t') :
    ∃ durations, t'.state.recorder = { t.state.recorder with durations := durations } := by
  cases h with
  | put limit => exact ⟨_, (await?_reply ..).1⟩
  | remove limit => exact ⟨_, (await?_reply ..).1⟩
  | lookUp limit => exact ⟨_, (await?_reply ..).1⟩
  | observe collection elapsed => exact ⟨_, rfl⟩
  | sleep => exact ⟨_, rfl⟩
  | draw => exact ⟨_, rfl⟩
  | countCall => exact ⟨_, rfl⟩
  | countAttempts => exact ⟨_, rfl⟩
  | log => exact ⟨_, rfl⟩

/-- A move writes no line that tells how an event ended, unless the store reports one. -/
theorem Move.journal {engine : Engine σ} {action : Option Action} {t t' : Timeline (Site σ)}
    (h : engine.Move action t t') :
    ∃ written, t'.journal = t.journal ++ written ∧
      ∀ line ∈ written, line.IsTerminal → engine.store.Writes line := by
  -- Only the store and the engine's own lines add to the journal.
  have nothing : ∃ written : List Journal.Line, t.journal = t.journal ++ written ∧
      ∀ line ∈ written, line.IsTerminal → engine.store.Writes line :=
    ⟨[], (List.append_nil _).symm, fun _ hl => absurd hl List.not_mem_nil⟩
  cases h with
  | put limit =>
    obtain ⟨written, hw, hmem⟩ := (await?_reply t limit ..).2
    exact ⟨written, hw, fun line hl _ => .put (hmem line hl)⟩
  | remove limit =>
    obtain ⟨written, hw, hmem⟩ := (await?_reply t limit ..).2
    exact ⟨written, hw, fun line hl _ => .remove (hmem line hl)⟩
  | lookUp limit =>
    obtain ⟨written, hw, hmem⟩ := (await?_reply t limit ..).2
    exact ⟨written, hw, fun line hl _ => .partitionOf (hmem line hl)⟩
  | log level message fields hown =>
    refine ⟨[⟨level, message, fields⟩], rfl, fun line hl hterminal => ?_⟩
    rw [List.mem_singleton.1 hl] at hterminal
    exact absurd hterminal hown
  | observe => exact nothing
  | sleep => exact nothing
  | draw => exact nothing
  | countCall => exact nothing
  | countAttempts => exact nothing

/-- Work changes nothing of the recorder but the durations. -/
theorem Works.recorder {engine : Engine σ} {action : Option Action} {t t' : Timeline (Site σ)}
    (h : engine.Works action t t') :
    ∃ durations, t'.state.recorder = { t.state.recorder with durations := durations } := by
  induction h with
  | refl => exact ⟨_, rfl⟩
  | tail _ move ih =>
    obtain ⟨_, hfirst⟩ := ih
    obtain ⟨durations, hmove⟩ := move.recorder
    exact ⟨durations, by rw [hmove, hfirst]⟩

/-- Work leaves every count as it is. -/
theorem Works.read {engine : Engine σ} {action : Option Action} {t t' : Timeline (Site σ)}
    (h : engine.Works action t t') (cell : Cell) :
    t'.state.recorder.read cell = t.state.recorder.read cell := by
  -- No cell stands for the durations.
  obtain ⟨durations, hr⟩ := Works.recorder h
  rw [hr]
  cases cell with
  | event count => cases count <;> rfl
  | rejection reason => cases reason <;> rfl

/-- Work writes no line that tells how an event ended, unless the store reports one. -/
theorem Works.journal {engine : Engine σ} {action : Option Action} {t t' : Timeline (Site σ)}
    (h : engine.Works action t t') :
    ∃ written, t'.journal = t.journal ++ written ∧
      ∀ line ∈ written, line.IsTerminal → engine.store.Writes line := by
  induction h with
  | refl => exact ⟨[], (List.append_nil _).symm, fun _ hl => absurd hl List.not_mem_nil⟩
  | tail _ move ih =>
    obtain ⟨first, hfirst, hown⟩ := ih
    obtain ⟨second, hsecond, hown'⟩ := move.journal
    refine ⟨first ++ second, by rw [hsecond, hfirst, List.append_assoc], fun line hl => ?_⟩
    rcases List.mem_append.1 hl with hl | hl
    · exact hown line hl
    · exact hown' line hl

end Engine

end ChangeFeed
