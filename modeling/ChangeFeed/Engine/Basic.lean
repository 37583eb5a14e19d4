import ChangeFeed.Engine.Action
import ChangeFeed.Engine.Site
import ChangeFeed.Engine.Tuning
import ChangeFeed.Retry.Loop
import ChangeFeed.Timeline.Limit

/-!
# The engine

An engine carries out the actions that its router plans. A call to the store runs under a limit and
is repeated while its failure may pass. After a record with a parent is written, the engine may look
up both partitions, only to report where they differ.
-/

namespace ChangeFeed

/-- An engine over a store with states `σ`. -/
structure Engine (σ : Type) where
  router : Router
  store : StoreAdapter σ
  tuning : Tuning

namespace Engine

/-- The reply to a put of a record. -/
def put (engine : Engine σ) (record : Record) (t : Timeline (Site σ)) :
    Reply (Site σ) (Except StoreError Unit) :=
  t.state.reply t.now (.put record.kind record.key record.affinity record) (fun _ => .stored)
    (engine.store.put record.kind record.key record.affinity record t.now t.state.store)

/-- The reply to a removal of a key. -/
def remove (engine : Engine σ) (kind : Kind) (key : Int64) (t : Timeline (Site σ)) :
    Reply (Site σ) (Except StoreError Bool) :=
  t.state.reply t.now (.remove kind key) .removed
    (engine.store.remove kind key t.now t.state.store)

/-- The reply to a lookup of a partition. -/
def partitionOf (engine : Engine σ) (place : Affinity) (t : Timeline (Site σ)) :
    Reply (Site σ) (Except StoreError Nat) :=
  t.state.reply t.now (.partitionOf place.kind place.key) .placed
    (engine.store.partitionOf place.kind place.key t.now t.state.store)

/-- Makes a call once; where the limit elapses, the call counts as timed out. -/
def callOnce (engine : Engine σ) (call : Timeline (Site σ) → Reply (Site σ) (Except StoreError α))
    (t : Timeline (Site σ)) : Except StoreError α × Timeline (Site σ) :=
  match t.withLimitResult engine.tuning.storeTimeout (call t) with
  | (.ok a, t) => (.ok a, t)
  | (.error (.elapsed limit), t) => (.error (.timeout limit), t)
  | (.error (.failed e), t) => (.error e, t)

/-- Makes a call on behalf of an action, and again while its failure may pass. The time that it
took is observed. -/
def call (engine : Engine σ) (action : Action)
    (request : Timeline (Site σ) → Reply (Site σ) (Except StoreError α))
    (t : Timeline (Site σ)) : Except Rejection α × Timeline (Site σ) :=
  let (result, after) := Retry.run engine.tuning.retry StoreError.isRetryable StoreError.message
    (engine.callOnce request) t
  let elapsed := Duration.ofNanos (after.now - t.now)
  let after := after.update (·.record (·.observe action.kind.collection elapsed))
  match result with
  | .ok a => (.ok a, after)
  | .error f =>
    (.error (.apply action.kind action.key action.operation f.attempts f.cause), after)

/-- Looks up the partitions of a place and its parent, both within one limit; none if the limit
elapses. -/
def lookUp (engine : Engine σ) (place parent : Affinity) (t : Timeline (Site σ)) :
    Option (Except StoreError Nat × Except StoreError Nat) × Timeline (Site σ) :=
  let limit := engine.tuning.storeTimeout.timer
  match t.await? limit (engine.partitionOf place t) with
  | (none, t') => (none, t')
  | (some own, t') =>
    let left := Duration.ofNanos (limit.nanos - (t'.now - t.now))
    match t'.await? left (engine.partitionOf parent t') with
    | (none, t') => (none, t')
    | (some expected, t') => (some (own, expected), t')

/-- The fields of a line about a place and its parent. -/
def placementFields (place parent : Affinity) : List (String × Journal.Value) :=
  place.kind.keyFields place.key ++ [("parent", .text parent.text)]

/-- Reports a place that is apart from its parent. -/
def verify (engine : Engine σ) (place parent : Affinity) (t : Timeline (Site σ)) :
    Timeline (Site σ) :=
  let skipped (e : StoreError) (t : Timeline (Site σ)) : Timeline (Site σ) :=
    t.log .debug "Skipped affinity verification"
      (place.kind.keyFields place.key ++ [("error", .text e.message)])
  match engine.lookUp place parent t with
  | (none, t) =>
    t.log .warn "Affinity verification timed out"
      (placementFields place parent ++
        [("timeout_ms", .whole engine.tuning.storeTimeout.millisWord.toNat)])
  | (some (.ok own, .ok expected), t) =>
    if own = expected then t
    else
      t.log .warn "Colocation violated: child and parent are in different partitions"
        (placementFields place parent ++
          [("child_partition", .whole own), ("parent_partition", .whole expected)])
  | (some (.error e, _), t) => skipped e t
  | (some (_, .error e), t) => skipped e t

/-- Reports a record that is apart from its parent, where the tuning asks for it. -/
def verifyRecord (engine : Engine σ) (record : Record) (t : Timeline (Site σ)) :
    Timeline (Site σ) :=
  match record.affinity with
  | some parent =>
    if engine.tuning.verifyAffinity then engine.verify ⟨record.kind, record.key⟩ parent t else t
  | none => t

/-- Carries out an action. -/
def perform (engine : Engine σ) (action : Action) (t : Timeline (Site σ)) :
    Except Rejection Unit × Timeline (Site σ) :=
  match action with
  | .upsert _ record =>
    match engine.call action (engine.put record) t with
    | (.ok _, t) => (.ok (), engine.verifyRecord record t)
    | (.error e, t) => (.error e, t)
  | .delete kind key =>
    match engine.call action (engine.remove kind key) t with
    | (.ok true, t) => (.ok (), t)
    | (.ok false, t) =>
      (.ok (), t.log .debug "Delete of absent key" (kind.keyFields key))
    | (.error e, t) => (.error e, t)

end Engine

end ChangeFeed
