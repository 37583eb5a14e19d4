import ChangeFeed.Event.Rejection
import ChangeFeed.Store.Memory
import ChangeFeed.Timeline.Basic

/-!
# Store adapters

A store adapter is what the engine sees of a store: three calls, each of which may take time, fail,
and change the adapter's own state. The store in memory is one that answers at once and never fails.
-/

namespace ChangeFeed

/-- A store with states `σ`. Every call is also given the time. -/
structure StoreAdapter (σ : Type) where
  /-- Stores a record under a key, next to a parent. -/
  put : Kind → (key : Int64) → Option Affinity → Record → (now : Nat) → σ →
    Reply σ (Except StoreError Unit)
  /-- Takes a key out and tells whether it was there. -/
  remove : Kind → (key : Int64) → (now : Nat) → σ → Reply σ (Except StoreError Bool)
  /-- Tells the partition of a key. -/
  partitionOf : Kind → (key : Int64) → (now : Nat) → σ → Reply σ (Except StoreError Nat)

/-- The fields of a line about a key. -/
def Kind.keyFields (kind : Kind) (key : Int64) : List (String × Journal.Value) :=
  [("collection", .text kind.collection), ("key", .whole key.toInt)]

namespace MemoryStore

/-- What is reported of a put. -/
def putLines (kind : Kind) (key : Int64) : List Journal.Line :=
  [⟨.debug, "Stored record", kind.keyFields key⟩]

/-- What is reported of a placement. -/
def placementLines (store : MemoryStore) (kind : Kind) (key : Int64) : List Journal.Line :=
  if store.chainEnds ⟨kind, key⟩ then []
  else
    [⟨.warn, "Affinity chain too deep, placing record by its last resolved key",
      kind.keyFields key⟩]

/-- The store in memory as an adapter. -/
def adapter : StoreAdapter MemoryStore where
  put kind key affinity record _ store :=
    { Reply.now (.ok ()) (store.put kind key affinity record) with lines := putLines kind key }
  remove kind key _ store :=
    .now (.ok (store.contains kind key)) (store.remove kind key)
  partitionOf kind key _ store :=
    { Reply.now (.ok (store.partitionOf kind key)) store with
      lines := store.placementLines kind key }

end MemoryStore

end ChangeFeed
