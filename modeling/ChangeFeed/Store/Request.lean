import ChangeFeed.Store.Adapter

/-!
# Requests by collection name

A client of the store in memory names collections. A name that is not one of the four collections
is refused, as is a parent in one that is not; a request that is refused changes nothing.
-/

namespace ChangeFeed

/-- A request to a store. -/
inductive StoreRequest where
  | put (collection : String) (key : Int64) (affinity : Option (String × Int64)) (record : Record)
  | get (collection : String) (key : Int64)
  | remove (collection : String) (key : Int64)
  | partitionOf (collection : String) (key : Int64)
  | size (collection : String)
  | list (collection : String) (limit : Nat)
deriving DecidableEq

/-- The answer to a request. -/
inductive StoreAnswer where
  | stored
  | found (record : Option Record)
  | removed (present : Bool)
  | partition (number : Nat)
  | size (count : Nat)
  | records (rows : List Record)
deriving DecidableEq

/-- The kind stored in a collection, which has to exist. -/
def Kind.ofCollection (collection : String) : Except StoreError Kind :=
  match Kind.ofCollection? collection with
  | some kind => .ok kind
  | none => .error (.unknownCollection collection)

/-- The place that a collection and a key name. -/
def Affinity.ofNames (names : String × Int64) : Except StoreError Affinity := do
  let kind ← Kind.ofCollection names.1
  return ⟨kind, names.2⟩

namespace MemoryStore

/-- What a request does: its answer, the store after it and what is reported. -/
def perform (store : MemoryStore) :
    StoreRequest → Except StoreError (StoreAnswer × MemoryStore × List Journal.Line)
  | .put collection key affinity record => do
    let kind ← Kind.ofCollection collection
    let parent ← affinity.mapM Affinity.ofNames
    return (.stored, store.put kind key parent record, putLines kind key)
  | .get collection key => do
    let kind ← Kind.ofCollection collection
    return (.found (store.get? kind key), store, [])
  | .remove collection key => do
    let kind ← Kind.ofCollection collection
    return (.removed (store.contains kind key), store.remove kind key, [])
  | .partitionOf collection key => do
    let kind ← Kind.ofCollection collection
    return (.partition (store.partitionOf kind key), store, store.placementLines kind key)
  | .size collection => do
    let kind ← Kind.ofCollection collection
    return (.size (store.size kind), store, [])
  | .list collection limit => do
    let kind ← Kind.ofCollection collection
    return (.records (store.list kind limit), store, [])

/-- Answers a request. -/
def answer (store : MemoryStore) (request : StoreRequest) :
    Reply MemoryStore (Except StoreError StoreAnswer) :=
  match store.perform request with
  | .ok (a, after, lines) => { Reply.now (.ok a) after with lines := lines }
  | .error e => .now (.error e) store

end MemoryStore

end ChangeFeed
