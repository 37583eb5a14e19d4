import ChangeFeed.Record.Basic
import ChangeFeed.Store.KeyHash
import ChangeFeed.Store.Table

/-!
# The store in memory

Four collections of records over a number of partitions. An entry keeps the record and the parent
that was named when it was written. Placement is worked out when it is asked for: a record lives
where its parent lives, and one without a parent, or that is not there, where its own key hashes
to. A chain of parents is followed for at most `MemoryStore.maxHops` steps.
-/

namespace ChangeFeed

/-- What is stored under a key. -/
structure Entry where
  record : Record
  affinity : Option Affinity
deriving DecidableEq

/-- A store in memory. -/
structure MemoryStore where
  partitions : Nat
  partitions_pos : 0 < partitions
  customers : Table Entry
  products : Table Entry
  orders : Table Entry
  orderItems : Table Entry

namespace MemoryStore

/-- The number of partitions where none is given. -/
def defaultPartitions : Nat :=
  1024

/-- An empty store; there is at least one partition. -/
def withPartitions (partitions : Nat) : MemoryStore :=
  ⟨max partitions 1, by omega, .empty, .empty, .empty, .empty⟩

/-- An empty store with the default number of partitions. -/
def new : MemoryStore :=
  withPartitions defaultPartitions

/-- The table of a kind. -/
def table (store : MemoryStore) : Kind → Table Entry
  | .customer => store.customers
  | .product => store.products
  | .order => store.orders
  | .orderItem => store.orderItems

/-- Changes the table of a kind. -/
def setTable (store : MemoryStore) (kind : Kind) (t : Table Entry) : MemoryStore :=
  match kind with
  | .customer => { store with customers := t }
  | .product => { store with products := t }
  | .order => { store with orders := t }
  | .orderItem => { store with orderItems := t }

/-- A table that was set is there, and the others are as before. -/
@[simp] theorem table_setTable (store : MemoryStore) (kind other : Kind) (t : Table Entry) :
    (store.setTable kind t).table other = if kind = other then t else store.table other := by
  cases kind <;> cases other <;> rfl

/-- Setting a table does not change the number of partitions. -/
@[simp] theorem partitions_setTable (store : MemoryStore) (kind : Kind) (t : Table Entry) :
    (store.setTable kind t).partitions = store.partitions := by
  cases kind <;> rfl

/-- The entry of a key. -/
def lookup? (store : MemoryStore) (kind : Kind) (key : Int64) : Option Entry :=
  (store.table kind).get? key

/-- Stores a record under a key, in place of what was there. -/
def put (store : MemoryStore) (kind : Kind) (key : Int64) (affinity : Option Affinity)
    (record : Record) : MemoryStore :=
  store.setTable kind ((store.table kind).insert key ⟨record, affinity⟩)

/-- The record under a key. -/
def get? (store : MemoryStore) (kind : Kind) (key : Int64) : Option Record :=
  (store.lookup? kind key).map (·.record)

/-- Takes a key out. -/
def remove (store : MemoryStore) (kind : Kind) (key : Int64) : MemoryStore :=
  store.setTable kind ((store.table kind).erase key)

/-- Whether a key is there. -/
def contains (store : MemoryStore) (kind : Kind) (key : Int64) : Bool :=
  (store.lookup? kind key).isSome

/-- The number of records of a kind. -/
def size (store : MemoryStore) (kind : Kind) : Nat :=
  (store.table kind).size

/-- The first records of a kind, in the order of their keys. -/
def list (store : MemoryStore) (kind : Kind) (limit : Nat) : List Record :=
  ((store.table kind).values.take limit).map (·.record)

/-- A put changes the entry of its key and no other. -/
@[simp] theorem lookup?_put (store : MemoryStore) (kind other : Kind) (key key' : Int64)
    (affinity : Option Affinity) (record : Record) :
    (store.put kind key affinity record).lookup? other key' =
      if kind = other ∧ key = key' then some ⟨record, affinity⟩ else store.lookup? other key' := by
  by_cases h : kind = other
  · subst h
    simp [lookup?, put]
  · simp [lookup?, put, h]

/-- A removal takes its key out and changes no other. -/
@[simp] theorem lookup?_remove (store : MemoryStore) (kind other : Kind) (key key' : Int64) :
    (store.remove kind key).lookup? other key' =
      if kind = other ∧ key = key' then none else store.lookup? other key' := by
  by_cases h : kind = other
  · subst h
    simp [lookup?, remove]
  · simp [lookup?, remove, h]

/-- Two stores with the same partitions and the same entries are the same. -/
theorem ext_lookup? {s t : MemoryStore} (hp : s.partitions = t.partitions)
    (h : ∀ kind key, s.lookup? kind key = t.lookup? kind key) : s = t := by
  have h1 : s.customers = t.customers := Table.ext (h .customer)
  have h2 : s.products = t.products := Table.ext (h .product)
  have h3 : s.orders = t.orders := Table.ext (h .order)
  have h4 : s.orderItems = t.orderItems := Table.ext (h .orderItem)
  cases s
  cases t
  simp_all

/-! ## Placement -/

/-- The parent of what is stored at a place. -/
def parent? (store : MemoryStore) (place : Affinity) : Option Affinity :=
  (store.lookup? place.kind place.key).bind (·.affinity)

/-- How many parents are followed. -/
def maxHops : Nat :=
  8

/-- The place that a chain of parents leads to in at most so many steps, and whether it was found
to end there. -/
def follow (store : MemoryStore) : (hops : Nat) → Affinity → Affinity × Bool
  | 0, place => (place, false)
  | hops + 1, place =>
    match store.parent? place with
    | some parent => store.follow hops parent
    | none => (place, true)

/-- The place whose key decides on the partition of a place. -/
def anchor (store : MemoryStore) (place : Affinity) : Affinity :=
  (store.follow maxHops place).1

/-- Whether the chain of parents from a place was followed to its end. -/
def chainEnds (store : MemoryStore) (place : Affinity) : Bool :=
  (store.follow maxHops place).2

/-- The partition of a key. -/
def partitionOf (store : MemoryStore) (kind : Kind) (key : Int64) : Nat :=
  KeyHash.partition store.partitions (store.anchor ⟨kind, key⟩).key

/-- Every partition number is below the number of partitions. -/
theorem partitionOf_lt (store : MemoryStore) (kind : Kind) (key : Int64) :
    store.partitionOf kind key < store.partitions :=
  KeyHash.partition_lt store.partitions_pos _

end MemoryStore

end ChangeFeed
