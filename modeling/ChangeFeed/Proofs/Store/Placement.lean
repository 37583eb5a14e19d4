import ChangeFeed.Proofs.Store.Replay
import ChangeFeed.Store.Request

/-!
# Placement

A record's parent is of a kind one level above its own: items stand below orders and orders below
customers. In a store whose entries name no other parents (`MemoryStore.IsFaithful`) every chain of
parents therefore comes to its end after a step or two, long before the search for it is given up
(`MemoryStore.chainEnds_of_isFaithful`), and an entry is placed where its parent is, whether or not
the parent is there (`MemoryStore.partitionOf_parent`).

Actions write nothing but entries of this sort, and taking one out does no harm, so the store stays
faithful whatever is written or deleted, and in whatever order (`MemoryStore.isFaithful_carryAll`).
-/

namespace ChangeFeed

/-- The collection of a kind exists. -/
theorem Kind.ofCollection_collection (kind : Kind) : ofCollection kind.collection = .ok kind := by
  unfold ofCollection
  rw [ofCollection?_collection]

/-- How far a kind stands below those that have no parent. -/
def Kind.level : Kind → Nat
  | .customer => 0
  | .product => 0
  | .order => 1
  | .orderItem => 2

/-- No kind stands so low that the search for the end of a chain would be given up. -/
theorem Kind.level_succ_lt_maxHops (kind : Kind) : kind.level + 1 < MemoryStore.maxHops := by
  cases kind <;> decide

/-- The parent of a record stands above it. -/
theorem Record.level_affinity {record : Record} {parent : Affinity}
    (h : record.affinity = some parent) : parent.kind.level < record.kind.level := by
  cases record with
  | customer row => cases h
  | product row => cases h
  | order row =>
    cases h
    exact Nat.zero_lt_one
  | orderItem row =>
    cases h
    exact Nat.one_lt_two

namespace MemoryStore

/-- Every record is kept under its own kind and key, next to its own parent. -/
def IsFaithful (store : MemoryStore) : Prop :=
  ∀ kind key entry, store.lookup? kind key = some entry →
    entry.record.kind = kind ∧ entry.record.key = key ∧ entry.affinity = entry.record.affinity

/-- A store without entries is faithful. -/
theorem isFaithful_withPartitions (partitions : Nat) : (withPartitions partitions).IsFaithful := by
  intro kind key entry h
  cases kind <;> cases h

/-- An action on a faithful store leaves a faithful one. -/
theorem IsFaithful.carry {store : MemoryStore} (h : store.IsFaithful) (action : Action) :
    (store.carry action).IsFaithful := by
  intro kind key entry hentry
  rw [lookup?_carry] at hentry
  split at hentry
  · next hc =>
    obtain ⟨hkind, hkey⟩ := Action.concerns_iff.1 hc
    cases action with
    | upsert op record =>
      cases hentry
      exact ⟨hkind, hkey, rfl⟩
    | delete kind key => cases hentry
  · exact h kind key entry hentry

/-- Actions on a faithful store leave a faithful one. -/
theorem isFaithful_carryAll {store : MemoryStore} (h : store.IsFaithful) (actions : List Action) :
    (store.carryAll actions).IsFaithful := by
  induction actions generalizing store with
  | nil => exact h
  | cons action rest ih => exact ih (h.carry action)

/-! ## Chains of parents -/

/-- A parent that a faithful store knows of stands above its child. -/
theorem IsFaithful.level_parent? {store : MemoryStore} (h : store.IsFaithful)
    {place parent : Affinity} (hparent : store.parent? place = some parent) :
    parent.kind.level < place.kind.level := by
  obtain ⟨entry, hentry, haffinity⟩ := Option.bind_eq_some_iff.1 hparent
  obtain ⟨hkind, -, hown⟩ := h _ _ _ hentry
  rw [hown] at haffinity
  rw [← hkind]
  exact Record.level_affinity haffinity

/-- A place with a parent is followed by way of the parent. -/
theorem follow_succ_of_parent {store : MemoryStore} {place parent : Affinity}
    (h : store.parent? place = some parent) (hops : Nat) :
    store.follow (hops + 1) place = store.follow hops parent := by
  simp only [follow, h]

/-- A chain that has come to its end is not followed any further. -/
theorem follow_succ_of_ends {store : MemoryStore} {hops : Nat} {place : Affinity}
    (h : (store.follow hops place).2 = true) :
    store.follow (hops + 1) place = store.follow hops place := by
  induction hops generalizing place with
  | zero => cases h
  | succ hops ih =>
    cases hparent : store.parent? place with
    | none => simp only [follow, hparent]
    | some parent =>
      rw [follow_succ_of_parent hparent] at h
      rw [follow_succ_of_parent hparent, follow_succ_of_parent hparent]
      exact ih h

/-- In a faithful store a chain ends within as many steps as its first place stands below the top,
and one to see that there is no parent. -/
theorem IsFaithful.follow_ends {store : MemoryStore} (h : store.IsFaithful) {hops : Nat}
    {place : Affinity} (hlevel : place.kind.level < hops) :
    (store.follow hops place).2 = true := by
  induction hops generalizing place with
  | zero => exact absurd hlevel (Nat.not_lt_zero _)
  | succ hops ih =>
    cases hparent : store.parent? place with
    | none => simp only [follow, hparent]
    | some parent =>
      have habove := h.level_parent? hparent
      rw [follow_succ_of_parent hparent]
      exact ih (by omega)

/-- In a faithful store no chain is too long. -/
theorem chainEnds_of_isFaithful {store : MemoryStore} (h : store.IsFaithful) (place : Affinity) :
    store.chainEnds place = true :=
  h.follow_ends (Nat.lt_of_succ_lt place.kind.level_succ_lt_maxHops)

/-- A place is anchored where its parent is, if the parent's chain ends in time for both. -/
theorem anchor_of_parent {store : MemoryStore} {place parent : Affinity}
    (h : store.parent? place = some parent)
    (hends : (store.follow (maxHops - 1) parent).2 = true) :
    store.anchor place = store.anchor parent := by
  have hplace : store.follow maxHops place = store.follow (maxHops - 1) parent :=
    follow_succ_of_parent h (maxHops - 1)
  have hparent : store.follow maxHops parent = store.follow (maxHops - 1) parent :=
    follow_succ_of_ends hends
  unfold anchor
  rw [hplace, hparent]

/-- In a faithful store an entry is in the partition of its parent, present or not. -/
theorem partitionOf_parent {store : MemoryStore} (h : store.IsFaithful) {kind : Kind}
    {key : Int64} {parent : Affinity} (hparent : store.parent? ⟨kind, key⟩ = some parent) :
    store.partitionOf kind key = store.partitionOf parent.kind parent.key := by
  have hends : (store.follow (maxHops - 1) parent).2 = true :=
    h.follow_ends (Nat.lt_sub_of_add_lt parent.kind.level_succ_lt_maxHops)
  unfold partitionOf
  rw [anchor_of_parent hparent hends]

/-- In a faithful store an entry is in the partition of the parent that it names. -/
theorem IsFaithful.partitionOf_of_lookup? {store : MemoryStore} (h : store.IsFaithful)
    {kind : Kind} {key : Int64} {entry : Entry} {parent : Affinity}
    (hentry : store.lookup? kind key = some entry) (hparent : entry.affinity = some parent) :
    store.partitionOf kind key = store.partitionOf parent.kind parent.key := by
  refine partitionOf_parent h ?_
  show (store.lookup? kind key).bind (·.affinity) = some parent
  rw [hentry]
  exact hparent

/-- In a faithful store a record is of the kind it is kept under, and in the partition of its
parent. -/
theorem IsFaithful.partitionOf_of_get? {store : MemoryStore} (h : store.IsFaithful) {kind : Kind}
    {key : Int64} {record : Record} (hget : store.get? kind key = some record) :
    record.kind = kind ∧ ∀ parent, record.affinity = some parent →
      store.partitionOf kind key = store.partitionOf parent.kind parent.key := by
  obtain ⟨entry, hentry, rfl⟩ := Option.map_eq_some_iff.1 hget
  obtain ⟨hkind, -, hown⟩ := h _ _ _ hentry
  exact ⟨hkind, fun parent hparent => h.partitionOf_of_lookup? hentry (hown.trans hparent)⟩

/-- Under the items of a faithful store are items, each in the partition of its order. -/
theorem IsFaithful.item_of_get? {store : MemoryStore} (h : store.IsFaithful) {key : Int64}
    {record : Record} (hget : store.get? .orderItem key = some record) :
    ∃ item, record = .orderItem item ∧
      store.partitionOf .orderItem key = store.partitionOf .order item.orderId := by
  obtain ⟨hkind, hparent⟩ := h.partitionOf_of_get? hget
  cases record with
  | customer row => cases hkind
  | product row => cases hkind
  | order row => cases hkind
  | orderItem item => exact ⟨item, rfl, hparent ⟨.order, item.orderId⟩ rfl⟩

/-- Under the orders of a faithful store are orders, each in the partition of its customer. -/
theorem IsFaithful.order_of_get? {store : MemoryStore} (h : store.IsFaithful) {key : Int64}
    {record : Record} (hget : store.get? .order key = some record) :
    ∃ order, record = .order order ∧
      store.partitionOf .order key = store.partitionOf .customer order.customerId := by
  obtain ⟨hkind, hparent⟩ := h.partitionOf_of_get? hget
  cases record with
  | customer row => cases hkind
  | product row => cases hkind
  | orderItem row => cases hkind
  | order order => exact ⟨order, rfl, hparent ⟨.customer, order.customerId⟩ rfl⟩

/-! ## Asking for a partition -/

/-- In a faithful store no placement is worth a report. -/
theorem placementLines_of_isFaithful {store : MemoryStore} (h : store.IsFaithful) (kind : Kind)
    (key : Int64) : store.placementLines kind key = [] := by
  unfold placementLines
  rw [if_pos (chainEnds_of_isFaithful h _)]

/-- In a faithful store the partition of a key in any of the collections is told, and nothing is
reported. -/
theorem perform_partitionOf {store : MemoryStore} (h : store.IsFaithful) (kind : Kind)
    (key : Int64) :
    store.perform (.partitionOf kind.collection key) =
      .ok (.partition (store.partitionOf kind key), store, []) := by
  simp only [perform, Kind.ofCollection_collection, placementLines_of_isFaithful h]
  rfl

end MemoryStore

end ChangeFeed
