import ChangeFeed.Proofs.Engine.InMemory
import ChangeFeed.Proofs.Store.Requests

/-!
# What an engine writes is well typed

A store in memory keeps whatever it is given. What an engine gives it are decoded records, each with
its own kind, key and parent, and the decimals of a decoded record are finite
(`Router.isFinite_of_mem_actions`). So a store that an engine alone has written to is well typed
(`Engine.wellTyped_handleAll`). The keys of its entries are then those of the records themselves, so
that a list in the order of the keys is one in the order of the records' own ids
(`MemoryStore.IsFaithful.pairwise_list`).
-/

namespace ChangeFeed

/-- Every decimal of a record is finite. -/
def Record.IsFinite (record : Record) : Prop :=
  ∀ x ∈ record.decimals, x.isFinite = true

/-! ## Entries -/

namespace MemoryStore

/-- Every record that is kept has finite decimals only. -/
def HoldsFinite (store : MemoryStore) : Prop :=
  ∀ kind key entry, store.lookup? kind key = some entry → entry.record.IsFinite

/-- A store without entries holds nothing that is not finite. -/
theorem holdsFinite_withPartitions (partitions : Nat) :
    (withPartitions partitions).HoldsFinite := by
  intro kind key entry h
  cases kind <;> cases h

/-- An action whose record is finite leaves only finite records behind. -/
theorem HoldsFinite.carry {store : MemoryStore} (h : store.HoldsFinite) {action : Action}
    (hfinite : ∀ entry, action.content = some entry → entry.record.IsFinite) :
    (store.carry action).HoldsFinite := by
  intro kind key entry hentry
  rw [lookup?_carry] at hentry
  split at hentry
  · exact hfinite entry hentry
  · exact h kind key entry hentry

/-- Actions whose records are finite leave only finite records behind. -/
theorem holdsFinite_carryAll {store : MemoryStore} (h : store.HoldsFinite) {actions : List Action}
    (hfinite : ∀ action ∈ actions, ∀ entry, action.content = some entry → entry.record.IsFinite) :
    (store.carryAll actions).HoldsFinite := by
  induction actions generalizing store with
  | nil => exact h
  | cons action rest ih =>
    exact ih (h.carry (hfinite action List.mem_cons_self))
      fun other hother => hfinite other (List.mem_cons_of_mem _ hother)

end MemoryStore

/-- Whatever is written on behalf of messages is finite. -/
theorem Router.isFinite_of_mem_actions {router : Router} {messages : List Message}
    {action : Action} (h : action ∈ router.actions messages) {entry : Entry}
    (hentry : action.content = some entry) : entry.record.IsFinite := by
  obtain ⟨message, -, hplanned⟩ := List.mem_filterMap.1 h
  cases hplan : router.planMessage message with
  | error e =>
    rw [hplan] at hplanned
    cases hplanned
  | ok planned =>
    rw [hplan] at hplanned
    cases hplanned
    obtain ⟨event, -, -, hcontent⟩ := content_of_planMessage hplan
    split at hcontent
    · rw [hcontent.2] at hentry
      cases hentry
    · obtain ⟨image, record, -, hdecode, -, hwritten⟩ := hcontent
      rw [hwritten] at hentry
      cases hentry
      exact Record.isFinite_of_decode hdecode

/-! ## Lists -/

namespace MemoryStore

variable {store : MemoryStore}

/-- In a faithful store the ids of the records that are listed are the keys that they are kept
under. -/
theorem IsFaithful.keys_list (h : store.IsFaithful) (kind : Kind) (limit : Nat) :
    (store.list kind limit).map Record.key =
      ((store.table kind).entries.take limit).map (·.1) := by
  unfold list Table.values
  rw [← List.map_take, List.map_map, List.map_map]
  refine List.map_congr_left fun e he => ?_
  have hlookup : store.lookup? kind e.1 = some e.2 :=
    ((store.table kind).get?_eq_some_iff).2 (List.mem_of_mem_take he)
  exact (h kind e.1 e.2 hlookup).2.1

/-- In a faithful store records are listed in ascending order of their ids, and no two of them have
the same. -/
theorem IsFaithful.pairwise_list (h : store.IsFaithful) (kind : Kind) (limit : Nat) :
    (store.list kind limit).Pairwise fun a b => a.key < b.key := by
  have hkeys : (((store.table kind).entries.take limit).map (·.1)).Pairwise (· < ·) :=
    List.pairwise_map.2 ((store.table kind).sorted.sublist (List.take_sublist ..))
  rw [← h.keys_list] at hkeys
  exact List.pairwise_map.1 hkeys

/-- A record that is listed is kept under its own id, in a faithful store. -/
theorem IsFaithful.get?_of_mem_list (h : store.IsFaithful) {kind : Kind} {limit : Nat}
    {record : Record} (hmem : record ∈ store.list kind limit) :
    store.get? kind record.key = some record := by
  unfold list Table.values at hmem
  rw [← List.map_take, List.map_map] at hmem
  obtain ⟨e, he, rfl⟩ := List.mem_map.1 hmem
  have hlookup : store.lookup? kind e.1 = some e.2 :=
    ((store.table kind).get?_eq_some_iff).2 (List.mem_of_mem_take he)
  have hkey : e.2.record.key = e.1 := (h kind e.1 e.2 hlookup).2.1
  show (store.lookup? kind e.2.record.key).map _ = _
  rw [hkey, hlookup]
  rfl

/-- In a collection of any other name nothing can be found, counted or listed. -/
theorem perform_of_ofCollection?_eq_none (store : MemoryStore) {collection : String}
    (h : Kind.ofCollection? collection = none) (key : Int64) (limit : Nat) :
    store.perform (.get collection key) = .error (.unknownCollection collection) ∧
      store.perform (.size collection) = .error (.unknownCollection collection) ∧
      store.perform (.list collection limit) = .error (.unknownCollection collection) := by
  have hkind : Kind.ofCollection collection = .error (.unknownCollection collection) := by
    unfold Kind.ofCollection
    rw [h]
  refine ⟨?_, ?_, ?_⟩ <;> simp only [perform, hkind] <;> rfl

end MemoryStore

namespace Engine

/-- Whatever messages an engine handles over a store that was empty, afterwards every entry in the
collection of a kind holds a record of that kind, under the record's own key and next to the
record's own parent, with finite decimals only, and there is nothing in any other collection. So
records are listed in ascending order of their own ids, no two of them with the same, and each is
the one that is kept under its id. -/
theorem wellTyped_handleAll (router : Router) (tuning : Tuning) (partitions : Nat)
    (messages : List Message) (t : Timeline (Site MemoryStore)) :
    let start := t.update fun site => { site with store := .withPartitions partitions }
    let store := ((inMemory router tuning).handleAll messages start).2.state.store
    (∀ kind key entry, store.lookup? kind key = some entry →
      entry.record.kind = kind ∧ entry.record.key = key ∧
        entry.affinity = entry.record.affinity ∧ entry.record.IsFinite) ∧
    (∀ collection, (∀ kind : Kind, kind.collection ≠ collection) → ∀ key limit,
      store.perform (.get collection key) = .error (.unknownCollection collection) ∧
      store.perform (.size collection) = .error (.unknownCollection collection) ∧
      store.perform (.list collection limit) = .error (.unknownCollection collection)) ∧
    ∀ (kind : Kind) limit, ∃ rows,
      store.perform (.list kind.collection limit) = .ok (.records rows, store, []) ∧
      rows.Pairwise (fun a b => a.key < b.key) ∧ (rows.map Record.key).Nodup ∧
      ∀ row ∈ rows, row.kind = kind ∧ store.get? kind row.key = some row := by
  intro start store
  have hstore : store = start.state.store.carryAll (router.actions messages) :=
    (handleAll_inMemory router tuning messages start).2
  have hfaithful : store.IsFaithful := by
    rw [hstore]
    exact MemoryStore.isFaithful_carryAll (MemoryStore.isFaithful_withPartitions partitions) _
  have hfinite : store.HoldsFinite := by
    rw [hstore]
    exact MemoryStore.holdsFinite_carryAll (MemoryStore.holdsFinite_withPartitions partitions)
      fun action haction entry => Router.isFinite_of_mem_actions haction
  refine ⟨fun kind key entry hentry => ?_, fun collection hnone key limit => ?_,
    fun kind limit => ?_⟩
  · obtain ⟨hkind, hkey, hparent⟩ := hfaithful kind key entry hentry
    exact ⟨hkind, hkey, hparent, hfinite kind key entry hentry⟩
  · exact store.perform_of_ofCollection?_eq_none (Kind.ofCollection?_eq_none hnone) key limit
  · have hsorted := hfaithful.pairwise_list kind limit
    refine ⟨store.list kind limit, store.perform_list kind limit, hsorted, ?_, fun row hrow => ?_⟩
    · -- Of two ids in ascending order neither is the other.
      refine List.pairwise_map.2 (hsorted.imp fun hlt heq => ?_)
      rw [heq] at hlt
      exact Int64.lt_irrefl hlt
    · have hget := hfaithful.get?_of_mem_list hrow
      exact ⟨(hfaithful.partitionOf_of_get? hget).1, hget⟩

end Engine

end ChangeFeed
