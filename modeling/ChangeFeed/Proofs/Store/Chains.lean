import ChangeFeed.Proofs.Store.Requests

/-!
# Chains of parents in any store

A client may name any parent for a record, also one of the same collection, one that is not there or
the record itself, so that a chain of parents may be long or never end. `Leads` says where a chain
goes in so many steps, and `IsRoot` where it can end. The search for the end stops at the first root
within `MemoryStore.maxHops` steps, and where there is none at the place that the last step leads to
(`MemoryStore.anchor_eq_iff`). All places on the way to a root that is found are anchored there as
well (`MemoryStore.anchor_eq_of_leads`).
-/

namespace ChangeFeed

/-! ## Where chains lead -/

section

variable {content : Kind → Int64 → Option Entry}

/-- What is stored at a place was written next to a parent. -/
def HasParent (content : Kind → Int64 → Option Entry) (place parent : Affinity) : Prop :=
  ∃ entry, content place.kind place.key = some entry ∧ entry.affinity = some parent

/-- A place where chains end: nothing is stored there, or something without a parent. -/
def IsRoot (content : Kind → Int64 → Option Entry) (place : Affinity) : Prop :=
  ∀ entry, content place.kind place.key = some entry → entry.affinity = none

/-- The parents from one place on lead to another in so many steps. -/
inductive Leads (content : Kind → Int64 → Option Entry) : Nat → (place last : Affinity) → Prop
  | here (place) : Leads content 0 place place
  | hop {hops place parent last} (hparent : HasParent content place parent)
      (hrest : Leads content hops parent last) : Leads content (hops + 1) place last

/-- A place has one parent at most. -/
theorem HasParent.unique {place parent parent' : Affinity} (h : HasParent content place parent)
    (h' : HasParent content place parent') : parent = parent' := by
  obtain ⟨entry, hentry, hparent⟩ := h
  obtain ⟨entry', hentry', hparent'⟩ := h'
  cases hentry.symm.trans hentry'
  exact Option.some.inj (hparent.symm.trans hparent')

/-- A place with a parent is no root. -/
theorem HasParent.not_isRoot {place parent : Affinity} (h : HasParent content place parent) :
    ¬IsRoot content place := by
  intro hroot
  obtain ⟨entry, hentry, hparent⟩ := h
  rw [hroot entry hentry] at hparent
  cases hparent

/-- A place that is no root has a parent. -/
theorem isRoot_or_exists_parent (content : Kind → Int64 → Option Entry) (place : Affinity) :
    IsRoot content place ∨ ∃ parent, HasParent content place parent := by
  cases hentry : content place.kind place.key with
  | none => exact .inl fun entry h => by cases hentry.symm.trans h
  | some entry =>
    cases hparent : entry.affinity with
    | none =>
      refine .inl fun entry' h => ?_
      cases hentry.symm.trans h
      exact hparent
    | some parent => exact .inr ⟨parent, entry, hentry, hparent⟩

/-- What is on the way to a root leads there in the steps that are left. -/
theorem Leads.rest {i hops : Nat} {place mid root : Affinity} (hmid : Leads content i place mid)
    (h : Leads content hops place root) (hle : i ≤ hops) : Leads content (hops - i) mid root := by
  -- The way to the root begins with the way to `mid`, since no place has two parents.
  induction hmid generalizing hops with
  | here place => exact h
  | hop hparent hrest ih =>
    cases h with
    | here => exact absurd hle (Nat.not_succ_le_zero _)
    | hop hparent' hrest' =>
      cases hparent.unique hparent'
      rw [Nat.add_sub_add_right]
      exact ih hrest' (Nat.le_of_succ_le_succ hle)

end

namespace MemoryStore

variable {store : MemoryStore} {place last : Affinity} {hops : Nat}

/-! ## Following them -/

/-- The parent of a place in a store. -/
theorem parent?_eq_some_iff {parent : Affinity} :
    store.parent? place = some parent ↔ HasParent store.lookup? place parent :=
  Option.bind_eq_some_iff

/-- A root of a store has no parent. -/
theorem parent?_eq_none_iff : store.parent? place = none ↔ IsRoot store.lookup? place :=
  Option.bind_eq_none_iff

/-- A chain is followed to where it leads: to the first root, unless the steps come to an end before
it. -/
theorem fst_follow_eq_iff {limit : Nat} :
    (store.follow limit place).1 = last ↔
      ∃ hops ≤ limit, Leads store.lookup? hops place last ∧
        (IsRoot store.lookup? last ∨ hops = limit) := by
  -- By the steps that are left: at a root no more are taken, anywhere else one to the parent.
  induction limit generalizing place with
  | zero =>
    constructor
    · rintro rfl
      exact ⟨0, Nat.le_refl _, .here place, .inr rfl⟩
    · rintro ⟨hops, hle, hleads, -⟩
      cases Nat.le_zero.1 hle
      cases hleads
      rfl
  | succ limit ih =>
    rcases isRoot_or_exists_parent store.lookup? place with hroot | ⟨parent, hparent⟩
    · have hfollow : (store.follow (limit + 1) place).1 = place := by
        simp only [follow, parent?_eq_none_iff.2 hroot]
      rw [hfollow]
      constructor
      · rintro rfl
        exact ⟨0, Nat.zero_le _, .here place, .inl hroot⟩
      · rintro ⟨hops, -, hleads, -⟩
        cases hleads with
        | here => rfl
        | hop hparent => exact absurd hroot hparent.not_isRoot
    · rw [follow_succ_of_parent (parent?_eq_some_iff.2 hparent), ih]
      constructor
      · rintro ⟨hops, hle, hleads, hend⟩
        exact ⟨hops + 1, Nat.succ_le_succ hle, .hop hparent hleads, hend.imp_right (congrArg _)⟩
      · rintro ⟨hops, hle, hleads, hend⟩
        cases hleads with
        | here =>
          rcases hend with hroot | hzero
          · exact absurd hroot hparent.not_isRoot
          · cases hzero
        | @hop hops _ parent' _ hparent' hrest =>
          cases hparent.unique hparent'
          exact ⟨hops, Nat.le_of_succ_le_succ hle, hrest, hend.imp_right Nat.succ.inj⟩

/-- A place is anchored at the root that its parents lead to, or where they lead to in as many steps
as are followed at most. -/
theorem anchor_eq_iff :
    store.anchor place = last ↔
      ∃ hops ≤ maxHops, Leads store.lookup? hops place last ∧
        (IsRoot store.lookup? last ∨ hops = maxHops) :=
  fst_follow_eq_iff

/-- Every place on the way to a root that is near enough is anchored there. -/
theorem anchor_eq_of_leads {i : Nat} {mid root : Affinity} (h : Leads store.lookup? hops place root)
    (hnear : hops ≤ maxHops) (hroot : IsRoot store.lookup? root)
    (hmid : Leads store.lookup? i place mid) (hle : i ≤ hops) : store.anchor mid = root :=
  anchor_eq_iff.2
    ⟨hops - i, Nat.le_trans (Nat.sub_le ..) hnear, hmid.rest h hle, .inl hroot⟩

/-! ## Asking for a partition -/

/-- However a store came about, the partition of a key of any of its collections is told, and it is
below the number of partitions. If the parents lead to a root in no more steps than are followed,
the key of this root decides, and it does so for all places on the way: they are in one partition.
If they lead to no root in time, it is the key that the last step leads to which decides. -/
theorem partitionOf_along_chain (partitions : Nat) (requests : List StoreRequest) (kind : Kind)
    (key : Int64) :
    let store := ((withPartitions partitions).answerAll requests).2
    ∃ p < max partitions 1,
      (store.answer (.partitionOf kind.collection key)).answer = .ok (.partition p) ∧
      (∀ hops ≤ maxHops, ∀ root, Leads store.lookup? hops ⟨kind, key⟩ root →
        IsRoot store.lookup? root →
        p = KeyHash.partition (max partitions 1) root.key ∧
        ∀ i ≤ hops, ∀ mid, Leads store.lookup? i ⟨kind, key⟩ mid →
          (store.answer (.partitionOf mid.kind.collection mid.key)).answer = .ok (.partition p)) ∧
      ((¬∃ hops ≤ maxHops, ∃ root, Leads store.lookup? hops ⟨kind, key⟩ root ∧
          IsRoot store.lookup? root) →
        ∃ last, Leads store.lookup? maxHops ⟨kind, key⟩ last ∧
          p = KeyHash.partition (max partitions 1) last.key) := by
  intro store
  have hpartitions : store.partitions = max partitions 1 := partitions_answerAll _ _
  have hpartitionOf : ∀ place : Affinity, store.partitionOf place.kind place.key =
      KeyHash.partition (max partitions 1) (store.anchor place).key := by
    intro place
    rw [← hpartitions]
    rfl
  refine ⟨_, ?_, store.answer_partitionOf kind key, fun hops hnear root hleads hroot => ?_,
    fun hnone => ?_⟩
  · rw [← hpartitions]
    exact store.partitionOf_lt kind key
  · have hanchor : ∀ i ≤ hops, ∀ mid, Leads store.lookup? i ⟨kind, key⟩ mid →
        store.partitionOf mid.kind mid.key = KeyHash.partition (max partitions 1) root.key :=
      fun i hle mid hmid => by
        rw [hpartitionOf, anchor_eq_of_leads hleads hnear hroot hmid hle]
    have hown := hanchor 0 (Nat.zero_le _) _ (.here _)
    refine ⟨hown, fun i hle mid hmid => ?_⟩
    rw [store.answer_partitionOf, hanchor i hle mid hmid, ← hown]
  · obtain ⟨hops, hle, hleads, hend⟩ := anchor_eq_iff.1 (rfl : store.anchor ⟨kind, key⟩ = _)
    rcases hend with hroot | rfl
    · exact absurd ⟨hops, hle, _, hleads, hroot⟩ hnone
    · exact ⟨_, hleads, hpartitionOf ⟨kind, key⟩⟩

/-- An item of an order whose customer is not there is placed by the customer's key, and a customer
that is its own parent by its own key. A put next to something in a collection that is not there
changes neither. -/
theorem partitionOf_along_chain_of_cycle :
    let row : Record := .customer ⟨1, none, none, none⟩
    let requests : List StoreRequest := [
      .put "order_items" 7 (some ("orders", 5)) row,
      .put "orders" 5 (some ("customers", 3)) row,
      .put "customers" 2 (some ("customers", 2)) row,
      .put "orders" 5 (some ("carts", 3)) row]
    let store := ((withPartitions 64).answerAll requests).2
    (store.answer (.partitionOf "order_items" 7)).answer =
        .ok (.partition (KeyHash.partition 64 3)) ∧
      (store.answer (.partitionOf "orders" 5)).answer =
        .ok (.partition (KeyHash.partition 64 3)) ∧
      (store.answer (.partitionOf "customers" 2)).answer =
        .ok (.partition (KeyHash.partition 64 2)) := by
  intro row requests store
  have hitem : HasParent store.lookup? ⟨.orderItem, 7⟩ ⟨.order, 5⟩ := ⟨_, rfl, rfl⟩
  have horder : HasParent store.lookup? ⟨.order, 5⟩ ⟨.customer, 3⟩ := ⟨_, rfl, rfl⟩
  have hself : HasParent store.lookup? ⟨.customer, 2⟩ ⟨.customer, 2⟩ := ⟨_, rfl, rfl⟩
  have hroot : IsRoot store.lookup? ⟨.customer, 3⟩ := fun entry h => by cases h
  refine ⟨?_, ?_, ?_⟩
  · obtain ⟨p, -, hanswer, hnear, -⟩ := partitionOf_along_chain 64 requests .orderItem 7
    obtain ⟨rfl, -⟩ := hnear 2 (by decide) _ (.hop hitem (.hop horder (.here _))) hroot
    exact hanswer
  · obtain ⟨p, -, -, hnear, -⟩ := partitionOf_along_chain 64 requests .orderItem 7
    obtain ⟨rfl, hway⟩ := hnear 2 (by decide) _ (.hop hitem (.hop horder (.here _))) hroot
    exact hway 1 (by decide) _ (.hop hitem (.here _))
  · have hstays : ∀ {hops place last}, Leads store.lookup? hops place last →
        place = ⟨.customer, 2⟩ → last = ⟨.customer, 2⟩ := by
      intro hops place last h
      induction h with
      | here => exact id
      | hop hparent hrest ih =>
        rintro rfl
        exact ih (hparent.unique hself)
    obtain ⟨p, -, hanswer, -, hfar⟩ := partitionOf_along_chain 64 requests .customer 2
    obtain ⟨last, hleads, rfl⟩ := hfar fun ⟨hops, hle, root, hleads, hroot⟩ =>
      hself.not_isRoot (hstays hleads rfl ▸ hroot)
    rw [hstays hleads rfl] at hanswer
    exact hanswer

end MemoryStore

end ChangeFeed
