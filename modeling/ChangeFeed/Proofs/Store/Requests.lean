import ChangeFeed.Proofs.Store.Placement

/-!
# Requests one after the other

A request is refused for a collection that it names and that is not there, and for nothing else
(`MemoryStore.answer_eq_error_iff`). One that is refused leaves the store as it was, and so does one
that only reads (`MemoryStore.after_answer_of_no_change`).

`MemoryStore.answerAll` answers requests in order, over one number of partitions.
-/

namespace ChangeFeed

/-! ## Names of collections -/

/-- A name that none of the kinds' collections has is not the name of a collection. -/
theorem Kind.ofCollection?_eq_none {collection : String}
    (h : ∀ kind : Kind, kind.collection ≠ collection) : ofCollection? collection = none :=
  List.find?_eq_none.2 fun kind _ hkind => h kind (of_decide_eq_true hkind)

/-- A collection that none of the kinds has does not exist. -/
theorem Kind.ofCollection_of_ne {collection : String}
    (h : ∀ kind : Kind, kind.collection ≠ collection) :
    ofCollection collection = .error (.unknownCollection collection) := by
  unfold ofCollection
  rw [ofCollection?_eq_none h]

/-- A name is that of a kind's collection, or of none. -/
theorem Kind.exists_collection_eq_or (name : String) :
    (∃ kind : Kind, kind.collection = name) ∨ ∀ kind : Kind, kind.collection ≠ name := by
  by_cases h : ∃ kind : Kind, kind.collection = name
  · exact .inl h
  · exact .inr fun kind hkind => h ⟨kind, hkind⟩

/-- The names of a place, its collection and its key. -/
def Affinity.names (place : Affinity) : String × Int64 :=
  (place.kind.collection, place.key)

/-- A place is found by its names. -/
theorem Affinity.ofNames_names (place : Affinity) : ofNames place.names = .ok place := by
  unfold ofNames names
  rw [Kind.ofCollection_collection]
  rfl

namespace StoreRequest

/-- The collection that a request is about. -/
def collection : StoreRequest → String
  | .put collection .. => collection
  | .get collection _ => collection
  | .remove collection _ => collection
  | .partitionOf collection _ => collection
  | .size collection => collection
  | .list collection _ => collection

/-- Whether a request only reads. -/
def reads : StoreRequest → Bool
  | .put .. => false
  | .remove .. => false
  | _ => true

/-- The name that a request is refused for: its own collection is not there, or else that of the
parent. -/
inductive IsRefused : StoreRequest → (name : String) → Prop
  | collection {request} (h : ∀ kind : Kind, kind.collection ≠ request.collection) :
      IsRefused request request.collection
  | parent (kind : Kind) (key : Int64) (parentKey : Int64) (record : Record) {name}
      (h : ∀ kind : Kind, kind.collection ≠ name) :
      IsRefused (.put kind.collection key (some (name, parentKey)) record) name

/-- A request that is not refused. -/
inductive IsAccepted : StoreRequest → Prop
  | put (kind : Kind) (key : Int64) (parent : Option Affinity) (record : Record) :
      IsAccepted (.put kind.collection key (parent.map (·.names)) record)
  | get (kind : Kind) (key : Int64) : IsAccepted (.get kind.collection key)
  | remove (kind : Kind) (key : Int64) : IsAccepted (.remove kind.collection key)
  | partitionOf (kind : Kind) (key : Int64) : IsAccepted (.partitionOf kind.collection key)
  | size (kind : Kind) : IsAccepted (.size kind.collection)
  | list (kind : Kind) (limit : Nat) : IsAccepted (.list kind.collection limit)

/-- A request is accepted, or refused for some name. -/
theorem isAccepted_or (request : StoreRequest) :
    request.IsAccepted ∨ ∃ name, request.IsRefused name := by
  rcases Kind.exists_collection_eq_or request.collection with ⟨kind, hkind⟩ | hnone
  · cases request with
    | put name key parent record =>
      cases hkind
      cases parent with
      | none => exact .inl (.put kind key none record)
      | some names =>
        obtain ⟨parentName, parentKey⟩ := names
        rcases Kind.exists_collection_eq_or parentName with ⟨parentKind, rfl⟩ | hparent
        · exact .inl (.put kind key (some ⟨parentKind, parentKey⟩) record)
        · exact .inr ⟨parentName, .parent kind key parentKey record hparent⟩
    | get name key =>
      cases hkind
      exact .inl (.get kind key)
    | remove name key =>
      cases hkind
      exact .inl (.remove kind key)
    | partitionOf name key =>
      cases hkind
      exact .inl (.partitionOf kind key)
    | size name =>
      cases hkind
      exact .inl (.size kind)
    | list name limit =>
      cases hkind
      exact .inl (.list kind limit)
  · exact .inr ⟨_, .collection hnone⟩

end StoreRequest

namespace MemoryStore

variable {store : MemoryStore} {request : StoreRequest}

/-! ## One request -/

/-- A put into one of the collections, with a parent in one of them or none, is carried out. -/
theorem perform_put (store : MemoryStore) (kind : Kind) (key : Int64) (parent : Option Affinity)
    (record : Record) :
    store.perform (.put kind.collection key (parent.map (·.names)) record) =
      .ok (.stored, store.put kind key parent record, putLines kind key) := by
  have hparent : (parent.map (·.names)).mapM Affinity.ofNames = .ok parent := by
    cases parent with
    | none => rfl
    | some place => simp only [Option.map_some, Option.mapM_some, Affinity.ofNames_names]; rfl
  simp only [perform, Kind.ofCollection_collection, hparent]
  rfl

/-- A record of any of the four collections can be asked for. -/
theorem perform_get (store : MemoryStore) (kind : Kind) (key : Int64) :
    store.perform (.get kind.collection key) = .ok (.found (store.get? kind key), store, []) := by
  simp only [perform, Kind.ofCollection_collection]
  rfl

/-- A key of any of the four collections can be taken out. -/
theorem perform_remove (store : MemoryStore) (kind : Kind) (key : Int64) :
    store.perform (.remove kind.collection key) =
      .ok (.removed (store.contains kind key), store.remove kind key, []) := by
  simp only [perform, Kind.ofCollection_collection]
  rfl

/-- The records of any of the four collections can be counted. -/
theorem perform_size (store : MemoryStore) (kind : Kind) :
    store.perform (.size kind.collection) = .ok (.size (store.size kind), store, []) := by
  simp only [perform, Kind.ofCollection_collection]
  rfl

/-- The records of any of the four collections can be listed. -/
theorem perform_list (store : MemoryStore) (kind : Kind) (limit : Nat) :
    store.perform (.list kind.collection limit) =
      .ok (.records (store.list kind limit), store, []) := by
  simp only [perform, Kind.ofCollection_collection]
  rfl

/-- The partition of a key in any of the four collections is told. -/
theorem exists_perform_partitionOf (store : MemoryStore) (kind : Kind) (key : Int64) :
    ∃ lines, store.perform (.partitionOf kind.collection key) =
      .ok (.partition (store.partitionOf kind key), store, lines) := by
  simp only [perform, Kind.ofCollection_collection]
  exact ⟨_, rfl⟩

/-- A request that is carried out is answered so, and leaves the store that it makes. -/
theorem answer_of_perform {answer : StoreAnswer} {after : MemoryStore} {lines : List Journal.Line}
    (h : store.perform request = .ok (answer, after, lines)) :
    (store.answer request).answer = .ok answer ∧ (store.answer request).after = after := by
  unfold MemoryStore.answer
  rw [h]
  exact ⟨rfl, rfl⟩

/-- A request for the partition of a key in one of the collections is answered with it. -/
theorem answer_partitionOf (store : MemoryStore) (kind : Kind) (key : Int64) :
    (store.answer (.partitionOf kind.collection key)).answer =
      .ok (.partition (store.partitionOf kind key)) := by
  obtain ⟨lines, h⟩ := store.exists_perform_partitionOf kind key
  exact (answer_of_perform h).1

/-- An accepted request is answered. -/
theorem exists_answer_of_isAccepted (store : MemoryStore) (h : request.IsAccepted) :
    ∃ answer, (store.answer request).answer = .ok answer := by
  cases h with
  | put kind key parent record => exact ⟨_, (answer_of_perform (perform_put ..)).1⟩
  | get kind key => exact ⟨_, (answer_of_perform (perform_get ..)).1⟩
  | remove kind key => exact ⟨_, (answer_of_perform (perform_remove ..)).1⟩
  | partitionOf kind key => exact ⟨_, store.answer_partitionOf kind key⟩
  | size kind => exact ⟨_, (answer_of_perform (perform_size ..)).1⟩
  | list kind limit => exact ⟨_, (answer_of_perform (perform_list ..)).1⟩

/-- A refused request is answered with the name that it is refused for, and leaves the store as it
was. -/
theorem answer_of_isRefused (store : MemoryStore) {name : String} (h : request.IsRefused name) :
    store.answer request = .now (.error (.unknownCollection name)) store := by
  have hperform : store.perform request = .error (.unknownCollection name) := by
    cases h with
    | collection h =>
      cases request with
      | _ =>
        simp only [perform, StoreRequest.collection] at h ⊢
        rw [Kind.ofCollection_of_ne h]
        rfl
    | parent kind key parentKey record h =>
      have hparent : Affinity.ofNames (name, parentKey) = .error (.unknownCollection name) := by
        unfold Affinity.ofNames
        rw [Kind.ofCollection_of_ne h]
        rfl
      simp only [perform, Kind.ofCollection_collection, Option.mapM_some, hparent]
      rfl
  unfold MemoryStore.answer
  rw [hperform]

/-- Requests fail because of names that are not those of collections, and for nothing else. -/
theorem answer_eq_error_iff {e : StoreError} :
    (store.answer request).answer = .error e ↔
      ∃ name, request.IsRefused name ∧ e = .unknownCollection name := by
  constructor
  · intro h
    rcases request.isAccepted_or with haccepted | ⟨name, hrefused⟩
    · obtain ⟨answer, hanswer⟩ := store.exists_answer_of_isAccepted haccepted
      rw [hanswer] at h
      cases h
    · rw [store.answer_of_isRefused hrefused] at h
      cases h
      exact ⟨name, hrefused, rfl⟩
  · rintro ⟨name, hrefused, rfl⟩
    rw [store.answer_of_isRefused hrefused]
    rfl

/-- A request that only reads leaves the store as it was, and so does one that is refused. -/
theorem after_answer_of_no_change
    (h : request.reads = true ∨ ∃ name, request.IsRefused name) :
    (store.answer request).after = store := by
  rcases request.isAccepted_or with haccepted | ⟨name, hrefused⟩
  · have hreads : request.reads = true := by
      rcases h with hreads | ⟨name, hrefused⟩
      · exact hreads
      · obtain ⟨answer, hanswer⟩ := store.exists_answer_of_isAccepted haccepted
        rw [store.answer_of_isRefused hrefused] at hanswer
        cases hanswer
    cases haccepted with
    | put => cases hreads
    | remove => cases hreads
    | get => exact (answer_of_perform (perform_get ..)).2
    | partitionOf kind key =>
      obtain ⟨lines, hperform⟩ := store.exists_perform_partitionOf kind key
      exact (answer_of_perform hperform).2
    | size => exact (answer_of_perform (perform_size ..)).2
    | list => exact (answer_of_perform (perform_list ..)).2
  · rw [store.answer_of_isRefused hrefused]
    rfl

/-! ## Many requests -/

/-- Answers requests in order, and returns the store after the last one. -/
def answerAll (store : MemoryStore) :
    List StoreRequest → List (Except StoreError StoreAnswer) × MemoryStore
  | [] => ([], store)
  | request :: rest =>
    let reply := store.answer request
    let (answers, last) := reply.after.answerAll rest
    (reply.answer :: answers, last)

/-- No request changes the number of partitions. -/
theorem partitions_answer (store : MemoryStore) (request : StoreRequest) :
    (store.answer request).after.partitions = store.partitions := by
  rcases request.isAccepted_or with haccepted | hrefused
  · cases haccepted with
    | put =>
      rw [(answer_of_perform (perform_put ..)).2]
      exact partitions_setTable ..
    | remove =>
      rw [(answer_of_perform (perform_remove ..)).2]
      exact partitions_setTable ..
    | _ => rw [after_answer_of_no_change (.inl rfl)]
  · rw [after_answer_of_no_change (.inr hrefused)]

/-- Nor do many of them. -/
theorem partitions_answerAll (store : MemoryStore) (requests : List StoreRequest) :
    (store.answerAll requests).2.partitions = store.partitions := by
  induction requests generalizing store with
  | nil => rfl
  | cons request rest ih => exact (ih _).trans (store.partitions_answer request)

end MemoryStore

end ChangeFeed
