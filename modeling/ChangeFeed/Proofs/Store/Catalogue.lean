import Mathlib
import ChangeFeed.Operator.Endpoint
import ChangeFeed.Proofs.Store.Chains

/-!
# The store as a finite map

A `Catalogue` maps the keys of the four collections to entries, and `Catalogue.Answers` says how it
answers a request and what it is afterwards. A store that keeps a catalogue
(`MemoryStore.Keeps`) gives the catalogue's answer to every request and then keeps what the
catalogue has become (`MemoryStore.Keeps.answer`); so an empty store answers requests as the empty
catalogue does, however many there are (`MemoryStore.Keeps.answerAll`).

An operator is shown the same catalogue (`Operator.showCollection_of_keeps`).
-/

namespace ChangeFeed

/-! ## Catalogues -/

/-- What is stored under the keys of the four collections. -/
abbrev Catalogue : Type :=
  Finmap fun _ : Kind × Int64 => Entry

namespace Catalogue

/-- The entry of a key. -/
def entry? (m : Catalogue) (kind : Kind) (key : Int64) : Option Entry :=
  m.lookup (kind, key)

/-- The keys of a collection. -/
def keysOf (m : Catalogue) (kind : Kind) : Finset Int64 :=
  (m.keys.filter (·.1 = kind)).image (·.2)

/-- The smallest keys of a collection, in ascending order: as many as a limit allows, or all. -/
structure AreSmallest (m : Catalogue) (kind : Kind) (limit : Nat) (keys : List Int64) : Prop where
  ascending : keys.Pairwise fun a b => a.toInt < b.toInt
  length : keys.length = min limit (m.keysOf kind).card
  stored : ∀ key ∈ keys, key ∈ m.keysOf kind
  smallest : ∀ key ∈ keys, ∀ other ∈ m.keysOf kind, other ∉ keys → key.toInt < other.toInt

/-- The records under the smallest keys of a collection. -/
inductive AreFirst (m : Catalogue) (kind : Kind) (limit : Nat) (rows : List Record) : Prop
  | intro {keys} (hkeys : m.AreSmallest kind limit keys)
      (hrows : keys.map (fun key => (m.entry? kind key).map (·.record)) = rows.map some)

/-- How a catalogue answers a request, and what it is afterwards. Which key decides on a partition
is found by following the parents. -/
inductive Answers (partitions : Nat) (m : Catalogue) :
    StoreRequest → Except StoreError StoreAnswer → Catalogue → Prop
  | refused {request name} (h : request.IsRefused name) :
      Answers partitions m request (.error (.unknownCollection name)) m
  | put (kind : Kind) (key : Int64) (parent : Option Affinity) (record : Record) :
      Answers partitions m (.put kind.collection key (parent.map (·.names)) record) (.ok .stored)
        (m.insert (kind, key) ⟨record, parent⟩)
  | get (kind : Kind) (key : Int64) :
      Answers partitions m (.get kind.collection key)
        (.ok (.found ((m.entry? kind key).map (·.record)))) m
  | remove (kind : Kind) (key : Int64) :
      Answers partitions m (.remove kind.collection key) (.ok (.removed (key ∈ m.keysOf kind)))
        (m.erase (kind, key))
  | partitionOf (kind : Kind) (key : Int64) {hops last}
      (hleads : Leads m.entry? hops ⟨kind, key⟩ last) (hhops : hops ≤ MemoryStore.maxHops)
      (hend : IsRoot m.entry? last ∨ hops = MemoryStore.maxHops) :
      Answers partitions m (.partitionOf kind.collection key)
        (.ok (.partition (KeyHash.partition partitions last.key))) m
  | size (kind : Kind) :
      Answers partitions m (.size kind.collection) (.ok (.size (m.keysOf kind).card)) m
  | list (kind : Kind) (limit : Nat) {rows} (hrows : m.AreFirst kind limit rows) :
      Answers partitions m (.list kind.collection limit) (.ok (.records rows)) m

/-- How a catalogue answers requests in order. -/
inductive AnswersAll (partitions : Nat) : Catalogue → List StoreRequest →
    List (Except StoreError StoreAnswer) → Catalogue → Prop
  | done (m) : AnswersAll partitions m [] [] m
  | step {m m' m'' request answer requests answers} (h : Answers partitions m request answer m')
      (hrest : AnswersAll partitions m' requests answers m'') :
      AnswersAll partitions m (request :: requests) (answer :: answers) m''

/-- A key is one of a collection if it has an entry there. -/
theorem mem_keysOf {m : Catalogue} {kind : Kind} {key : Int64} :
    key ∈ m.keysOf kind ↔ ∃ entry, m.entry? kind key = some entry := by
  have hentry : (∃ entry, m.entry? kind key = some entry) ↔ (kind, key) ∈ m :=
    (Finmap.mem_iff (s := m)).symm
  unfold keysOf
  rw [hentry, Finset.mem_image]
  constructor
  · rintro ⟨⟨kind', key'⟩, hmem, rfl⟩
    obtain ⟨hkey, rfl⟩ := Finset.mem_filter.1 hmem
    exact Finmap.mem_keys.1 hkey
  · intro hmem
    exact ⟨(kind, key), Finset.mem_filter.2 ⟨Finmap.mem_keys.2 hmem, rfl⟩, rfl⟩

end Catalogue

namespace MemoryStore

variable {store : MemoryStore} {m : Catalogue}

/-- A store keeps a catalogue: the same entries under the same keys. -/
def Keeps (store : MemoryStore) (m : Catalogue) : Prop :=
  store.lookup? = m.entry?

/-- An empty store keeps the empty catalogue. -/
theorem keeps_empty (partitions : Nat) : (withPartitions partitions).Keeps ∅ := by
  funext kind key
  cases kind <;> rfl

/-! ## Changes -/

/-- A put writes one entry. -/
theorem Keeps.put (h : store.Keeps m) (kind : Kind) (key : Int64) (parent : Option Affinity)
    (record : Record) :
    (store.put kind key parent record).Keeps (m.insert (kind, key) ⟨record, parent⟩) := by
  funext kind' key'
  rw [lookup?_put, h]
  unfold Catalogue.entry?
  by_cases hplace : (kind', key') = (kind, key)
  · cases hplace
    rw [if_pos ⟨rfl, rfl⟩, Finmap.lookup_insert]
  · rw [if_neg fun hsame => hplace (by rw [hsame.1, hsame.2]),
      Finmap.lookup_insert_of_ne _ hplace]

/-- A removal takes one entry out. -/
theorem Keeps.remove (h : store.Keeps m) (kind : Kind) (key : Int64) :
    (store.remove kind key).Keeps (m.erase (kind, key)) := by
  funext kind' key'
  rw [lookup?_remove, h]
  unfold Catalogue.entry?
  by_cases hplace : (kind', key') = (kind, key)
  · cases hplace
    rw [if_pos ⟨rfl, rfl⟩, Finmap.lookup_erase]
  · rw [if_neg fun hsame => hplace (by rw [hsame.1, hsame.2]), Finmap.lookup_erase_ne hplace]

/-! ## Keys in order -/

/-- The keys of a kind, in ascending order. -/
def keysOf (store : MemoryStore) (kind : Kind) : List Int64 :=
  (store.table kind).entries.map (·.1)

/-- The keys are listed in ascending order, each once. -/
theorem pairwise_keysOf (store : MemoryStore) (kind : Kind) :
    (store.keysOf kind).Pairwise fun a b => a.toInt < b.toInt :=
  List.pairwise_map.2 ((store.table kind).sorted.imp Int64.lt_iff_toInt_lt.1)

/-- They are the keys of the catalogue. -/
theorem Keeps.mem_keysOf (h : store.Keeps m) {kind : Kind} {key : Int64} :
    key ∈ store.keysOf kind ↔ key ∈ m.keysOf kind := by
  rw [Catalogue.mem_keysOf, ← h]
  constructor
  · intro hmem
    obtain ⟨e, he, rfl⟩ := List.mem_map.1 hmem
    exact ⟨e.2, ((store.table kind).get?_eq_some_iff).2 he⟩
  · rintro ⟨entry, hentry⟩
    exact List.mem_map.2 ⟨_, ((store.table kind).get?_eq_some_iff).1 hentry, rfl⟩

/-- The size of a collection is the number of its keys. -/
theorem Keeps.size (h : store.Keeps m) (kind : Kind) : store.size kind = (m.keysOf kind).card := by
  have hnodup : (store.keysOf kind).Nodup :=
    (store.pairwise_keysOf kind).imp fun hlt heq => by
      rw [heq] at hlt
      exact Int.lt_irrefl _ hlt
  have hkeys : (store.keysOf kind).toFinset = m.keysOf kind := by
    ext key
    rw [List.mem_toFinset, h.mem_keysOf]
  rw [← hkeys, List.toFinset_card_of_nodup hnodup]
  exact (List.length_map _).symm

/-- What is listed are the records under the smallest keys. -/
theorem Keeps.list (h : store.Keeps m) (kind : Kind) (limit : Nat) :
    m.AreFirst kind limit (store.list kind limit) := by
  -- The keys are cut in two at the limit, and all in front of the cut are below those behind it.
  have hsorted := store.pairwise_keysOf kind
  rw [← List.take_append_drop limit (store.keysOf kind)] at hsorted
  obtain ⟨htake, -, hbelow⟩ := List.pairwise_append.1 hsorted
  have hsmallest : m.AreSmallest kind limit ((store.keysOf kind).take limit) := by
    refine ⟨htake, ?_, fun key hkey => h.mem_keysOf.1 (List.mem_of_mem_take hkey), ?_⟩
    · rw [List.length_take, ← h.size]
      exact congrArg _ (List.length_map _)
    · intro key hkey other hother hnot
      have hmem : other ∈ (store.keysOf kind).take limit ++ (store.keysOf kind).drop limit := by
        rw [List.take_append_drop]
        exact h.mem_keysOf.2 hother
      exact hbelow key hkey other ((List.mem_append.1 hmem).resolve_left hnot)
  refine .intro hsmallest ?_
  unfold keysOf MemoryStore.list Table.values
  rw [← List.map_take, ← List.map_take, List.map_map, List.map_map, List.map_map]
  refine List.map_congr_left fun e he => ?_
  have hentry : store.lookup? kind e.1 = some e.2 :=
    ((store.table kind).get?_eq_some_iff).2 (List.mem_of_mem_take he)
  rw [h] at hentry
  show (m.entry? kind e.1).map _ = _
  rw [hentry]
  rfl

/-- What is listed up to some limit is the beginning of what is listed up to a higher one. -/
theorem list_isPrefix (store : MemoryStore) (kind : Kind) {few many : Nat} (h : few ≤ many) :
    store.list kind few <+: store.list kind many :=
  (List.take_prefix_take_left h).map _

/-! ## Requests -/

/-- A store answers a request as the catalogue that it keeps, and keeps what this becomes. -/
theorem Keeps.answer (h : store.Keeps m) (request : StoreRequest) :
    ∃ m', Catalogue.Answers store.partitions m request (store.answer request).answer m' ∧
      (store.answer request).after.Keeps m' := by
  rcases request.isAccepted_or with haccepted | ⟨name, hrefused⟩
  · cases haccepted with
    | put kind key parent record =>
      obtain ⟨hanswer, hafter⟩ := answer_of_perform (store.perform_put kind key parent record)
      rw [hanswer, hafter]
      exact ⟨_, .put kind key parent record, h.put kind key parent record⟩
    | get kind key =>
      obtain ⟨hanswer, hafter⟩ := answer_of_perform (store.perform_get kind key)
      rw [hanswer, hafter, get?, h]
      exact ⟨m, .get kind key, h⟩
    | remove kind key =>
      obtain ⟨hanswer, hafter⟩ := answer_of_perform (store.perform_remove kind key)
      have hcontains : store.contains kind key = decide (key ∈ m.keysOf kind) := by
        rw [contains, h, Bool.eq_iff_iff, decide_eq_true_iff, Catalogue.mem_keysOf,
          Option.isSome_iff_exists]
      rw [hanswer, hafter, hcontains]
      exact ⟨_, .remove kind key, h.remove kind key⟩
    | partitionOf kind key =>
      have hleads := anchor_eq_iff.1 (rfl : store.anchor ⟨kind, key⟩ = _)
      rw [h] at hleads
      obtain ⟨hops, hhops, hleads, hend⟩ := hleads
      rw [store.answer_partitionOf, after_answer_of_no_change (.inl rfl)]
      exact ⟨m, .partitionOf kind key hleads hhops hend, h⟩
    | size kind =>
      obtain ⟨hanswer, hafter⟩ := answer_of_perform (store.perform_size kind)
      rw [hanswer, hafter, h.size]
      exact ⟨m, .size kind, h⟩
    | list kind limit =>
      obtain ⟨hanswer, hafter⟩ := answer_of_perform (store.perform_list kind limit)
      rw [hanswer, hafter]
      exact ⟨m, .list kind limit (h.list kind limit), h⟩
  · rw [store.answer_of_isRefused hrefused]
    exact ⟨m, .refused hrefused, h⟩

/-- A store answers requests as the catalogue that it keeps. -/
theorem Keeps.answerAll (h : store.Keeps m) (requests : List StoreRequest) :
    ∃ m', Catalogue.AnswersAll store.partitions m requests (store.answerAll requests).1 m' ∧
      (store.answerAll requests).2.Keeps m' := by
  induction requests generalizing store m with
  | nil => exact ⟨m, .done m, h⟩
  | cons request rest ih =>
    obtain ⟨m', hanswer, hafter⟩ := h.answer request
    obtain ⟨m'', hrest, hlast⟩ := ih hafter
    rw [store.partitions_answer] at hrest
    exact ⟨m'', .step hanswer hrest, hlast⟩

end MemoryStore

/-! ## What an operator is shown -/

namespace Operator

/-- What is shown of the collection with a name: that there is none, that the limit is too high, or
the number of its keys with the first records. -/
inductive ShowsCollection (m : Catalogue) (name : String) (limit : Nat) : Response → Prop
  | unknown (h : ∀ kind : Kind, kind.collection ≠ name) :
      ShowsCollection m name limit
        (.failure (.notFound ("Unknown collection '" ++ name ++ "'")))
  | aboveLimit {kind : Kind} (h : kind.collection = name) (hlimit : 1000 < limit) :
      ShowsCollection m name limit (.failure (.validation "limit must be at most 1000"))
  | rows {kind : Kind} {rows} (h : kind.collection = name) (hlimit : limit ≤ 1000)
      (hrows : m.AreFirst kind limit rows) :
      ShowsCollection m name limit (.json 200 (.object [
        ("collection", .string name),
        ("size", .ofNat (m.keysOf kind).card),
        ("records", .array (rows.map Record.toJson))]))

/-- What is shown of a collection in a store is what the catalogue says that the store keeps. -/
theorem showCollection_of_keeps {outlook : Outlook} {m : Catalogue} (h : outlook.store.Keeps m)
    (name : String) (limit : Option Nat) :
    ShowsCollection m name (limit.getD 20) (showCollection outlook name limit) := by
  unfold showCollection
  rcases Kind.exists_collection_eq_or name with ⟨kind, rfl⟩ | hnone
  · rw [Kind.ofCollection?_collection]
    show ShowsCollection m _ _ (if 1000 < limit.getD 20 then _ else _)
    split
    · next hlimit => exact .aboveLimit rfl hlimit
    · next hlimit =>
      rw [collectionToJson, h.size]
      exact .rows rfl (Nat.not_lt.1 hlimit) (h.list kind _)
  · rw [Kind.ofCollection?_eq_none hnone]
    exact .unknown hnone

/-- A request whose path leads to a collection and whose query can be read is answered with the
collection. -/
theorem respond_of_collection (outlook : Outlook) {uri name : String} {limit : Option Nat}
    (hpath : Endpoint.ofPath? (decodePath (Target.ofText uri).path) = some (.collection name))
    (hlimit : (Target.ofText uri).limit = .ok limit) :
    respond outlook "GET" uri = showCollection outlook name limit := by
  simp only [respond, if_true, hpath, Endpoint.answer, hlimit]

end Operator

namespace MemoryStore

/-- Whatever it is asked for, a store in memory answers as a finite map does from the keys of four
collections to records with their parents. It fails for the sake of unknown collections only, and
then changes nothing, as little as when it is only read. What it lists up to some limit is the
beginning of what it lists up to a higher one. An operator is shown the same map. -/
theorem answers_as_catalogue (partitions : Nat) (requests : List StoreRequest) :
    ∃ m : Catalogue,
      Catalogue.AnswersAll (max partitions 1) ∅ requests
        ((withPartitions partitions).answerAll requests).1 m ∧
      let store := ((withPartitions partitions).answerAll requests).2
      store.Keeps m ∧
      (∀ request e, (store.answer request).answer = .error e ↔
        ∃ name, request.IsRefused name ∧ e = .unknownCollection name) ∧
      (∀ request : StoreRequest, (request.reads = true ∨ ∃ name, request.IsRefused name) →
        (store.answer request).after = store) ∧
      (∀ (kind : Kind) (few many : Nat), few ≤ many → ∃ rows rest,
        (store.answer (.list kind.collection few)).answer = .ok (.records rows) ∧
        (store.answer (.list kind.collection many)).answer = .ok (.records (rows ++ rest))) ∧
      ∀ recorder consumers reading uri name limit,
        Operator.Endpoint.ofPath? (Operator.decodePath (Operator.Target.ofText uri).path) =
          some (.collection name) →
        (Operator.Target.ofText uri).limit = .ok limit →
        Operator.ShowsCollection m name (limit.getD 20)
          (Operator.respond ⟨recorder, store, consumers, reading⟩ "GET" uri) := by
  obtain ⟨m, hanswers, hkeeps⟩ := (keeps_empty partitions).answerAll requests
  refine ⟨m, hanswers, hkeeps, fun request e => answer_eq_error_iff,
    fun request => after_answer_of_no_change, fun kind few many hle => ?_,
    fun recorder consumers reading uri name limit hpath hlimit => ?_⟩
  · obtain ⟨rest, hrest⟩ :=
      list_isPrefix ((withPartitions partitions).answerAll requests).2 kind hle
    refine ⟨_, rest, (answer_of_perform (perform_list ..)).1, ?_⟩
    rw [hrest]
    exact (answer_of_perform (perform_list ..)).1
  · rw [Operator.respond_of_collection _ hpath hlimit]
    exact Operator.showCollection_of_keeps hkeeps name limit

/-- Of two customers the one with the negative key comes first. A third one, next to something in a
collection that is not there, is refused. -/
theorem answers_as_catalogue_customers :
    let row (id : Int64) : Record := .customer ⟨id, none, none, none⟩
    let store := ((withPartitions 16).answerAll [
      .put "customers" 5 none (row 5),
      .put "customers" (-3) (some ("customers", 5)) (row (-3)),
      .put "customers" 7 (some ("carts", 1)) (row 7)]).2
    (store.answer (.remove "carts" 5)).after = store ∧
      (store.answer (.get "customers" 5)).after = store ∧
      (∃ rest, (store.answer (.list "customers" 2)).answer = .ok (.records (row (-3) :: rest))) ∧
      ∃ m : Catalogue, store.Keeps m ∧ Operator.ShowsCollection m "customers" 1
        (Operator.respond ⟨.empty, store, [], 0⟩ "GET"
          "/api/v1/collections/customers?limit=1") := by
  intro row store
  obtain ⟨m, -, hkeeps, -, hunchanged, hprefix, hshown⟩ := answers_as_catalogue 16 [
    .put "customers" 5 none (row 5),
    .put "customers" (-3) (some ("customers", 5)) (row (-3)),
    .put "customers" 7 (some ("carts", 1)) (row 7)]
  refine ⟨?_, ?_, ?_, m, hkeeps, ?_⟩
  · exact hunchanged _ (.inr ⟨"carts", .collection fun kind => by cases kind <;> decide⟩)
  · exact hunchanged _ (.inl rfl)
  · obtain ⟨rows, rest, hfew, hmany⟩ := hprefix .customer 1 2 (by decide)
    cases hfew
    exact ⟨rest, hmany⟩
  · exact hshown .empty [] 0 _ "customers" (some 1) (by decide +kernel) (by decide +kernel)

end MemoryStore

end ChangeFeed
