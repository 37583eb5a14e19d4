import ChangeFeed.Proofs.Engine.InMemory

/-!
# Deletes that undo upserts

An upsert writes a row under the key of the record that is decoded from its image. A delete decodes
the key alone, from an image of its own. Both find the same key in the same id, however that is
written and whatever else stands beside it, so the delete takes out what the upsert wrote
(`Engine.erased_of_delete`). What it leaves is the store as it was, if the key was not there before
(`MemoryStore.remove_put`).
-/

namespace ChangeFeed

/-- The id of an image is a key, in any form that an integer may have. -/
def Json.HasId (image : Json) (key : Int64) : Prop :=
  ∃ members column, image = .object members ∧ Json.lookup? members "id" = some column ∧
    Coercion.integer column = .ok key

/-- The key of an image is decoded if its id is one. -/
theorem Kind.decodeKey_of_hasId {image : Json} {key : Int64} (h : image.HasId key) (kind : Kind) :
    kind.decodeKey image = .ok key := by
  obtain ⟨members, column, rfl, hcolumn, hkey⟩ := h
  -- A column that is null would be no integer.
  have hvalue : Image.value? ⟨members⟩ "id" = some column := by
    unfold Image.value?
    rw [hcolumn]
    cases column with
    | null => cases hkey
    | _ => rfl
  refine bind_eq_ok_iff.2 ⟨⟨members⟩, rfl, ?_⟩
  unfold Image.requiredInteger Image.required
  rw [hvalue]
  dsimp only
  unfold Image.coerce
  rw [hkey]
  rfl

/-- A removal undoes a put of a key that was not there. -/
theorem MemoryStore.remove_put {store : MemoryStore} {kind : Kind} {key : Int64}
    (absent : store.lookup? kind key = none) (affinity : Option Affinity) (record : Record) :
    (store.put kind key affinity record).remove kind key = store := by
  apply ext_lookup?
  · exact (partitions_setTable ..).trans (partitions_setTable ..)
  · intro other key'
    rw [lookup?_remove, lookup?_put]
    split
    · next h =>
      obtain ⟨rfl, rfl⟩ := h
      exact absent.symm
    · rfl

namespace Router

/-- A request to write an image: it holds an event on a table of the kind that writes its row, with
the image after it. -/
def Upserts (router : Router) (kind : Kind) (image : Json) (request : Request) : Prop :=
  ∃ event, request.event? = some event ∧ router.route? event.table = some kind ∧
    event.operation ≠ .delete ∧ event.after = some image

/-- A request to take out the row of an image: it holds a delete on a table of the kind, with the
image before it. -/
def Deletes (router : Router) (kind : Kind) (image : Json) (request : Request) : Prop :=
  ∃ event, request.event? = some event ∧ router.route? event.table = some kind ∧
    event.operation = .delete ∧ event.before = some image

variable {router : Router} {kind : Kind} {image : Json} {request : Request}

/-- A request to write an image is planned to write the record in it. -/
theorem Upserts.plan {record : Record} (h : router.Upserts kind image request)
    (hdecode : kind.decode image = .ok record) :
    ∃ event op, request.event? = some event ∧
      router.plan event = .ok (.upsert op record) := by
  obtain ⟨event, hevent, hroute, hop, himage⟩ := h
  have hupsert : event.operation.isUpsert = true := by
    rw [← Bool.not_eq_false]
    exact fun hfalse => hop (Operation.isUpsert_eq_false_iff.1 hfalse)
  have hused : event.image? = some image := by rw [ChangeEvent.image?, hupsert]; exact himage
  exact ⟨event, event.operation, hevent, plan_eq_ok_iff.2 ⟨kind, image, hroute, hused,
    Kind.action_eq_ok_iff.2 (.inl ⟨hupsert, record, hdecode, rfl⟩)⟩⟩

/-- A request to take out the row of an image is planned to take out the image's key. -/
theorem Deletes.plan {key : Int64} (h : router.Deletes kind image request)
    (hkey : kind.decodeKey image = .ok key) :
    ∃ event, request.event? = some event ∧ router.plan event = .ok (.delete kind key) := by
  obtain ⟨event, hevent, hroute, hop, himage⟩ := h
  have hused : event.image? = some image := by rw [ChangeEvent.image?, hop]; exact himage
  exact ⟨event, hevent, plan_eq_ok_iff.2 ⟨kind, image, hroute, hused,
    Kind.action_eq_ok_iff.2 (.inr ⟨hop, key, hkey, rfl⟩)⟩⟩

end Router

namespace Engine

/-- Over a store in memory a request with an action is applied, and the action is carried out. -/
theorem serve_inMemory_of_plan {router : Router} {request : Request} {event : ChangeEvent}
    {action : Action} (hevent : request.event? = some event)
    (hplan : router.plan event = .ok action) (tuning : Tuning) (t : Timeline (Site MemoryStore)) :
    ((inMemory router tuning).serve request t).1 =
        .applied action.effect action.kind action.key ∧
      ((inMemory router tuning).serve request t).2.state.store = t.state.store.carry action := by
  rcases (inMemory router tuning).serve_eq_carryOut request t with
    ⟨message, e, rfl, hread, -⟩ | ⟨event', origin, hevent', hserve⟩
  · -- A message that is planned for can be read.
    have hnone : (Request.message message).event? = none := by
      show (ChangeEvent.ofMessage message).toOption = none
      rw [hread]
      rfl
    rw [hnone] at hevent
    cases hevent
  · cases hevent.symm.trans hevent'
    obtain ⟨hresult, hstore⟩ := carryOut_inMemory router tuning event t
    rw [hplan] at hresult hstore
    rw [hserve]
    refine ⟨?_, hstore⟩
    show Outcome.ofResult _ = _
    rw [hresult]
    rfl

/-- An image that can be decoded has the key of its record, and one whose key is refused is refused
for the same reason. So a delete addresses the row that an upsert wrote: where an image is written,
and then the row of another image is deleted whose id is the same key, both are applied to that key
and it is gone. If it was not there to begin with, the store is what it was. -/
theorem erased_of_delete (kind : Kind) :
    (∀ image record, kind.decode image = .ok record → kind.decodeKey image = .ok record.key) ∧
    (∀ image e, kind.decodeKey image = .error e → kind.decode image = .error e) ∧
    ∀ (router : Router) (tuning : Tuning) (t : Timeline (Site MemoryStore))
      (upsert delete : Request) (image other : Json) (record : Record),
      kind.decode image = .ok record → other.HasId record.key →
      router.Upserts kind image upsert → router.Deletes kind other delete →
      let (written, between) := (inMemory router tuning).serve upsert t
      let (erased, after) := (inMemory router tuning).serve delete between
      (∃ effect, written = .applied effect kind record.key) ∧
        between.state.store.lookup? kind record.key = some ⟨record, record.affinity⟩ ∧
        erased = .applied .deleted kind record.key ∧
        after.state.store.lookup? kind record.key = none ∧
        (t.state.store.lookup? kind record.key = none →
          after.state.store = t.state.store) := by
  refine ⟨fun _ _ => Kind.decodeKey_of_decode, fun _ _ => Kind.decode_of_decodeKey_error, ?_⟩
  intro router tuning t upsert delete image other record hdecode hid hupsert hdelete
  obtain ⟨event, op, hevent, hplan⟩ := hupsert.plan hdecode
  obtain ⟨event', hevent', hplan'⟩ := hdelete.plan (Kind.decodeKey_of_hasId hid kind)
  obtain ⟨hwritten, hput⟩ := serve_inMemory_of_plan hevent hplan tuning t
  obtain ⟨herased, hremove⟩ := serve_inMemory_of_plan hevent' hplan' tuning
    ((inMemory router tuning).serve upsert t).2
  dsimp only
  rw [hremove, hput]
  -- The record is of the kind that its table is routed to.
  have hkind : record.kind = kind := Kind.kind_of_decode hdecode
  subst hkind
  refine ⟨⟨_, hwritten⟩, ?_, herased, ?_, fun absent => MemoryStore.remove_put absent _ _⟩
  · exact (MemoryStore.lookup?_put ..).trans (if_pos ⟨rfl, rfl⟩)
  · exact (MemoryStore.lookup?_remove ..).trans (if_pos ⟨rfl, rfl⟩)

/-- An order whose id is a text with blanks and zeros around is deleted by an id that is a float,
beside columns that no order has. -/
theorem erased_of_delete_float :
    let image : Json := .object [("id", .string " 42.00 "), ("customer_id", .ofInt64 7)]
    let other : Json := .object [("kept", .null), ("id", .number (.float (.ofNat 42)))]
    let upsert : Request := .event ⟨.insert, none, some image, "orders", none⟩
    let delete : Request := .event ⟨.delete, some other, none, "order", none⟩
    let engine := inMemory .builtIn .default
    let (written, between) := engine.serve upsert (.start (.new .new))
    let (erased, after) := engine.serve delete between
    (∃ effect, written = .applied effect .order 42) ∧ erased = .applied .deleted .order 42 ∧
      after.state.store = .new := by
  intro image other upsert delete engine
  have hdecode : Kind.order.decode image = .ok (.order ⟨42, 7, none, none, none⟩) := by
    decide +kernel +zetaReduce
  have hinteger : Coercion.integer (.number (.float (.ofNat 42))) = .ok 42 := by decide +kernel
  have hroute : Router.builtIn.route? "orders" = some .order := by decide +kernel
  have hroute' : Router.builtIn.route? "order" = some .order := by decide +kernel
  have hid : other.HasId 42 := ⟨_, _, rfl, rfl, hinteger⟩
  have hupsert : Router.builtIn.Upserts .order image upsert := ⟨_, rfl, hroute, nofun, rfl⟩
  have hdelete : Router.builtIn.Deletes .order other delete := ⟨_, rfl, hroute', rfl, rfl⟩
  -- From here on only these facts matter: nothing is run.
  clear_value image other upsert delete
  obtain ⟨hwritten, -, herased, -, hafter⟩ := (erased_of_delete .order).2.2 .builtIn .default
    (.start (.new .new)) upsert delete image other _ hdecode hid hupsert hdelete
  exact ⟨hwritten, herased, hafter rfl⟩

end Engine

end ChangeFeed
