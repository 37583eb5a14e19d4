import ChangeFeed.Proofs.Engine.InMemory
import ChangeFeed.Proofs.Store.Placement

/-!
# Colocation

An engine over a store in memory that was empty keeps every record in the partition of its parent,
whatever it is given to handle and in whatever order: the store stays faithful, and in a faithful
store every entry is placed where its parent is. For the same reason nothing is ever reported about
a place. `Timeline.Unmoved` says so of two moments; each part of handling a message keeps it, and
`colocated_handleAll` puts both sides together for a list of messages.
-/

namespace ChangeFeed

variable {σ : Type}

/-- Whether a line reports that a record is not where it belongs: apart from its parent, or at the
end of a chain that was not followed to its end. -/
def Journal.Line.ReportsMisplacement (line : Journal.Line) : Prop :=
  "Affinity chain too deep".toList <+: line.message.toList ∨
    "Colocation violated".toList <+: line.message.toList

/-- A line whose text begins otherwise reports no misplacement. -/
theorem Journal.Line.not_reportsMisplacement {level : Journal.Level} {message : String}
    {fields : List (String × Journal.Value)}
    (h : message.toList.take 2 ≠ ['A', 'f'] ∧ message.toList.take 2 ≠ ['C', 'o']) :
    ¬ (⟨level, message, fields⟩ : Journal.Line).ReportsMisplacement := by
  -- The first two letters tell the two texts from all others.
  rintro (hdeep | hviolated)
  · obtain ⟨rest, hrest⟩ := hdeep
    exact h.1 (by rw [← hrest]; rfl)
  · obtain ⟨rest, hrest⟩ := hviolated
    exact h.2 (by rw [← hrest]; rfl)

/-! ## Moments between which no misplacement is reported -/

namespace Timeline

/-- No line that is written from one moment to another reports a misplacement. -/
def Unmoved (t t' : Timeline σ) : Prop :=
  ∃ written, t'.journal = t.journal ++ written ∧ ∀ line ∈ written, ¬ line.ReportsMisplacement

namespace Unmoved

variable {t t' t'' : Timeline σ}

/-- Where nothing is written, nothing is reported. -/
theorem of_journal (h : t'.journal = t.journal) : t.Unmoved t' :=
  ⟨[], by rw [h, List.append_nil], fun _ hl => absurd hl List.not_mem_nil⟩

/-- Where nothing is reported up to a moment and nothing from there on, nothing is reported. -/
theorem trans (h : t.Unmoved t') (h' : t'.Unmoved t'') : t.Unmoved t'' := by
  obtain ⟨first, hfirst, hown⟩ := h
  obtain ⟨second, hsecond, hown'⟩ := h'
  refine ⟨first ++ second, by rw [hsecond, hfirst, List.append_assoc], fun line hl => ?_⟩
  rcases List.mem_append.1 hl with hl | hl
  · exact hown line hl
  · exact hown' line hl

/-- One more line that reports no misplacement. -/
theorem line (h : t.Unmoved t') {line : Journal.Line}
    (hjournal : t''.journal = t'.journal ++ [line]) (hline : ¬ line.ReportsMisplacement) :
    t.Unmoved t'' :=
  h.trans ⟨[line], hjournal, fun other hl => by rwa [List.mem_singleton.1 hl]⟩

end Unmoved

end Timeline

/-- The line about an outcome reports no misplacement. -/
theorem Outcome.not_reportsMisplacement_line (outcome : Outcome) (origin : Origin) :
    ¬ (outcome.line origin).ReportsMisplacement := by
  cases outcome with
  | applied effect kind key => exact Journal.Line.not_reportsMisplacement (by decide)
  | rejected e =>
    apply Journal.Line.not_reportsMisplacement
    rw [String.toList_append, List.take_append_of_le_length (by decide)]
    decide

namespace Engine

variable (router : Router) (tuning : Tuning)

/-- In a faithful store both lookups are answered at once, and nothing is written. -/
theorem lookUp_inMemory {t : Timeline (Site MemoryStore)} (h : t.state.store.IsFaithful)
    (place parent : Affinity) :
    ∃ t', (inMemory router tuning).lookUp place parent t =
        (some (.ok (t.state.store.partitionOf place.kind place.key),
          .ok (t.state.store.partitionOf parent.kind parent.key)), t') ∧
      t'.journal = t.journal := by
  have hown : ((inMemory router tuning).partitionOf place t).delay = some .zero := rfl
  have hquiet := t.state.store.placementLines_of_isFaithful h
  unfold lookUp
  dsimp only
  rw [Timeline.await?_of_immediate _ _ _ hown]
  dsimp only
  rw [Timeline.await?_of_immediate _ _ _ rfl]
  refine ⟨_, rfl, ?_⟩
  show t.journal ++ t.state.store.placementLines place.kind place.key ++
    t.state.store.placementLines parent.kind parent.key = t.journal
  rw [hquiet, hquiet, List.append_nil, List.append_nil]

/-- In a faithful store a record that has just been written is not reported. -/
theorem unmoved_verifyRecord {t : Timeline (Site MemoryStore)} (h : t.state.store.IsFaithful)
    {record : Record}
    (hstored : t.state.store.parent? ⟨record.kind, record.key⟩ = record.affinity) :
    t.Unmoved ((inMemory router tuning).verifyRecord record t) := by
  unfold verifyRecord
  split
  · next parent hparent =>
    split
    · obtain ⟨t', hlook, hjournal⟩ :=
        lookUp_inMemory router tuning h ⟨record.kind, record.key⟩ parent
      have hsame := MemoryStore.partitionOf_parent h (hstored.trans hparent)
      -- The record and its parent are in the same partition, so that nothing is left to say.
      unfold verify
      dsimp only
      rw [hlook]
      dsimp only
      rw [if_pos hsame]
      exact .of_journal hjournal
    · exact .of_journal rfl
  · exact .of_journal rfl

/-- Performing an action on a faithful store reports no misplacement. -/
theorem unmoved_perform {t : Timeline (Site MemoryStore)} (h : t.state.store.IsFaithful)
    (action : Action) : t.Unmoved ((inMemory router tuning).perform action t).2 := by
  cases action with
  | upsert op record =>
    have hdelay : ((inMemory router tuning).put record t).delay = some .zero := rfl
    have hcall :=
      (inMemory router tuning).call_eq_of_immediate (.upsert op record) hdelay rfl
    unfold perform
    dsimp only
    rw [hcall]
    refine .trans (.line (.of_journal rfl) rfl ?_) (unmoved_verifyRecord router tuning ?_ ?_)
    · exact Journal.Line.not_reportsMisplacement (by decide)
    · exact h.carry (.upsert op record)
    · -- What was just written is there, with the record's own parent.
      show ((t.state.store.put record.kind record.key record.affinity record).lookup?
        record.kind record.key).bind _ = _
      rw [MemoryStore.lookup?_put, if_pos ⟨rfl, rfl⟩]
      rfl
  | delete kind key =>
    have hdelay : ((inMemory router tuning).remove kind key t).delay = some .zero := rfl
    have hcall :=
      (inMemory router tuning).call_eq_of_immediate (.delete kind key) hdelay rfl
    have hjournal : ((inMemory router tuning).call (.delete kind key)
        ((inMemory router tuning).remove kind key) t).2.journal = t.journal := by
      rw [hcall]
      exact List.append_nil _
    unfold perform
    dsimp only
    split
    · next hc =>
      rw [hc] at hjournal
      exact .of_journal hjournal
    · next hc =>
      rw [hc] at hjournal
      refine .line (.of_journal hjournal) rfl ?_
      exact Journal.Line.not_reportsMisplacement (by decide)
    · next hc =>
      rw [hc] at hjournal
      exact .of_journal hjournal

/-- Carrying out an event on a faithful store reports no misplacement. -/
theorem unmoved_carryOut {t : Timeline (Site MemoryStore)} (h : t.state.store.IsFaithful)
    (event : ChangeEvent) : t.Unmoved ((inMemory router tuning).carryOut event t).2 := by
  cases hplan : (inMemory router tuning).router.plan event with
  | error e =>
    rw [carryOut_of_error hplan]
    unfold reportUnrouted
    split
    · refine .line (.of_journal rfl) rfl ?_
      exact Journal.Line.not_reportsMisplacement (by decide)
    · exact .of_journal rfl
  | ok action =>
    rw [carryOut_of_ok hplan]
    exact unmoved_perform router tuning h action

/-- Handling a message over a faithful store reports no misplacement. -/
theorem unmoved_handle {t : Timeline (Site MemoryStore)} (h : t.state.store.IsFaithful)
    (message : Message) : t.Unmoved ((inMemory router tuning).handle message t).2 := by
  have concluded : ∀ {t'} origin result, t.Unmoved t' →
      t.Unmoved (finish (σ := MemoryStore) origin result t').2 :=
    fun origin result hquiet =>
      .line hquiet rfl (Outcome.not_reportsMisplacement_line (.ofResult result) origin)
  cases hm : ChangeEvent.ofMessage message with
  | error e =>
    rw [handle_of_error hm]
    exact concluded _ _ (.of_journal rfl)
  | ok event =>
    rw [handle_of_ok hm]
    exact concluded _ _ (unmoved_carryOut router tuning h event)

/-- Messages leave a faithful store faithful, and no misplacement is reported on the way. -/
theorem isFaithful_handleAll {t : Timeline (Site MemoryStore)} (h : t.state.store.IsFaithful)
    (messages : List Message) :
    ((inMemory router tuning).handleAll messages t).2.state.store.IsFaithful ∧
      t.Unmoved ((inMemory router tuning).handleAll messages t).2 := by
  induction messages generalizing t with
  | nil => exact ⟨h, .of_journal rfl⟩
  | cons message rest ih =>
    have hnext : ((inMemory router tuning).handle message t).2.state.store.IsFaithful := by
      rw [(handle_inMemory router tuning message t).2]
      exact MemoryStore.isFaithful_carryAll h _
    obtain ⟨hlast, hquiet⟩ := ih hnext
    exact ⟨hlast, (unmoved_handle router tuning h message).trans hquiet⟩

/-- Whatever messages an engine handles over a store that was empty, afterwards every entry with a
parent is in the partition of its parent, whether or not that is there, and both partitions can be
told. So an item, its order and the customer of that order share one partition. No line about a
chain that is too deep or about a child apart from its parent is ever written. -/
theorem colocated_handleAll (router : Router) (tuning : Tuning) (partitions : Nat)
    (messages : List Message) (t : Timeline (Site MemoryStore)) :
    let start := t.update fun site => { site with store := .withPartitions partitions }
    let handled := ((inMemory router tuning).handleAll messages start).2
    let store := handled.state.store
    (∀ kind key entry parent, store.lookup? kind key = some entry → entry.affinity = some parent →
      ∃ partition,
        store.perform (.partitionOf kind.collection key) = .ok (.partition partition, store, []) ∧
        store.perform (.partitionOf parent.kind.collection parent.key) =
          .ok (.partition partition, store, [])) ∧
    (∀ key record, store.get? .orderItem key = some record →
      ∃ item, record = .orderItem item ∧
        store.partitionOf .orderItem key = store.partitionOf .order item.orderId ∧
        ∀ above, store.get? .order item.orderId = some above →
          ∃ order, above = .order order ∧
            store.partitionOf .order item.orderId =
              store.partitionOf .customer order.customerId) ∧
    ∃ written, handled.journal = t.journal ++ written ∧
      ∀ line ∈ written, ¬ line.ReportsMisplacement := by
  intro start handled store
  obtain ⟨hfaithful, hquiet⟩ := isFaithful_handleAll router tuning
    (t := start) (MemoryStore.isFaithful_withPartitions partitions) messages
  refine ⟨fun kind key entry parent hlookup hparent => ?_, fun key record hget => ?_, hquiet⟩
  · have hsame := hfaithful.partitionOf_of_lookup? hlookup hparent
    refine ⟨_, MemoryStore.perform_partitionOf hfaithful kind key, ?_⟩
    rw [hsame]
    exact MemoryStore.perform_partitionOf hfaithful parent.kind parent.key
  · obtain ⟨item, rfl, hitem⟩ := hfaithful.item_of_get? hget
    refine ⟨item, rfl, hitem, fun above habove => ?_⟩
    exact hfaithful.order_of_get? habove

end Engine

end ChangeFeed
