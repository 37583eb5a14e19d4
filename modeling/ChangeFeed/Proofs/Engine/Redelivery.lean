import ChangeFeed.Proofs.Engine.InMemory

/-!
# Redelivery

A log delivers its messages in order, but it may go back at any time to any earlier position and
deliver from there again, as it does when a batch was not acknowledged. On the way old entries come
back and deleted rows reappear, so the store does not follow the log. What holds all along is
`Delivery.CatchesUp`: the messages from the present position up to the furthest one that was ever
reached would bring the store to where the log brings it in one go. At the end of the log there are
none left, hence `store_of_redelivery`.
-/

namespace ChangeFeed

/-- Where the delivery of a log to an engine stands. -/
structure Delivery where
  /-- The number of messages before the one that is delivered next. -/
  position : Nat
  timeline : Timeline (Site MemoryStore)

namespace Delivery

/-- What can happen to a delivery. -/
inductive Step (engine : Engine MemoryStore) (log : List Message) : Delivery → Delivery → Prop
  /-- The engine handles the message at the position. -/
  | deliver {d : Delivery} {message : Message} (h : log[d.position]? = some message) :
      Step engine log d ⟨d.position + 1, (engine.handle message d.timeline).2⟩
  /-- The log goes back, or stays. Whatever else happens meanwhile leaves the store alone. -/
  | rewind {d : Delivery} {position : Nat} {timeline : Timeline (Site MemoryStore)}
      (h : position ≤ d.position) (same : timeline.state.store = d.timeline.state.store) :
      Step engine log d ⟨position, timeline⟩

/-- Handling the rest of a log in one go is a way to deliver it. -/
theorem steps_handleAll (engine : Engine MemoryStore) (before rest : List Message)
    (t : Timeline (Site MemoryStore)) :
    Relation.ReflTransGen (Step engine (before ++ rest)) ⟨before.length, t⟩
      ⟨(before ++ rest).length, (engine.handleAll rest t).2⟩ := by
  induction rest generalizing before t with
  | nil =>
    rw [List.append_nil]
    exact .refl
  | cons message rest ih =>
    have hnext : (before ++ message :: rest)[before.length]? = some message := by
      rw [List.getElem?_append_right (Nat.le_refl _), Nat.sub_self]
      rfl
    have hrest := ih (before ++ [message]) (engine.handle message t).2
    rw [List.append_assoc, List.length_append] at hrest
    exact .head (.deliver hnext) hrest

/-- The messages from the position up to the furthest one that was reached bring the store to where
all messages up to there bring the store of the start. -/
def CatchesUp (router : Router) (log : List Message) (start : MemoryStore) (d : Delivery) : Prop :=
  ∃ reached, d.position ≤ reached ∧ reached ≤ log.length ∧
    d.timeline.state.store.carryAll (router.actions ((log.take reached).drop d.position)) =
      start.carryAll (router.actions (log.take reached))

variable {router : Router} {tuning : Tuning} {log : List Message} {start : MemoryStore}

/-- Delivering a message keeps the delivery catching up. -/
theorem CatchesUp.deliver {d : Delivery} {message : Message} (h : CatchesUp router log start d)
    (hm : log[d.position]? = some message) :
    CatchesUp router log start
      ⟨d.position + 1, ((Engine.inMemory router tuning).handle message d.timeline).2⟩ := by
  obtain ⟨reached, hle, hlen, hstore⟩ := h
  obtain ⟨hlt, hget⟩ := List.getElem?_eq_some_iff.1 hm
  have hcarry := (Engine.handle_inMemory router tuning message d.timeline).2
  rcases Nat.lt_or_eq_of_le hle with hbelow | hend
  · -- The message was delivered before: it is the first of those that catch up.
    refine ⟨reached, hbelow, hlen, ?_⟩
    have hsplit : (log.take reached).drop d.position =
        [message] ++ (log.take reached).drop (d.position + 1) := by
      rw [List.drop_eq_getElem_cons (by rw [List.length_take]; omega), List.getElem_take, hget]
      rfl
    rw [hsplit, Router.actions_append, MemoryStore.carryAll_append, ← hcarry] at hstore
    exact hstore
  · -- The message is new: nothing has to catch up.
    refine ⟨d.position + 1, Nat.le_refl _, hlt, ?_⟩
    have htake : log.take (d.position + 1) = log.take d.position ++ [message] := by
      rw [List.take_succ_eq_append_getElem hlt, hget]
    have hdone : (log.take (d.position + 1)).drop (d.position + 1) = [] :=
      List.drop_eq_nil_of_le (by rw [List.length_take]; omega)
    have hbefore : (log.take d.position).drop d.position = [] :=
      List.drop_eq_nil_of_le (by rw [List.length_take]; omega)
    rw [← hend, hbefore] at hstore
    have hnow : d.timeline.state.store = start.carryAll (router.actions (log.take d.position)) :=
      hstore
    rw [hdone, htake, Router.actions_append, MemoryStore.carryAll_append, ← hnow, ← hcarry]
    rfl

/-- Going back keeps the delivery catching up. -/
theorem CatchesUp.rewind {d : Delivery} {position : Nat} {timeline : Timeline (Site MemoryStore)}
    (h : CatchesUp router log start d) (hback : position ≤ d.position)
    (same : timeline.state.store = d.timeline.state.store) :
    CatchesUp router log start ⟨position, timeline⟩ := by
  obtain ⟨reached, hle, hlen, hstore⟩ := h
  refine ⟨reached, Nat.le_trans hback hle, hlen, ?_⟩
  generalize log.take reached = seen at hstore ⊢
  -- The messages gone back over stand between those before and those that catch up already.
  obtain ⟨between, hdrop⟩ : ∃ between, seen.drop position = between ++ seen.drop d.position := by
    refine ⟨(seen.drop position).take (d.position - position), ?_⟩
    have : seen.drop d.position = (seen.drop position).drop (d.position - position) := by
      rw [List.drop_drop]
      congr 1
      omega
    rw [this, List.take_append_drop]
  have hseen : seen = seen.take position ++ between ++ seen.drop d.position := by
    rw [List.append_assoc, ← hdrop, List.take_append_drop]
  have hactions : router.actions seen = router.actions (seen.take position) ++
      router.actions between ++ router.actions (seen.drop d.position) := by
    rw [← Router.actions_append, ← Router.actions_append, ← hseen]
  rw [hactions] at hstore ⊢
  show timeline.state.store.carryAll (router.actions (seen.drop position)) = _
  rw [same, hdrop, Router.actions_append]
  exact MemoryStore.carryAll_again hstore

/-- Whatever happens to a delivery, it keeps catching up. -/
theorem catchesUp_of_steps {t : Timeline (Site MemoryStore)} {d : Delivery}
    (steps : Relation.ReflTransGen (Step (Engine.inMemory router tuning) log) ⟨0, t⟩ d) :
    CatchesUp router log t.state.store d := by
  induction steps with
  | refl => exact ⟨0, Nat.le_refl _, Nat.zero_le _, rfl⟩
  | tail _ step ih =>
    cases step with
    | deliver hm => exact ih.deliver hm
    | rewind hback same => exact ih.rewind hback same

/-- However often a log goes back, once it has come to its end the store is the one that delivering
every message once and in order leaves, and so is the partition of every key. -/
theorem store_of_redelivery {router : Router} {tuning : Tuning} {log : List Message}
    {t : Timeline (Site MemoryStore)} {d : Delivery}
    (steps : Relation.ReflTransGen (Step (Engine.inMemory router tuning) log) ⟨0, t⟩ d)
    (done : d.position = log.length) :
    let once := ((Engine.inMemory router tuning).handleAll log t).2.state.store
    d.timeline.state.store = once ∧
      ∀ kind key, d.timeline.state.store.partitionOf kind key = once.partitionOf kind key := by
  obtain ⟨reached, hle, hlen, hstore⟩ := catchesUp_of_steps steps
  -- At the end of the log the furthest position is the present one, and nothing has to catch up.
  have hreached : reached = log.length := by omega
  have hrest : (log.take reached).drop d.position = [] :=
    List.drop_eq_nil_of_le (by rw [List.length_take]; omega)
  have hall : log.take reached = log := by rw [hreached, List.take_length]
  rw [hrest, hall, ← (Engine.handleAll_inMemory router tuning log t).2] at hstore
  have heq : d.timeline.state.store =
      ((Engine.inMemory router tuning).handleAll log t).2.state.store := hstore
  exact ⟨heq, fun kind key => by rw [heq]⟩

/-- A log that adds a customer and deletes it again, and that goes back to its beginning once. -/
theorem store_of_redelivery_twice :
    let change (offset : Int64) (text : String) : Message :=
      ⟨"shop.public.customers", 0, offset, some text.toUTF8.toList⟩
    let added := change 0 "\x7b\"op\":\"c\",\"after\":\x7b\"id\":1,\"name\":\"Jo\"\x7d\x7d"
    let deleted := change 1 "\x7b\"op\":\"d\",\"before\":\x7b\"id\":1\x7d\x7d"
    let log := [added, deleted]
    let engine := Engine.inMemory .builtIn .default
    let t := Timeline.start (Site.new MemoryStore.new)
    let once := (engine.handleAll log t).2
    (engine.handleAll log once).2.state.store = once.state.store := by
  intro change added deleted log engine t once
  have first : Relation.ReflTransGen (Step engine log) ⟨0, t⟩ ⟨2, once⟩ :=
    steps_handleAll engine [] log t
  have back : Step engine log ⟨2, once⟩ ⟨0, once⟩ := .rewind (Nat.zero_le 2) rfl
  have again : Relation.ReflTransGen (Step engine log) ⟨0, once⟩
      ⟨2, (engine.handleAll log once).2⟩ := steps_handleAll engine [] log once
  have steps := (first.tail back).trans again
  have done : (⟨2, (engine.handleAll log once).2⟩ : Delivery).position = log.length := rfl
  have same := (store_of_redelivery steps done).1
  -- Matching the two sides would run the engine: they are rewritten instead.
  dsimp only at same
  rw [same]

end Delivery

end ChangeFeed
