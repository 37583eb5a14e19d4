import ChangeFeed.Engine.Action
import ChangeFeed.Store.Memory

/-!
# Actions replayed on a store

An action either writes the entry of its key anew or takes the key out; in neither case does it look
at what was there. So what some actions leave under a key is what the last of them that concerns the
key leaves, or what was there before if none does (`MemoryStore.lookup?_carryAll`).

For the same reason it does no harm to carry out a stretch of actions again, as long as those that
followed it are carried out again behind it (`MemoryStore.carryAll_again`), although on the way old
entries come back and rows that were deleted reappear.
-/

namespace ChangeFeed

namespace Action

/-- What an action leaves under its key. -/
def content : Action → Option Entry
  | .upsert _ record => some ⟨record, record.affinity⟩
  | .delete .. => none

/-- Whether an action concerns a key of a kind. -/
def concerns (kind : Kind) (key : Int64) (action : Action) : Bool :=
  action.kind = kind ∧ action.key = key

/-- An action concerns its own key of its own kind. -/
theorem concerns_iff {kind : Kind} {key : Int64} {action : Action} :
    action.concerns kind key = true ↔ action.kind = kind ∧ action.key = key :=
  decide_eq_true_iff

/-- What the last of some actions on a key leaves under it; none if no action concerns the key. -/
def lastContent? (actions : List Action) (kind : Kind) (key : Int64) : Option (Option Entry) :=
  (actions.filter (concerns kind key)).getLast?.map content

/-- Later actions go before earlier ones. -/
theorem lastContent?_append (earlier later : List Action) (kind : Kind) (key : Int64) :
    lastContent? (earlier ++ later) kind key =
      (lastContent? later kind key).or (lastContent? earlier kind key) := by
  unfold lastContent?
  rw [List.filter_append, List.getLast?_append]
  cases (later.filter (concerns kind key)).getLast? <;> rfl

/-- An action that concerns a key leaves its content, and another one leaves nothing. -/
theorem lastContent?_singleton (action : Action) (kind : Kind) (key : Int64) :
    lastContent? [action] kind key =
      if action.concerns kind key then some action.content else none := by
  unfold lastContent?
  rw [List.filter_cons]
  split <;> rfl

end Action

namespace MemoryStore

/-- Carries out an action. -/
def carry (store : MemoryStore) : Action → MemoryStore
  | .upsert _ record => store.put record.kind record.key record.affinity record
  | .delete kind key => store.remove kind key

/-- Carries out actions in order. -/
def carryAll (store : MemoryStore) (actions : List Action) : MemoryStore :=
  actions.foldl carry store

/-- An action leaves its content under its key, and every other key as it was. -/
theorem lookup?_carry (store : MemoryStore) (action : Action) (kind : Kind) (key : Int64) :
    (store.carry action).lookup? kind key =
      if action.concerns kind key then action.content else store.lookup? kind key := by
  simp only [Action.concerns_iff]
  cases action with
  | upsert op record => exact lookup?_put ..
  | delete kind key => exact lookup?_remove ..

/-- No action changes the number of partitions. -/
theorem partitions_carry (store : MemoryStore) (action : Action) :
    (store.carry action).partitions = store.partitions := by
  cases action with
  | upsert op record => exact partitions_setTable ..
  | delete kind key => exact partitions_setTable ..

/-- Carrying out one list behind another is carrying out both in order. -/
theorem carryAll_append (store : MemoryStore) (earlier later : List Action) :
    store.carryAll (earlier ++ later) = (store.carryAll earlier).carryAll later :=
  List.foldl_append

/-- What some actions leave under a key is what the last of them on that key leaves, or what was
there before. -/
theorem lookup?_carryAll (store : MemoryStore) (actions : List Action) (kind : Kind)
    (key : Int64) :
    (store.carryAll actions).lookup? kind key =
      (Action.lastContent? actions kind key).getD (store.lookup? kind key) := by
  induction actions generalizing store with
  | nil => rfl
  | cons action rest ih =>
    -- The first action is the last on the key only if none of the rest concerns it.
    have hsplit : action :: rest = [action] ++ rest := rfl
    rw [hsplit, Action.lastContent?_append, Action.lastContent?_singleton, carryAll_append, ih]
    cases Action.lastContent? rest kind key with
    | some content => rfl
    | none =>
      show (store.carry action).lookup? kind key = _
      rw [lookup?_carry]
      split <;> rfl

/-- No action changes the number of partitions. -/
theorem partitions_carryAll (store : MemoryStore) (actions : List Action) :
    (store.carryAll actions).partitions = store.partitions := by
  induction actions generalizing store with
  | nil => rfl
  | cons action rest ih => exact (ih _).trans (store.partitions_carry action)

/-- If carrying out `after` brings a store to where all actions bring another one, then carrying
out the stretch before it once more, and `after` behind it, brings it there as well. -/
theorem carryAll_again {store start : MemoryStore} {before stretch after : List Action}
    (h : store.carryAll after = start.carryAll (before ++ stretch ++ after)) :
    store.carryAll (stretch ++ after) = start.carryAll (before ++ stretch ++ after) := by
  apply ext_lookup?
  · have hp := congrArg MemoryStore.partitions h
    rw [partitions_carryAll, partitions_carryAll] at hp
    rw [partitions_carryAll, partitions_carryAll, hp]
  · intro kind key
    have hk := congrArg (·.lookup? kind key) h
    simp only [lookup?_carryAll, Action.lastContent?_append] at hk ⊢
    -- A key that `after` concerns is settled by it, and one that the stretch concerns by the
    -- stretch. Any other key keeps what the store held.
    cases ha : Action.lastContent? after kind key with
    | some content => rfl
    | none =>
      cases hs : Action.lastContent? stretch kind key with
      | some content => rfl
      | none =>
        rw [ha, hs] at hk
        exact hk

end MemoryStore

end ChangeFeed
