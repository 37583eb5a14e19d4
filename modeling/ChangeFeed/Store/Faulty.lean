import ChangeFeed.Store.Adapter

/-!
# A store that fails by a script

Every call takes the next fault of the list for its sort of call. A fault makes the call wait, and
then either fail without touching the store or go through to the store in memory.
-/

namespace ChangeFeed

/-- How a call ends after its wait. -/
inductive FaultEnding where
  /-- The call goes through. -/
  | through
  /-- The call fails. -/
  | failed (error : StoreError)
  /-- The call fails as if its collection were not there. -/
  | refused
  /-- A lookup of a partition answers with a number; any other call goes through. -/
  | placed (partition : Nat)
deriving DecidableEq

/-- What happens to a call. -/
structure Fault where
  /-- How long the call waits; none if forever. -/
  delay : Option Duration
  ending : FaultEnding
deriving DecidableEq

/-- The fault of a call that nothing happens to. -/
def Fault.none : Fault :=
  ⟨some .zero, .through⟩

/-- The error of a call that is made to fail. -/
def FaultEnding.error? (kind : Kind) : FaultEnding → Option StoreError
  | .failed e => some e
  | .refused => some (.unknownCollection kind.collection)
  | _ => Option.none

/-- The answer that a lookup of a partition is given. -/
def FaultEnding.partition? : FaultEnding → Option Nat
  | .placed n => some n
  | _ => Option.none

/-- A store in memory with the faults of the calls to come. -/
structure FaultyStore where
  store : MemoryStore
  putFaults : List Fault
  removeFaults : List Fault
  lookupFaults : List Fault

namespace FaultyStore

/-- A reply of the store in memory, subject to a fault; `rest` is a state with the fault used up. -/
def subject (fault : Fault) (kind : Kind) (rest : FaultyStore)
    (reply : Reply MemoryStore (Except StoreError α)) : Reply FaultyStore (Except StoreError α) :=
  match fault.ending.error? kind with
  | some e => ⟨fault.delay, .error e, rest, rest, []⟩
  | none => ⟨fault.delay, reply.answer, { rest with store := reply.after }, rest, reply.lines⟩

/-- The answer of a lookup, unless a fault gives another one. -/
def placed (fault : Fault) (reply : Reply MemoryStore (Except StoreError Nat)) :
    Reply MemoryStore (Except StoreError Nat) :=
  match fault.ending.partition? with
  | some n => ⟨reply.delay, .ok n, reply.abandoned, reply.abandoned, []⟩
  | none => reply

/-- The first fault of a list. -/
def next (faults : List Fault) : Fault :=
  faults.head?.getD .none

/-- The failing store as an adapter. -/
def adapter : StoreAdapter FaultyStore where
  put kind key affinity record now s :=
    subject (next s.putFaults) kind { s with putFaults := s.putFaults.tail }
      (MemoryStore.adapter.put kind key affinity record now s.store)
  remove kind key now s :=
    subject (next s.removeFaults) kind { s with removeFaults := s.removeFaults.tail }
      (MemoryStore.adapter.remove kind key now s.store)
  partitionOf kind key now s :=
    subject (next s.lookupFaults) kind { s with lookupFaults := s.lookupFaults.tail }
      (placed (next s.lookupFaults) (MemoryStore.adapter.partitionOf kind key now s.store))

end FaultyStore

end ChangeFeed
