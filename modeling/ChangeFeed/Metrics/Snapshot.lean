import ChangeFeed.Json.Writer
import ChangeFeed.Metrics.Recorder

/-!
# Snapshots

A copy of the event counts. The cells are read one after the other, the reasons before the counts
that include them.
-/

namespace ChangeFeed

/-- A copy of the event counts. -/
structure Snapshot where
  processed : Nat
  inserted : Nat
  updated : Nat
  deleted : Nat
  errored : Nat
  byReason : Reason → Nat

namespace Snapshot

/-- The cells in the order they are read. -/
def readOrder : List Cell :=
  Reason.all.map .rejection ++ EventCount.all.map .event

/-- The snapshot of what the cells held when they were read. -/
def ofReads (value : Cell → Nat) : Snapshot where
  processed := value (.event .processed)
  inserted := value (.event .inserted)
  updated := value (.event .updated)
  deleted := value (.event .deleted)
  errored := value (.event .errored)
  byReason reason := value (.rejection reason)

/-- The counts by reason as an object, in the order of the reasons' names. -/
def reasonsToJson (s : Snapshot) : Json :=
  (Json.object (Reason.all.map fun reason => (reason.name, .ofNat (s.byReason reason)))).canonical

/-- A snapshot as an object. -/
def toJson (s : Snapshot) : Json :=
  .object [
    ("processed", .ofNat s.processed),
    ("inserted", .ofNat s.inserted),
    ("updated", .ofNat s.updated),
    ("deleted", .ofNat s.deleted),
    ("errored", .ofNat s.errored),
    ("errors_by_reason", s.reasonsToJson)]

end Snapshot

/-- The snapshot of a recorder that stands still. -/
def Recorder.snapshot (r : Recorder) : Snapshot :=
  .ofReads r.read

end ChangeFeed
