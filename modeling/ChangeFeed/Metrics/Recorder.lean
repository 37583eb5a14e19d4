import ChangeFeed.Binary64.Arithmetic
import ChangeFeed.Duration
import ChangeFeed.Event.Rejection

/-!
# The recorder

Every event is counted as processed, once under its outcome, and when rejected also under its
reason. Each count is a cell of its own; a recorder changes one cell at a time, and a snapshot
reads one cell at a time. Beside them stand the time that store calls took, the failures of the log
client, the committed batches and the running workers.
-/

namespace ChangeFeed

/-- What is counted of events. -/
inductive EventCount where
  | processed
  | inserted
  | updated
  | deleted
  | errored
deriving DecidableEq

namespace EventCount

/-- Every count, in the order of declaration. -/
def all : List EventCount :=
  [.processed, .inserted, .updated, .deleted, .errored]

/-- The name of a count. -/
def name : EventCount → String
  | .processed => "processed"
  | .inserted => "inserted"
  | .updated => "updated"
  | .deleted => "deleted"
  | .errored => "errored"

end EventCount

/-- The spread of a set of durations. -/
structure Histogram where
  /-- The durations in seconds, the oldest first. -/
  values : List Binary64
deriving DecidableEq

namespace Histogram

/-- The upper bounds of the buckets, in ten-thousandths of a second. -/
def boundTenThousandths : List Nat :=
  [5, 10, 50, 100, 500, 1000, 5000, 10000, 50000]

/-- The upper bounds of the buckets, in seconds. -/
def bounds : List Binary64 :=
  boundTenThousandths.map fun n => .ofDecimal false n (-4)

/-- How many durations are at most a bound. -/
def countUpTo (h : Histogram) (bound : Binary64) : Nat :=
  h.values.countP (·.le bound)

/-- The sum of the durations, added up one after the other. -/
def sum (h : Histogram) : Binary64 :=
  h.values.foldl Binary64.add .zero

end Histogram

/-- A duration in seconds. -/
def Duration.seconds (d : Duration) : Binary64 :=
  (Binary64.ofNat (d.nanos / 1000000000)).add
    ((Binary64.ofNat (d.nanos % 1000000000)).div (.ofNat 1000000000))

/-- A cell that events are counted in. -/
inductive Cell where
  | event (count : EventCount)
  | rejection (reason : Reason)
deriving DecidableEq

/-- The metrics of a service. -/
structure Recorder where
  processed : Nat
  inserted : Nat
  updated : Nat
  deleted : Nat
  errored : Nat
  routing : Nat
  decode : Nat
  malformed : Nat
  apply : Nat
  /-- The durations of store calls by collection. -/
  durations : List (String × Histogram)
  consumerErrors : Nat
  batchesCommitted : Nat
  activeWorkers : Int
deriving DecidableEq

namespace Recorder

/-- A recorder that has seen nothing. -/
def empty : Recorder :=
  ⟨0, 0, 0, 0, 0, 0, 0, 0, 0, [], 0, 0, 0⟩

/-- What a cell holds. -/
def read (r : Recorder) : Cell → Nat
  | .event .processed => r.processed
  | .event .inserted => r.inserted
  | .event .updated => r.updated
  | .event .deleted => r.deleted
  | .event .errored => r.errored
  | .rejection .routing => r.routing
  | .rejection .decode => r.decode
  | .rejection .malformed => r.malformed
  | .rejection .apply => r.apply

/-- Adds one to a cell. -/
def bump (r : Recorder) : Cell → Recorder
  | .event .processed => { r with processed := r.processed + 1 }
  | .event .inserted => { r with inserted := r.inserted + 1 }
  | .event .updated => { r with updated := r.updated + 1 }
  | .event .deleted => { r with deleted := r.deleted + 1 }
  | .event .errored => { r with errored := r.errored + 1 }
  | .rejection .routing => { r with routing := r.routing + 1 }
  | .rejection .decode => { r with decode := r.decode + 1 }
  | .rejection .malformed => { r with malformed := r.malformed + 1 }
  | .rejection .apply => { r with apply := r.apply + 1 }

/-- Adds one to a cell that is read, and to no other. -/
theorem read_bump (r : Recorder) (c d : Cell) :
    (r.bump c).read d = r.read d + if c = d then 1 else 0 := by
  cases c with
  | event c => cases c <;> cases d with | _ d => cases d <;> rfl
  | rejection c => cases c <;> cases d with | _ d => cases d <;> rfl

/-- Adds one to each of some cells, in order. -/
def bumpAll (r : Recorder) (cells : List Cell) : Recorder :=
  cells.foldl bump r

/-- The cells of a rejected event besides `processed`, in the order they change. -/
def rejectionCells (reason : Reason) : List Cell :=
  [.event .errored, .rejection reason]

/-- Counts an event. -/
def increment (r : Recorder) (count : EventCount) : Recorder :=
  r.bump (.event count)

/-- Counts a rejected event under its reason too. -/
def incrementError (r : Recorder) (reason : Reason) : Recorder :=
  r.bumpAll (rejectionCells reason)

/-- Adds a duration under a label; a new label comes last. -/
def addDuration (label : String) (value : Binary64) :
    List (String × Histogram) → List (String × Histogram)
  | [] => [(label, ⟨[value]⟩)]
  | (l, h) :: rest =>
    if l = label then (l, ⟨h.values ++ [value]⟩) :: rest
    else (l, h) :: addDuration label value rest

/-- Notes how long the store calls for an event took. -/
def observe (r : Recorder) (collection : String) (elapsed : Duration) : Recorder :=
  { r with durations := addDuration collection elapsed.seconds r.durations }

/-- Counts a failed poll or commit. -/
def countConsumerError (r : Recorder) : Recorder :=
  { r with consumerErrors := r.consumerErrors + 1 }

/-- Counts a committed batch. -/
def countCommit (r : Recorder) : Recorder :=
  { r with batchesCommitted := r.batchesCommitted + 1 }

/-- Notes that a worker starts. -/
def enterWorker (r : Recorder) : Recorder :=
  { r with activeWorkers := r.activeWorkers + 1 }

/-- Notes that a worker stops. -/
def leaveWorker (r : Recorder) : Recorder :=
  { r with activeWorkers := r.activeWorkers - 1 }

end Recorder

end ChangeFeed
