import ChangeFeed.Engine.Action
import ChangeFeed.Engine.Site

/-!
# Outcomes of events

Every event ends either applied or rejected. `conclude` counts it as processed, counts its outcome,
and writes one line that names where it came from.
-/

namespace ChangeFeed

/-- How an event ends. -/
inductive Outcome where
  | applied (effect : Effect) (kind : Kind) (key : Int64)
  | rejected (cause : Rejection)
deriving DecidableEq

namespace Outcome

/-- The outcome of an action that was carried out, or of a rejection. -/
def ofResult : Except Rejection Action → Outcome
  | .ok action => .applied action.effect action.kind action.key
  | .error e => .rejected e

/-- Whether the event was applied. -/
def isApplied : Outcome → Bool
  | .applied .. => true
  | .rejected _ => false

/-- The cells that an event with an outcome is counted in, in the order they change. -/
def cells : Outcome → List Cell
  | .applied effect _ _ => [.event .processed, .event effect.count]
  | .rejected e => .event .processed :: Recorder.rejectionCells e.reason

end Outcome

/-- Where an event came from. -/
structure Origin where
  /-- The message that it came in, if any. -/
  message : Option Message
  /-- The timestamp of the event. -/
  timestamp : Option Int64

namespace Origin

/-- The origin of an event that came in no message. -/
def direct (timestamp : Option Int64) : Origin :=
  ⟨none, timestamp⟩

/-- The fields that name an origin. -/
def fields (origin : Origin) : List (String × Journal.Value) :=
  Journal.optional "topic" (origin.message.map fun m => .text m.topic) ++
    Journal.optional "partition" (origin.message.map fun m => .whole m.partition.toInt) ++
    Journal.optional "offset" (origin.message.map fun m => .whole m.offset.toInt) ++
    Journal.optional "ts_ms" (origin.timestamp.map fun t => .whole t.toInt)

end Origin

namespace Outcome

/-- How serious the line about an event is. -/
def level : Outcome → Journal.Level
  | .applied .. => .debug
  | .rejected (.apply ..) => .error
  | .rejected _ => .warn

/-- The line about an event. -/
def line (outcome : Outcome) (origin : Origin) : Journal.Line :=
  match outcome with
  | .applied effect kind key =>
    ⟨outcome.level, "Applied change event",
      kind.keyFields key ++ [("outcome", .text effect.name)] ++ origin.fields⟩
  | .rejected e =>
    ⟨outcome.level, "Rejected change event: " ++ e.message,
      [("table", .text e.table)] ++
        Journal.optional "op" (e.operation.map fun op => .text op.name) ++
        [("reason", .text e.reason.name)] ++ origin.fields⟩

/-- Counts an event and writes its line. -/
def conclude (outcome : Outcome) (origin : Origin) (t : Timeline (Site σ)) : Timeline (Site σ) :=
  let line := outcome.line origin
  (t.update (·.record (·.bumpAll outcome.cells))).log line.level line.message line.fields

end Outcome

end ChangeFeed
