import ChangeFeed.Engine.Basic
import ChangeFeed.Engine.Outcome

/-!
# Handling events, messages and batches

An event is planned, carried out and concluded. Messages of a batch are handled one after the
other, in the order they were delivered; one that is rejected does not stop those behind it.
-/

namespace ChangeFeed

/-- What happened to a batch: its messages and their outcomes, in the same order. -/
structure BatchReport where
  messages : List Message
  outcomes : List Outcome
deriving DecidableEq

namespace BatchReport

/-- The number of messages. -/
def events (report : BatchReport) : Nat :=
  report.messages.length

/-- The number of messages that were applied. -/
def applied (report : BatchReport) : Nat :=
  report.outcomes.countP (·.isApplied)

/-- The number of messages that were rejected. -/
def rejected (report : BatchReport) : Nat :=
  report.outcomes.countP (!·.isApplied)

/-- The offset of the first message. -/
def firstOffset (report : BatchReport) : Option Int64 :=
  report.messages.head?.map Message.offset

/-- The offset of the last message. -/
def lastOffset (report : BatchReport) : Option Int64 :=
  report.messages.getLast?.map Message.offset

/-- The text of an offset that may be missing. -/
def offsetText : Option Int64 → String
  | some offset => "Some(" ++ toString offset.toInt ++ ")"
  | none => "None"

/-- The fields of the line about a batch. -/
def fields (report : BatchReport) : List (String × Journal.Value) :=
  [("events", .whole report.events), ("applied", .whole report.applied),
    ("rejected", .whole report.rejected),
    ("first_offset", .text (offsetText report.firstOffset)),
    ("last_offset", .text (offsetText report.lastOffset))]

end BatchReport

namespace Engine

/-- Reports a table that no kind is routed for. -/
def reportUnrouted (e : Rejection) (t : Timeline (Site σ)) : Timeline (Site σ) :=
  match e with
  | .routing table =>
    t.log .debug "No entity routed for source table"
      [("source", .text table), ("table", .text (tableOf table))]
  | _ => t

/-- Plans an event and carries it out. -/
def carryOut (engine : Engine σ) (event : ChangeEvent) (t : Timeline (Site σ)) :
    Except Rejection Action × Timeline (Site σ) :=
  match engine.router.plan event with
  | .error e => (.error e, reportUnrouted e t)
  | .ok action =>
    match engine.perform action t with
    | (.ok _, t) => (.ok action, t)
    | (.error e, t) => (.error e, t)

/-- An event without an action is given back as a rejection. -/
theorem carryOut_of_error {engine : Engine σ} {event : ChangeEvent} {e : Rejection}
    (h : engine.router.plan event = .error e) (t : Timeline (Site σ)) :
    engine.carryOut event t = (.error e, reportUnrouted e t) := by
  unfold carryOut
  rw [h]

/-- An event with an action is carried out by performing the action. -/
theorem carryOut_of_ok {engine : Engine σ} {event : ChangeEvent} {action : Action}
    (h : engine.router.plan event = .ok action) (t : Timeline (Site σ)) :
    engine.carryOut event t =
      ((engine.perform action t).1.map fun _ => action, (engine.perform action t).2) := by
  unfold carryOut
  rw [h]
  dsimp only
  split <;> next hperform =>
    rw [hperform]
    rfl

/-- Ends an event with its outcome. -/
def finish (origin : Origin) (result : Except Rejection Action) (t : Timeline (Site σ)) :
    Outcome × Timeline (Site σ) :=
  let outcome := Outcome.ofResult result
  (outcome, outcome.conclude origin t)

/-- Handles an event. -/
def apply (engine : Engine σ) (event : ChangeEvent) (t : Timeline (Site σ)) :
    Outcome × Timeline (Site σ) :=
  let (result, t) := engine.carryOut event t
  finish (.direct event.timestamp) result t

/-- Handles a message. -/
def handle (engine : Engine σ) (message : Message) (t : Timeline (Site σ)) :
    Outcome × Timeline (Site σ) :=
  match ChangeEvent.ofMessage message with
  | .error e => finish ⟨some message, none⟩ (.error e) t
  | .ok event =>
    let (result, t) := engine.carryOut event t
    finish ⟨some message, event.timestamp⟩ result t

/-- Handles messages in order and gives their outcomes. -/
def handleAll (engine : Engine σ) :
    List Message → Timeline (Site σ) → List Outcome × Timeline (Site σ)
  | [], t => ([], t)
  | message :: rest, t =>
    let (outcome, t) := engine.handle message t
    let (outcomes, t) := engine.handleAll rest t
    (outcome :: outcomes, t)

/-- Handles a batch. -/
def handleBatch (engine : Engine σ) (batch : List Message) (t : Timeline (Site σ)) :
    BatchReport × Timeline (Site σ) :=
  let (outcomes, t) := engine.handleAll batch t
  let report : BatchReport := ⟨batch, outcomes⟩
  (report, t.log .debug "Processed batch" report.fields)

/-- Every message of a list has its outcome. -/
theorem length_handleAll (engine : Engine σ) (messages : List Message) (t : Timeline (Site σ)) :
    (engine.handleAll messages t).1.length = messages.length := by
  induction messages generalizing t with
  | nil => rfl
  | cons message rest ih => simp [handleAll, ih]

end Engine

end ChangeFeed
