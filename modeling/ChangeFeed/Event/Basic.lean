import ChangeFeed.Event.Envelope
import ChangeFeed.Event.Rejection

/-!
# Change events

An event is what a message of the log says about one row, apart from the layout of its envelope. A
message whose envelope names no table belongs to the table that its topic names.
-/

namespace ChangeFeed

/-- A message as the log delivers it. A tombstone has no payload. -/
structure Message where
  topic : String
  partition : Int32
  offset : Int64
  payload : Option (List UInt8)
deriving DecidableEq

/-- A change of one row. -/
structure ChangeEvent where
  operation : Operation
  before : Option Json
  after : Option Json
  table : String
  /-- Milliseconds from the epoch; nothing depends on it. -/
  timestamp : Option Int64

namespace ChangeEvent

/-- The event of a payload that came in over a topic. -/
def ofPayload (topic : String) (payload : Payload) : ChangeEvent where
  operation := payload.operation
  before := payload.before
  after := payload.after
  table := (payload.source.bind Source.qualifiedTable?).getD topic
  timestamp := payload.timestamp

/-- The event of a message's bytes. -/
def ofBytes (topic : String) : Option (List UInt8) → Except Rejection ChangeEvent
  | none => .error (.malformed topic .noPayload)
  | some [] => .error (.malformed topic .noPayload)
  | some bytes =>
    match Envelope.parse bytes with
    | .error fault => .error (.decode topic none (.envelope fault))
    | .ok envelope => .ok (ofPayload topic envelope.payload)

/-- The event of a message. -/
def ofMessage (message : Message) : Except Rejection ChangeEvent :=
  ofBytes message.topic message.payload

/-- Refuses an event without any image. -/
def validate (event : ChangeEvent) : Except Rejection Unit :=
  if event.before.isNone && event.after.isNone then
    .error (.malformed event.table (.noImages event.operation))
  else .ok ()

/-- The image that the operation uses: the one after an upsert, the one before a delete. -/
def image? (event : ChangeEvent) : Option Json :=
  if event.operation.isUpsert then event.after else event.before

/-- The image that the operation uses, which has to be there. -/
def image (event : ChangeEvent) : Except Rejection Json :=
  match event.image? with
  | some v => .ok v
  | none => .error (.malformed event.table (.missingImage event.operation))

end ChangeEvent

end ChangeFeed
