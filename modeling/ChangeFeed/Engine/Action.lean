import ChangeFeed.Event.Basic
import ChangeFeed.Metrics.Recorder
import ChangeFeed.Record.Codec
import ChangeFeed.Router

/-!
# What an event asks for

`Router.plan` turns an event into an action on the store, or says why there is none. It looks at
the event and the router alone: first the table is routed, then the images are looked at, and last
the image that the operation uses is decoded.
-/

namespace ChangeFeed

/-- What an action does to the row that it concerns. -/
inductive Effect where
  | inserted
  | updated
  | deleted
deriving DecidableEq

namespace Effect

/-- What is counted of an effect. -/
def count : Effect → EventCount
  | .inserted => .inserted
  | .updated => .updated
  | .deleted => .deleted

/-- The name of an effect. -/
def name (effect : Effect) : String :=
  effect.count.name

end Effect

/-- A change to the store. -/
inductive Action where
  /-- Writes a record, on behalf of an operation. -/
  | upsert (op : Operation) (record : Record)
  /-- Takes a key out. -/
  | delete (kind : Kind) (key : Int64)
deriving DecidableEq

namespace Action

/-- The kind of record that an action concerns. -/
def kind : Action → Kind
  | .upsert _ record => record.kind
  | .delete kind _ => kind

/-- The key that an action concerns. -/
def key : Action → Int64
  | .upsert _ record => record.key
  | .delete _ key => key

/-- The operation that an action stands for. -/
def operation : Action → Operation
  | .upsert op _ => op
  | .delete .. => .delete

/-- What an action does to its row. Whatever is written but by an update counts as inserted. -/
def effect : Action → Effect
  | .upsert .update _ => .updated
  | .upsert _ _ => .inserted
  | .delete .. => .deleted

end Action

/-- The action of an event on a table of a kind, given the image that the operation uses. -/
def Kind.action (kind : Kind) (event : ChangeEvent) (image : Json) : Except Rejection Action :=
  let refuse (e : DecodeError) : Except Rejection Action :=
    .error (.decode event.table (some event.operation) e)
  if event.operation.isUpsert then
    match kind.decode image with
    | .ok record => .ok (.upsert event.operation record)
    | .error e => refuse e
  else
    match kind.decodeKey image with
    | .ok key => .ok (.delete kind key)
    | .error e => refuse e

namespace Router

/-- The action of an event. -/
def plan (router : Router) (event : ChangeEvent) : Except Rejection Action :=
  match router.route? event.table with
  | none => .error (.routing event.table)
  | some kind => do
    event.validate
    kind.action event (← event.image)

/-- The action of a message. -/
def planMessage (router : Router) (message : Message) : Except Rejection Action := do
  router.plan (← ChangeEvent.ofMessage message)

end Router

end ChangeFeed
