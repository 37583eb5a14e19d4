import ChangeFeed.Event.Operation
import ChangeFeed.Json.Reader
import ChangeFeed.Json.Canonical
import ChangeFeed.Record.DecodeError
import ChangeFeed.Text.Numeral

/-!
# Envelopes

A change arrives as a payload, alone or as the `payload` member of a wrapper. A payload is an
object, or an array of its fields in their order. Fields that are null count as absent, unknown
members are passed over, and a known member that stands twice spoils the payload. The wrapper is
tried first.
-/

namespace ChangeFeed

/-- Where a change comes from. -/
structure Source where
  connector : Option String
  name : Option String
  db : Option String
  schema : Option String
  table : Option String
deriving DecidableEq

/-- A change as it is on the wire. Images are in canonical form. -/
structure Payload where
  before : Option Json
  after : Option Json
  source : Option Source
  operation : Operation
  timestamp : Option Int64

/-- A payload and whether it stood in a wrapper. -/
structure Envelope where
  wrapped : Bool
  payload : Payload

namespace Json

/-- The value of a member that stands at most once; none when it stands twice or more. -/
def sole? (members : List (String × Json)) (key : String) : Option (Option Json) :=
  match members.filter (·.1 = key) with
  | [] => some none
  | [(_, v)] => some (some v)
  | _ => none

/-- An optional field: absent or null, or else what `read?` accepts. -/
def nullable? (read? : Json → Option α) : Option Json → Option (Option α)
  | none => some none
  | some .null => some none
  | some v => (read? v).map some

/-- A string. -/
def asString? : Json → Option String
  | .string s => some s
  | _ => none

/-- A whole number in the range of a 64-bit integer. -/
def asInt64? : Json → Option Int64
  | .number (.whole n _) => Text.toInt64? n
  | _ => none

end Json

namespace Source

/-- A source from the values of its fields. -/
def ofFields? (connector name db schema table : Option Json) : Option Source := do
  let connector ← Json.nullable? Json.asString? connector
  let name ← Json.nullable? Json.asString? name
  let db ← Json.nullable? Json.asString? db
  let schema ← Json.nullable? Json.asString? schema
  let table ← Json.nullable? Json.asString? table
  return { connector, name, db, schema, table }

/-- A source from an object, or from an array of at most five fields. -/
def ofJson? : Json → Option Source
  | .object members => do
    let connector ← Json.sole? members "connector"
    let name ← Json.sole? members "name"
    let db ← Json.sole? members "db"
    let schema ← Json.sole? members "schema"
    let table ← Json.sole? members "table"
    ofFields? connector name db schema table
  | .array items =>
    if 5 < items.length then none
    else ofFields? items[0]? items[1]? items[2]? items[3]? items[4]?
  | _ => none

/-- The table with its schema, or else its database, in front; none without a table. -/
def qualifiedTable? (source : Source) : Option String :=
  source.table.map fun table =>
    match source.schema.or source.db with
    | some namespaceName => namespaceName ++ "." ++ table
    | none => table

end Source

/-- An operation from its code, or from an object whose one key is the code, with null. -/
def Operation.ofJson? : Json → Option Operation
  | .string code => Operation.ofCode? code
  | .object [(code, .null)] => Operation.ofCode? code
  | _ => none

namespace Payload

/-- A payload from the values of its fields. -/
def ofFields? (before after source op timestamp : Option Json) : Option Payload := do
  let before ← Json.nullable? (some ·.canonical) before
  let after ← Json.nullable? (some ·.canonical) after
  let source ← Json.nullable? Source.ofJson? source
  let operation ← op.bind Operation.ofJson?
  let timestamp ← Json.nullable? Json.asInt64? timestamp
  return { before, after, source, operation, timestamp }

/-- A payload from an object, or from an array of at most five fields. -/
def ofJson? : Json → Option Payload
  | .object members => do
    let before ← Json.sole? members "before"
    let after ← Json.sole? members "after"
    let source ← Json.sole? members "source"
    let op ← Json.sole? members "op"
    let timestamp ← Json.sole? members "ts_ms"
    ofFields? before after source op timestamp
  | .array items =>
    if 5 < items.length then none
    else ofFields? items[0]? items[1]? items[2]? items[3]? items[4]?
  | _ => none

end Payload

namespace Envelope

/-- The payload in a wrapper. -/
def wrapped? : Json → Option Payload
  | .object members =>
    match Json.sole? members "payload" with
    | some (some v) => Payload.ofJson? v
    | _ => none
  | _ => none

/-- An envelope in either layout. -/
def ofJson? (v : Json) : Option Envelope :=
  match wrapped? v with
  | some payload => some ⟨true, payload⟩
  | none => (Payload.ofJson? v).map (⟨false, ·⟩)

/-- Reads an envelope from bytes. A fault of the value comes before a value that is no envelope,
and that before bytes left over. -/
def parse (bytes : List UInt8) : Except EnvelopeError Envelope :=
  match Json.readFirst bytes with
  | .error fault => .error (.notJson fault)
  | .ok (v, rest) =>
    match ofJson? v with
    | none => .error .noLayout
    | some envelope =>
      match Json.checkEnd rest with
      | .error fault => .error (.notJson fault)
      | .ok _ => .ok envelope

end Envelope

end ChangeFeed
