import ChangeFeed.Duration
import ChangeFeed.Event.Operation
import ChangeFeed.Record.DecodeError
import ChangeFeed.Record.Kind

/-!
# Why an event is rejected

The failures of store calls, and the four reasons for which an event is rejected.
-/

namespace ChangeFeed

/-- A failed call to a store. -/
inductive StoreError where
  | unavailable (text : String)
  | timeout (limit : Duration)
  | unknownCollection (collection : String)
deriving DecidableEq

namespace StoreError

/-- The wording of a failure. -/
def message : StoreError → String
  | .unavailable text => "store unavailable: " ++ text
  | .timeout limit => "store call timed out after " ++ limit.text
  | .unknownCollection collection => "unknown collection '" ++ collection ++ "'"

/-- Whether the same call may succeed later. -/
def isRetryable : StoreError → Bool
  | .unavailable _ => true
  | .timeout _ => true
  | .unknownCollection _ => false

end StoreError

/-- What is missing from an event. -/
inductive Malformed where
  /-- The message has no bytes. -/
  | noPayload
  /-- Neither image is there. -/
  | noImages (op : Operation)
  /-- The image that the operation uses is not there. -/
  | missingImage (op : Operation)
deriving DecidableEq

/-- The field that holds the image of an operation. -/
def Operation.imageField (op : Operation) : String :=
  if op.isUpsert then "after" else "before"

/-- The wording of what is missing. -/
def Malformed.message : Malformed → String
  | .noPayload => "message has no payload"
  | .noImages op => op.name ++ " event has neither 'before' nor 'after'"
  | .missingImage op => op.name ++ " event requires '" ++ op.imageField ++ "'"

/-- The class of a rejection, as it is counted. -/
inductive Reason where
  | routing
  | decode
  | malformed
  | apply
deriving DecidableEq

namespace Reason

/-- Every reason, in the order of declaration. -/
def all : List Reason :=
  [.routing, .decode, .malformed, .apply]

/-- The name of a reason. -/
def name : Reason → String
  | .routing => "routing"
  | .decode => "decode"
  | .malformed => "malformed"
  | .apply => "apply"

end Reason

/-- Why an event is rejected. -/
inductive Rejection where
  /-- No kind is routed for the table. -/
  | routing (table : String)
  /-- The envelope, or the image of an operation, cannot be decoded. -/
  | decode (table : String) (op : Option Operation) (cause : DecodeError)
  /-- Something is missing from the event. -/
  | malformed (table : String) (cause : Malformed)
  /-- The store refused the event for good. -/
  | apply (kind : Kind) (key : Int64) (op : Operation) (attempts : Nat) (cause : StoreError)
deriving DecidableEq

namespace Rejection

/-- The class of a rejection. -/
def reason : Rejection → Reason
  | .routing _ => .routing
  | .decode .. => .decode
  | .malformed .. => .malformed
  | .apply .. => .apply

/-- The source table, or the collection that the store refused to change. -/
def table : Rejection → String
  | .routing table => table
  | .decode table _ _ => table
  | .malformed table _ => table
  | .apply kind .. => kind.collection

/-- The operation, as far as it matters to the rejection. -/
def operation : Rejection → Option Operation
  | .routing _ => none
  | .decode _ op _ => op
  | .malformed .. => none
  | .apply _ _ op _ _ => some op

/-- The wording of a rejection. -/
def message : Rejection → String
  | .routing table => "no entity is routed for table '" ++ table ++ "'"
  | .decode table op cause =>
    "failed to decode " ++ (op.map Operation.name).getD "event" ++ " on '" ++ table ++ "': " ++
      cause.message
  | .malformed table cause => "malformed change event on '" ++ table ++ "': " ++ cause.message
  | .apply kind key op attempts cause =>
    "failed to apply " ++ op.name ++ " to " ++ kind.collection ++ "/" ++ toString key.toInt ++
      " after " ++ toString attempts ++ " attempts: " ++ cause.message

end Rejection

end ChangeFeed
