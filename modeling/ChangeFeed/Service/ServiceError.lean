import ChangeFeed.Event.Rejection
import ChangeFeed.Json.Writer

/-!
# Failures of the service

The failures that concern a worker or a request as a whole, and what an operator is told of them.
-/

namespace ChangeFeed

/-- A failure of the service. -/
inductive ServiceError where
  | config (text : String)
  | kafka (text : String)
  | store (cause : StoreError)
  | notFound (text : String)
  | validation (text : String)
  | internal (text : String)
deriving DecidableEq

namespace ServiceError

/-- The wording of a failure. -/
def message : ServiceError → String
  | .config text => "Configuration error: " ++ text
  | .kafka text => "Kafka error: " ++ text
  | .store cause => "Store error: " ++ cause.message
  | .notFound text => "Not found: " ++ text
  | .validation text => "Validation error: " ++ text
  | .internal text => "Internal error: " ++ text

/-- The status of the response to a request that failed. -/
def status : ServiceError → Nat
  | .notFound _ => 404
  | .validation _ => 400
  | _ => 500

/-- What the response says: faults of the request are told in their own words. -/
def responseText : ServiceError → String
  | .notFound text => text
  | .validation text => text
  | e => e.message

/-- The body of the response. -/
def responseBody (e : ServiceError) : Json :=
  .object [("error", .string e.responseText), ("code", .ofNat e.status)]

end ServiceError

end ChangeFeed
