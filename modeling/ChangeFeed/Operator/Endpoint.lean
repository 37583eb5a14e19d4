import ChangeFeed.Consumer.Health
import ChangeFeed.Metrics.Exposition
import ChangeFeed.Metrics.Snapshot
import ChangeFeed.Operator.Target
import ChangeFeed.Record.Codec
import ChangeFeed.Service.ServiceError
import ChangeFeed.Store.Memory

/-!
# What an operator can ask

The endpoints of the service, what each of them answers, and how a request finds its endpoint.
-/

namespace ChangeFeed.Operator

/-- What an operator sees of a service. -/
structure Outlook where
  recorder : Recorder
  store : MemoryStore
  consumers : List Health
  /-- What the wall clock shows. -/
  reading : Int64

/-- An answer to a request. -/
structure Response where
  status : Nat
  contentType : Option String
  body : String
deriving DecidableEq

namespace Response

/-- A text whose type is not stated. -/
def bare (status : Nat) (body : String) : Response :=
  ⟨status, none, body⟩

/-- A JSON value. -/
def json (status : Nat) (body : Json) : Response :=
  ⟨status, some "application/json", body.text⟩

/-- The answer to a request that failed. -/
def failure (e : ServiceError) : Response :=
  json e.status e.responseBody

/-- The answer to a query that is refused. -/
def refusal (e : QueryError) : Response :=
  ⟨400, some "text/plain; charset=utf-8", e.message⟩

/-- The answer where there is no endpoint. -/
def notFound : Response :=
  bare 404 ""

end Response

/-- The status of a consumer as an object. -/
def statusToJson (s : HealthStatus) : Json :=
  .object [
    ("worker", .ofNat s.worker),
    ("healthy", .bool s.healthy),
    ("consecutive_errors", .ofNat s.consecutiveErrors),
    ("millis_since_last_success", .ofNat s.millisSinceLastSuccess),
    ("current_backoff_ms", .ofNat s.currentBackoffMillis)]

/-- The consumers as an array. -/
def consumersToJson (outlook : Outlook) : Json :=
  .array (outlook.consumers.map fun health => statusToJson (health.status outlook.reading))

/-- An endpoint of the service. -/
inductive Endpoint where
  | health
  | ready
  | metrics
  | syncMetrics
  | collection (name : String)
deriving DecidableEq

namespace Endpoint

/-- Where collections are found. -/
def collectionsPath : List Char :=
  "/api/v1/collections/".toList

/-- The endpoint of a path that is decoded up to the kept escapes. The name of a collection is a
single segment that is not empty. -/
def ofPath? (path : String) : Option Endpoint :=
  if path = "/health" then some .health
  else if path = "/ready" then some .ready
  else if path = "/metrics" then some .metrics
  else if path = "/api/v1/sync/metrics" then some .syncMetrics
  else
    match collectionsPath.isPrefixOf? path.toList with
    | some name =>
      if name.isEmpty || name.contains '/' then none else some (.collection (decodeAll name))
    | none => none

end Endpoint

/-- How many records are listed where no limit is given. -/
def defaultListLimit : Nat :=
  20

/-- How many records may be asked for. -/
def maxListLimit : Nat :=
  1000

/-- The first records of a collection by key, with the number of all. -/
def collectionToJson (store : MemoryStore) (kind : Kind) (limit : Nat) : Json :=
  .object [
    ("collection", .string kind.collection),
    ("size", .ofNat (store.size kind)),
    ("records", .array ((store.list kind limit).map Record.toJson))]

/-- The answer about a collection, given the limit that was asked for. -/
def showCollection (outlook : Outlook) (name : String) (limit : Option Nat) : Response :=
  match Kind.ofCollection? name with
  | none => .failure (.notFound ("Unknown collection '" ++ name ++ "'"))
  | some kind =>
    let limit := limit.getD defaultListLimit
    if maxListLimit < limit then
      .failure (.validation ("limit must be at most " ++ toString maxListLimit))
    else .json 200 (collectionToJson outlook.store kind limit)

/-- Whether the service takes part: some consumer is healthy, or there is none. -/
def isReady (outlook : Outlook) : Bool :=
  outlook.consumers.isEmpty || outlook.consumers.any (·.isHealthy outlook.reading)

/-- The metrics as text, a line each. -/
def metricsText (outlook : Outlook) : String :=
  String.join (outlook.recorder.exposition.map (· ++ "\n"))

/-- The answer of an endpoint to a target. -/
def Endpoint.answer (outlook : Outlook) (target : Target) : Endpoint → Response
  | .health => .bare 200 "OK"
  | .ready =>
    if isReady outlook then .bare 200 "READY" else .json 503 (consumersToJson outlook)
  | .metrics => ⟨200, some "text/plain; version=0.0.4", metricsText outlook⟩
  | .syncMetrics =>
    .json 200 (.object [
      ("metrics", outlook.recorder.snapshot.toJson),
      ("consumers", consumersToJson outlook)])
  | .collection name =>
    match target.limit with
    | .error e => .refusal e
    | .ok limit => showCollection outlook name limit

/-- Answers a request. Only the method GET is served. -/
def respond (outlook : Outlook) (method target : String) : Response :=
  let target := Target.ofText target
  if method = "GET" then
    match Endpoint.ofPath? (decodePath target.path) with
    | some endpoint => endpoint.answer outlook target
    | none => .notFound
  else .notFound

end ChangeFeed.Operator
