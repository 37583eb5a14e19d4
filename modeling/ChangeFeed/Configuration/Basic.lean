import ChangeFeed.Binary64.Arithmetic
import ChangeFeed.Engine.Tuning
import ChangeFeed.Router
import ChangeFeed.Service.ServiceError
import ChangeFeed.Text.Numeral

/-!
# The configuration of the service

The settings with their defaults, the checks that an accepted configuration has passed, and what
is made of it: topics, aliases, the router, the tuning of the engine.
-/

namespace ChangeFeed

/-- The settings of the service. -/
structure Configuration where
  kafkaBrokers : String
  groupId : String
  topics : List String
  batchSize : Nat
  pollTimeoutMillis : Nat
  sessionTimeoutMillis : Nat
  workers : Nat
  partitions : Nat
  retryMaxRetries : Nat
  retryInitialBackoffMillis : Nat
  retryMaxBackoffMillis : Nat
  retryMultiplier : Binary64
  retryJitter : Bool
  storeTimeoutMillis : Nat
  verifyAffinity : Bool
  consumerMaxBackoffSeconds : Nat
  tableAliases : List String
  httpPort : Nat
deriving DecidableEq

/-- Why a text is not the value of a setting. -/
inductive ValueFault where
  | numeral (e : Text.NumeralError)
  | emptyFloat
  | invalidFloat
  | notBoolean
deriving DecidableEq

/-- The wording of a fault. -/
def ValueFault.message : ValueFault → String
  | .numeral e => e.message
  | .emptyFloat => "cannot parse float from empty string"
  | .invalidFloat => "invalid float literal"
  | .notBoolean => "provided string was not \x60true\x60 or \x60false\x60"

/-- What is wrong with an alias. -/
inductive AliasFault where
  | noEquals
  | emptyTable
  | unknownKind
deriving DecidableEq

/-- The wording of what is wrong. -/
def AliasFault.message : AliasFault → String
  | .noEquals => "must look like table=kind"
  | .emptyTable => "has an empty table name"
  | .unknownKind => "names an unknown entity kind"

/-- Why a configuration is refused. -/
inductive ConfigurationError where
  | unreadable (fault : ValueFault) (value key : String)
  | duplicate (field : String)
  | noBrokers
  | noTopics
  | notPositive (subject : String)
  | lowMultiplier
  | badAlias (entry : String) (fault : AliasFault)
deriving DecidableEq

namespace ConfigurationError

/-- The wording of a refusal. -/
def message : ConfigurationError → String
  | .unreadable fault value key =>
    fault.message ++ " while parsing value '" ++ value ++ "' provided by " ++ key
  | .duplicate field => "duplicate field \x60" ++ field ++ "\x60"
  | .noBrokers => "kafka_brokers must not be empty"
  | .noTopics => "at least one topic is required"
  | .notPositive subject => subject ++ " must be positive"
  | .lowMultiplier => "retry_multiplier must be at least 1.0"
  | .badAlias entry fault => "table alias '" ++ entry ++ "' " ++ fault.message

/-- A refused configuration as a failure of the service. -/
def toServiceError (e : ConfigurationError) : ServiceError :=
  .config e.message

end ConfigurationError

namespace Configuration

/-- The settings used where none are given. -/
def default : Configuration where
  kafkaBrokers := "localhost:9092"
  groupId := "cache-sync-v1"
  topics := Kind.all.map fun kind => "dbserver1.inventory." ++ kind.collection
  batchSize := 500
  pollTimeoutMillis := 1000
  sessionTimeoutMillis := 30000
  workers := 1
  partitions := 1024
  retryMaxRetries := 3
  retryInitialBackoffMillis := 50
  retryMaxBackoffMillis := 1000
  retryMultiplier := .ofNat 2
  retryJitter := true
  storeTimeoutMillis := 2000
  verifyAffinity := true
  consumerMaxBackoffSeconds := 60
  tableAliases := []
  httpPort := 8080

/-- A text without the blanks at its ends. -/
def trimmed (s : String) : String :=
  .ofList (Text.trim s.toList)

/-- Whether a text has nothing but blanks. -/
def isBlank (s : String) : Bool :=
  Text.isBlankText s.toList

/-- The topics, trimmed, without the blank ones. -/
def trimmedTopics (c : Configuration) : List String :=
  (c.topics.map trimmed).filter (· ≠ "")

/-- Reads an alias `table=kind`. The kind is named by any source that routes to it. -/
def readAlias (entry : String) : Except ConfigurationError (String × Kind) :=
  match Text.splitFirst '=' entry.toList with
  | none => .error (.badAlias entry .noEquals)
  | some (table, kind) =>
    let table := Text.trim table
    if table = [] ∨ table.getLast? = some '.' then .error (.badAlias entry .emptyTable)
    else
      match Router.builtIn.route? (.ofList (Text.trim kind)) with
      | none => .error (.badAlias entry .unknownKind)
      | some kind => .ok (.ofList table, kind)

/-- The aliases, up to the first one that is wrong. Blank entries are passed over. -/
def aliases (c : Configuration) : Except ConfigurationError (List (String × Kind)) :=
  (c.tableAliases.filter fun entry => !isBlank entry).mapM readAlias

/-- The router with the aliases. -/
def router (c : Configuration) : Except ConfigurationError Router :=
  c.aliases.map Router.builtIn.withAliases

/-- Refuses a setting that is zero. -/
def requirePositive (n : Nat) (subject : String) : Except ConfigurationError Unit :=
  if n = 0 then .error (.notPositive subject) else .ok ()

/-- Whether a factor is finite and at least one. -/
def isGrowthFactor (x : Binary64) : Bool :=
  x.isFinite && (Binary64.ofNat 1).le x

/-- The checks, in order. -/
def validate (c : Configuration) : Except ConfigurationError Unit := do
  if isBlank c.kafkaBrokers then throw .noBrokers
  if c.topics.all isBlank then throw .noTopics
  requirePositive c.batchSize "batch_size"
  requirePositive c.workers "workers"
  requirePositive c.partitions "partitions"
  requirePositive c.pollTimeoutMillis "timeouts"
  requirePositive c.storeTimeoutMillis "timeouts"
  if !isGrowthFactor c.retryMultiplier then throw .lowMultiplier
  let _ ← c.aliases

/-- The retry policy for store calls. -/
def retryPolicy (c : Configuration) : Retry.Policy where
  maxRetries := c.retryMaxRetries.toUInt32
  initialBackoff := .ofMillis c.retryInitialBackoffMillis
  maxBackoff := .ofMillis c.retryMaxBackoffMillis
  multiplier := c.retryMultiplier
  jitter := c.retryJitter

/-- The tuning of the engine. -/
def tuning (c : Configuration) : Tuning where
  retry := c.retryPolicy
  storeTimeout := .ofMillis c.storeTimeoutMillis
  verifyAffinity := c.verifyAffinity
  pollTimeout := .ofMillis c.pollTimeoutMillis

/-- The longest wait after failures of the log client, at least a second. -/
def consumerMaxBackoff (c : Configuration) : Duration :=
  .ofSeconds (max c.consumerMaxBackoffSeconds 1)

end Configuration

end ChangeFeed
