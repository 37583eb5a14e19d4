import ChangeFeed.Configuration.Basic

/-!
# Reading a configuration from pairs

Keys carry the prefix `CDC_`, any number of times; what follows, in lower case, names a setting.
Other keys are passed over. Pairs are read in order and the first fault wins; then the whole
configuration is checked.

The pairs may be those of an environment, in which a variable that is set again keeps its place and
changes its value.
-/

namespace ChangeFeed.Configuration

/-- A setting. -/
inductive Field where
  | kafkaBrokers
  | groupId
  | topics
  | batchSize
  | pollTimeoutMillis
  | sessionTimeoutMillis
  | workers
  | partitions
  | retryMaxRetries
  | retryInitialBackoffMillis
  | retryMaxBackoffMillis
  | retryMultiplier
  | retryJitter
  | storeTimeoutMillis
  | verifyAffinity
  | consumerMaxBackoffSeconds
  | tableAliases
  | httpPort
deriving DecidableEq

namespace Field

/-- Every setting. -/
def all : List Field :=
  [.kafkaBrokers, .groupId, .topics, .batchSize, .pollTimeoutMillis, .sessionTimeoutMillis,
    .workers, .partitions, .retryMaxRetries, .retryInitialBackoffMillis, .retryMaxBackoffMillis,
    .retryMultiplier, .retryJitter, .storeTimeoutMillis, .verifyAffinity,
    .consumerMaxBackoffSeconds, .tableAliases, .httpPort]

/-- The name of a setting. -/
def name : Field → String
  | .kafkaBrokers => "kafka_brokers"
  | .groupId => "group_id"
  | .topics => "topics"
  | .batchSize => "batch_size"
  | .pollTimeoutMillis => "poll_timeout_ms"
  | .sessionTimeoutMillis => "session_timeout_ms"
  | .workers => "workers"
  | .partitions => "partitions"
  | .retryMaxRetries => "retry_max_retries"
  | .retryInitialBackoffMillis => "retry_initial_backoff_ms"
  | .retryMaxBackoffMillis => "retry_max_backoff_ms"
  | .retryMultiplier => "retry_multiplier"
  | .retryJitter => "retry_jitter"
  | .storeTimeoutMillis => "store_timeout_ms"
  | .verifyAffinity => "verify_affinity"
  | .consumerMaxBackoffSeconds => "consumer_max_backoff_secs"
  | .tableAliases => "table_aliases"
  | .httpPort => "http_port"

/-- The setting with a name. -/
def ofName? (name : String) : Option Field :=
  all.find? fun field => field.name = name

end Field

/-- The mark of the keys that belong to the service. -/
def keyMark : List Char :=
  ['C', 'D', 'C', '_']

/-- The lower case of a key, as far as it can turn into ASCII letters: that of the ASCII letters
and of the Kelvin sign. -/
def lowerKey (cs : List Char) : String :=
  .ofList (cs.map fun c => if c = '\u212a' then 'k' else c.toLower)

/-- What follows the mark of a key and its repetitions; none for a key without the mark. -/
def stripKey? (key : String) : Option (List Char) :=
  if keyMark.isPrefixOf key.toList then
    some (Text.dropRepeats keyMark key.toList.length key.toList)
  else none

/-- A natural number up to a bound. -/
def readNat (limit : Nat) (value : String) : Except ValueFault Nat :=
  (Text.readNat limit value.toList).mapError .numeral

/-- A 64-bit number. -/
def readNat64 : String → Except ValueFault Nat :=
  readNat 18446744073709551615

/-- A 32-bit number. -/
def readNat32 : String → Except ValueFault Nat :=
  readNat 4294967295

/-- A decimal number. -/
def readFloat (value : String) : Except ValueFault Binary64 :=
  if value = "" then .error .emptyFloat
  else (Text.readBinary64? value.toList).elim (.error .invalidFloat) .ok

/-- A truth value. -/
def readBool : String → Except ValueFault Bool
  | "true" => .ok true
  | "false" => .ok false
  | _ => .error .notBoolean

/-- A list with commas between its entries; the empty text is the empty list. -/
def readList (value : String) : List String :=
  if value = "" then [] else (Text.splitAll ',' value.toList).map .ofList

/-- Sets a setting from a text. -/
def set (c : Configuration) (field : Field) (value : String) :
    Except ValueFault Configuration :=
  match field with
  | .kafkaBrokers => .ok { c with kafkaBrokers := value }
  | .groupId => .ok { c with groupId := value }
  | .topics => .ok { c with topics := readList value }
  | .batchSize => (readNat64 value).map fun n => { c with batchSize := n }
  | .pollTimeoutMillis => (readNat64 value).map fun n => { c with pollTimeoutMillis := n }
  | .sessionTimeoutMillis => (readNat32 value).map fun n => { c with sessionTimeoutMillis := n }
  | .workers => (readNat64 value).map fun n => { c with workers := n }
  | .partitions => (readNat32 value).map fun n => { c with partitions := n }
  | .retryMaxRetries => (readNat32 value).map fun n => { c with retryMaxRetries := n }
  | .retryInitialBackoffMillis =>
    (readNat64 value).map fun n => { c with retryInitialBackoffMillis := n }
  | .retryMaxBackoffMillis => (readNat64 value).map fun n => { c with retryMaxBackoffMillis := n }
  | .retryMultiplier => (readFloat value).map fun x => { c with retryMultiplier := x }
  | .retryJitter => (readBool value).map fun b => { c with retryJitter := b }
  | .storeTimeoutMillis => (readNat64 value).map fun n => { c with storeTimeoutMillis := n }
  | .verifyAffinity => (readBool value).map fun b => { c with verifyAffinity := b }
  | .consumerMaxBackoffSeconds =>
    (readNat64 value).map fun n => { c with consumerMaxBackoffSeconds := n }
  | .tableAliases => .ok { c with tableAliases := readList value }
  | .httpPort => (readNat 65535 value).map fun n => { c with httpPort := n }

/-- Reads pairs on top of a configuration in which the settings `seen` have been set. -/
def readPairs : List Field → Configuration → List (String × String) →
    Except ConfigurationError Configuration
  | _, c, [] => .ok c
  | seen, c, (key, value) :: rest =>
    match stripKey? key with
    | none => readPairs seen c rest
    | some name =>
      match Field.ofName? (lowerKey name) with
      | none => readPairs seen c rest
      | some field =>
        if field ∈ seen then .error (.duplicate field.name)
        else
          match c.set field value with
          | .error fault => .error (.unreadable fault value (.ofList name))
          | .ok c => readPairs (field :: seen) c rest

/-- The configuration of some pairs, read and checked. -/
def ofPairs (pairs : List (String × String)) : Except ConfigurationError Configuration := do
  let c ← readPairs [] default pairs
  c.validate
  return c

/-- Sets a variable of an environment. -/
def setVariable (environment : List (String × String)) (name value : String) :
    List (String × String) :=
  if environment.any (·.1 = name) then
    environment.map fun v => if v.1 = name then (name, value) else v
  else environment ++ [(name, value)]

/-- The configuration of an environment whose variables are set one after the other. -/
def ofVariables (settings : List (String × String)) :
    Except ConfigurationError Configuration :=
  ofPairs (settings.foldl (fun environment v => setVariable environment v.1 v.2) [])

end ChangeFeed.Configuration
