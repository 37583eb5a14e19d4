/-!
# Journal lines

What the service reports while it works: a level, a message and named fields.
-/

namespace ChangeFeed.Journal

/-- How serious a line is, from the most serious down. -/
inductive Level where
  | error
  | warn
  | info
  | debug
deriving DecidableEq

/-- The name of a level. -/
def Level.name : Level → String
  | .error => "ERROR"
  | .warn => "WARN"
  | .info => "INFO"
  | .debug => "DEBUG"

/-- The rank of a level; a more serious one has a lower rank. -/
def Level.rank : Level → Nat
  | .error => 0
  | .warn => 1
  | .info => 2
  | .debug => 3

/-- The value of a field. -/
inductive Value where
  | text (value : String)
  | whole (value : Int)
deriving DecidableEq

/-- A line of the journal. -/
structure Line where
  level : Level
  message : String
  fields : List (String × Value)
deriving DecidableEq

/-- A field that is left out when it has no value. -/
def optional (name : String) (value : Option Value) : List (String × Value) :=
  match value with
  | some v => [(name, v)]
  | none => []

end ChangeFeed.Journal
