import ChangeFeed.Json.Basic

/-!
# The canonical form of a JSON value

In canonical form an object has each key once, in the order of the keys' code points, which is
also that of their UTF-8 bytes. Of repeated members the last one counts.
-/

namespace ChangeFeed.Json

/-- Adds a member to sorted members, unless its key is already there. -/
def insertAbsent (key : String) (value : Json) : List (String × Json) → List (String × Json)
  | [] => [(key, value)]
  | (k, v) :: rest =>
    if key = k then (k, v) :: rest
    else if key < k then (key, value) :: (k, v) :: rest
    else (k, v) :: insertAbsent key value rest

mutual

/-- The canonical form. -/
def canonical : Json → Json
  | .array items => .array (canonicalItems items)
  | .object members => .object (canonicalMembers members)
  | v => v

/-- The canonical forms of items. -/
def canonicalItems : List Json → List Json
  | [] => []
  | v :: rest => canonical v :: canonicalItems rest

/-- Members sorted by key; an earlier member never replaces a later one. -/
def canonicalMembers : List (String × Json) → List (String × Json)
  | [] => []
  | (k, v) :: rest => insertAbsent k (canonical v) (canonicalMembers rest)

end

end ChangeFeed.Json
