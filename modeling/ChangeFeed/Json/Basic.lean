import ChangeFeed.Binary64.Rounding

/-!
# JSON values

Numbers keep the difference between whole tokens and floats. An object keeps its members in the
order of its text, repeated keys included; `Json.member?` finds the last member with a key.
-/

namespace ChangeFeed

/-- A JSON number: a whole one between `-2 ^ 63` and `2 ^ 64 - 1`, or a float. -/
inductive Json.Number where
  | whole (value : Int) (range : -9223372036854775808 ≤ value ∧ value < 18446744073709551616)
  | float (value : Binary64)
deriving DecidableEq

/-- A natural number below `2 ^ 64` is in the range of whole numbers. -/
theorem Json.Number.range_of_lt {n : Nat} (h : n < 18446744073709551616) :
    -9223372036854775808 ≤ (n : Int) ∧ (n : Int) < 18446744073709551616 := by
  omega

/-- The opposite of a natural number up to `2 ^ 63` is in the range of whole numbers. -/
theorem Json.Number.range_neg_of_le {n : Nat} (h : n ≤ 9223372036854775808) :
    -9223372036854775808 ≤ -(n : Int) ∧ -(n : Int) < 18446744073709551616 := by
  omega

/-- A JSON value. -/
inductive Json where
  | null
  | bool (value : Bool)
  | number (value : Json.Number)
  | string (value : String)
  | array (items : List Json)
  | object (members : List (String × Json))

namespace Json

instance : Inhabited Json :=
  ⟨null⟩

/-- A natural number, as a float where it is too large for a whole token. -/
def ofNat (n : Nat) : Json :=
  if h : n < 18446744073709551616 then .number (.whole n (Number.range_of_lt h))
  else .number (.float (.ofNat n))

/-- A 64-bit integer as a whole number. -/
def ofInt64 (n : Int64) : Json :=
  .number (.whole n.toInt ⟨n.le_toInt, by have := n.toInt_lt; omega⟩)

/-- A float as a number; what is not finite has no JSON number and becomes null. -/
def ofBinary64 (x : Binary64) : Json :=
  if x.isFinite then .number (.float x) else .null

/-- The value of the last member with a key. -/
def lookup? (members : List (String × Json)) (key : String) : Option Json :=
  (members.reverse.find? fun m => m.1 = key).map (·.2)

/-- The word for a kind of value. -/
def typeName : Json → String
  | .null => "null"
  | .bool _ => "boolean"
  | .number _ => "number"
  | .string _ => "string"
  | .array _ => "array"
  | .object _ => "object"

end Json

end ChangeFeed
