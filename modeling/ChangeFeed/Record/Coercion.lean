import ChangeFeed.Binary64.Arithmetic
import ChangeFeed.Instant.Layout
import ChangeFeed.Json.Writer
import ChangeFeed.Record.DecodeError
import ChangeFeed.Text.Blank
import ChangeFeed.Text.Segment

/-!
# Coercing a column's value

A value of an image becomes an integer, a decimal, a timestamp or a text, or it is refused. An
integer is never rounded onto a neighbour: a float is taken only where floats still tell whole
numbers apart, and digits are read as digits.
-/

namespace ChangeFeed.Coercion

open ChangeFeed.Text

/-- The bound on floats that stand for one integer only: they have 53 bits for it. -/
def exactBound : Nat :=
  9007199254740992

/-- The integer that a float is, below the bound. -/
def exactInteger? (x : Binary64) : Option Int64 :=
  x.toInt?.bind fun n => if n.natAbs < exactBound then toInt64? n else none

/-- Digits with a fraction of zeros, read from the digits alone. -/
def zeroFraction? (cs : List Char) : Option Int64 :=
  (splitFirst '.' cs).bind fun (whole, fraction) =>
    if fraction ≠ [] ∧ fraction.all (· = '0') then readInt64? whole else none

/-- Whether a text has nothing but digits and signs. -/
def isWholeText (cs : List Char) : Bool :=
  cs.all fun c => c.isDigit || c = '-' || c = '+'

/-- The integer that a text writes. A text of digits and signs alone is out of range when it is
not an integer; anything else may still be a decimal number with a whole value. -/
def integerOfText? (cs : List Char) : Option Int64 :=
  (readInt64? cs).or <| (zeroFraction? cs).or <|
    if isWholeText cs then none else (readBinary64? cs).bind exactInteger?

/-- Integers, whole floats, and texts that hold either. -/
def integer? : Json → Option Int64
  | .number (.whole n _) => toInt64? n
  | .number (.float x) => exactInteger? x
  | .string s => integerOfText? (trim s.toList)
  | _ => none

/-- A value as an integer. -/
def integer (v : Json) : Except Expected Int64 :=
  (integer? v).elim (.error .integer) .ok

/-- Any number, and texts that hold one. -/
def decimal? : Json → Option Binary64
  | .number (.whole n _) => some (.nearest (decide (n < 0)) n.natAbs 1)
  | .number (.float x) => some x
  | .string s => readBinary64? (trim s.toList)
  | _ => none

/-- A value as a finite decimal. -/
def decimal (v : Json) : Except Expected Binary64 :=
  ((decimal? v).filter Binary64.isFinite).elim (.error .decimal) .ok

/-- A value as a timestamp: a text in one of the layouts, or milliseconds from the epoch. -/
def timestamp : Json → Except Expected Instant
  | .number n => do
    let millis ← integer (.number n)
    (Instant.ofEpochMillis? millis.toInt).elim (.error .timestamp) .ok
  | .string s => (Instant.read? s.toList).elim (.error .timestamp) .ok
  | _ => .error .timestamp

/-- A value as a text: a string is itself, any other value its compact canonical form. -/
def text : Json → String
  | .string s => s
  | v => v.canonicalText

end ChangeFeed.Coercion
