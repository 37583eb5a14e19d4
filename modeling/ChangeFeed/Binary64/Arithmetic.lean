import ChangeFeed.Binary64.Rounding

/-!
# Binary64 arithmetic

Each operation takes the exact result of its operands and rounds it once. Comparisons are false
when an operand is a NaN; `min` and `max` pass a NaN over and return the other operand.
-/

namespace ChangeFeed.Binary64

/-- The sign as a factor. -/
def sign (negative : Bool) : Int :=
  if negative then -1 else 1

/-- The sum. An exact zero is negative only as the sum of two negative zeros. -/
def add : Binary64 → Binary64 → Binary64
  | .finite s a, .finite t b =>
    let total := sign s * (a.num * b.den : Nat) + sign t * (b.num * a.den : Nat)
    if total = 0 then .finite (s && t) .zero
    else nearest (decide (total < 0)) total.natAbs (a.den * b.den)
  | .infinite s, .infinite t => if s = t then .infinite s else .nan
  | .infinite s, .finite _ _ => .infinite s
  | .finite _ _, .infinite t => .infinite t
  | _, _ => .nan

/-- The product. -/
def mul : Binary64 → Binary64 → Binary64
  | .finite s a, .finite t b => nearest (s != t) (a.num * b.num) (a.den * b.den)
  | .finite s a, .infinite t => if a.significand = 0 then .nan else .infinite (s != t)
  | .infinite s, .finite t b => if b.significand = 0 then .nan else .infinite (s != t)
  | .infinite s, .infinite t => .infinite (s != t)
  | _, _ => .nan

/-- The quotient. -/
def div : Binary64 → Binary64 → Binary64
  | .finite s a, .finite t b =>
    if b.significand = 0 then
      if a.significand = 0 then .nan else .infinite (s != t)
    else nearest (s != t) (a.num * b.den) (a.den * b.num)
  | .finite s _, .infinite t => .finite (s != t) .zero
  | .infinite s, .finite t _ => .infinite (s != t)
  | _, _ => .nan

/-- Whether the first number is strictly below the second. -/
def lt : Binary64 → Binary64 → Bool
  | .finite s a, .finite t b =>
    sign s * (a.num * b.den : Nat) < sign t * (b.num * a.den : Nat)
  | .infinite s, .infinite t => s && !t
  | .infinite s, .finite _ _ => s
  | .finite _ _, .infinite t => !t
  | _, _ => false

/-- Whether the first number is at most the second. -/
def le : Binary64 → Binary64 → Bool
  | .nan, _ => false
  | _, .nan => false
  | a, b => !(lt b a)

/-- The lesser of two numbers; the other one when one is a NaN. -/
def minNum (a b : Binary64) : Binary64 :=
  if a = .nan then b else if b = .nan then a else if lt b a then b else a

/-- The greater of two numbers; the other one when one is a NaN. -/
def maxNum (a b : Binary64) : Binary64 :=
  if a = .nan then b else if b = .nan then a else if lt a b then b else a

/-- Squares the base along the binary digits of the exponent, from the lowest, and multiplies
the squares whose digit is one into `acc`; every product rounds. -/
def powLoop : Nat → Binary64 → Binary64 → Nat → Binary64
  | 0, acc, _, _ => acc
  | fuel + 1, acc, base, n =>
    let acc := if n % 2 = 1 then mul acc base else acc
    if n / 2 = 0 then acc else powLoop fuel acc (mul base base) (n / 2)

/-- A natural power by repeated squaring. -/
def pow (base : Binary64) (n : Nat) : Binary64 :=
  powLoop (n.log2 + 1) (ofNat 1) base n

/-- The number without its fraction, kept between zero and `limit`; a NaN gives zero. -/
def toNatClamped (limit : Nat) : Binary64 → Nat
  | .finite false m => min (m.num / m.den) limit
  | .infinite false => limit
  | _ => 0

/-- The whole number that this number is exactly, if it is one. -/
def toInt? : Binary64 → Option Int
  | .finite s m => if m.num % m.den = 0 then some (sign s * (m.num / m.den : Nat)) else none
  | _ => none

end ChangeFeed.Binary64
