import ChangeFeed.Binary64.Basic

/-!
# Rounding a ratio to the nearest binary64 number

`Magnitude.nearest? n d` rounds the exact ratio `n / d` once: the exponent is the one that gives a
53-bit significand (or the least exponent), the significand is the nearest whole number at that
exponent, and a tie goes to the even one. A ratio past the largest finite number has no nearest
magnitude; as a signed number it is an infinity.
-/

namespace ChangeFeed

/-- Whether `2 ^ k ≤ num / den`. -/
def powLeRatio (k : Int) (num den : Nat) : Bool :=
  den * Nat.pow 2 k.toNat ≤ num * Nat.pow 2 (-k).toNat

/-- The whole part of the binary logarithm of `num / den`, both positive. The lengths of the two
numbers leave two candidates. -/
def floorLog2 (num den : Nat) : Int :=
  let guess : Int := (num.log2 : Int) - (den.log2 : Int)
  if powLeRatio guess num den then guess else guess - 1

/-- The whole number nearest to `num / den`; a half goes to the even neighbour. -/
def roundHalfEven (num den : Nat) : Nat :=
  let q := num / den
  let r := num % den
  if 2 * r < den ∨ (2 * r = den ∧ q % 2 = 0) then q else q + 1

/-- The number of decimal digits; none for zero. -/
def decimalLength (n : Nat) : Nat :=
  if n = 0 then 0 else (Nat.toDigits 10 n).length

namespace Magnitude

/-- The nearest magnitude to `num / den`, or none when that rounds past the largest one. -/
def nearest? (num den : Nat) : Option Magnitude :=
  if num = 0 then
    some zero
  else
    let e := max (floorLog2 num den - 52) (-1074)
    let m := roundHalfEven (num * Nat.pow 2 (-e).toNat) (den * Nat.pow 2 e.toNat)
    -- a significand that rounds up to 54 bits is the least one of the next exponent
    if m = 9007199254740992 then ofParts? 4503599627370496 (e + 1) else ofParts? m e

end Magnitude

namespace Binary64

/-- The number nearest to the ratio `num / den` with the given sign. -/
def nearest (negative : Bool) (num den : Nat) : Binary64 :=
  match Magnitude.nearest? num den with
  | some m => .finite negative m
  | none => .infinite negative

/-- The number nearest to a natural number. -/
def ofNat (n : Nat) : Binary64 :=
  nearest false n 1

/-- The number nearest to `digits * 10 ^ exponent`. The power of ten of the leading digit settles
the numbers far outside the range, whose exact ratio would be a needlessly long one. -/
def ofDecimal (negative : Bool) (digits : Nat) (exponent : Int) : Binary64 :=
  let leading := (decimalLength digits : Int) + exponent
  if digits = 0 ∨ leading < -330 then .finite negative .zero
  else if 310 < leading then .infinite negative
  else nearest negative (digits * Nat.pow 10 exponent.toNat) (Nat.pow 10 (-exponent).toNat)

end Binary64

end ChangeFeed
