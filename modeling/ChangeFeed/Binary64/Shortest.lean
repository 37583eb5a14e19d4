import ChangeFeed.Binary64.Rounding

/-!
# The shortest decimal that reads back

The decimals that round to a magnitude fill an interval around it; its ends belong to it when the
significand is even. `Magnitude.shortest` gives a decimal of that interval with the fewest digits,
and of those the nearest to the magnitude; which of two equally near ones is a choice of the format.
For each digit count it looks at the two neighbours of the magnitude on the grid of decimals with
that many digits: when any point of the grid lies in the interval, one of those two does.
-/

namespace ChangeFeed

/-- The whole part of the decimal logarithm of `num / den`, both positive. -/
def floorLog10 (num den : Nat) : Int :=
  if den ≤ num then
    (decimalLength (num / den) : Int) - 1
  else
    -- the least `j` with `den ≤ num * 10 ^ j`
    -(decimalLength ((den + num - 1) / num - 1) : Int)

/-- A decimal `digits * 10 ^ exponent`. -/
structure Decimal where
  digits : Nat
  exponent : Int
deriving DecidableEq

namespace Decimal

/-- Drops the trailing zeros of the digits. -/
def normalize : Nat → Decimal → Decimal
  | 0, d => d
  | fuel + 1, d =>
    if d.digits ≠ 0 ∧ d.digits % 10 = 0 then
      normalize fuel ⟨d.digits / 10, d.exponent + 1⟩
    else d

end Decimal

/-- Which of two equally near neighbours on a grid is taken. -/
inductive TieRule where
  /-- The one with an even last digit. -/
  | toEven
  /-- The one further from zero. -/
  | away
deriving DecidableEq

/-- Whether a tie between `low` and `low + 1` goes to `low`. -/
def TieRule.takesLower : TieRule → (low : Nat) → Bool
  | .toEven, low => low % 2 = 0
  | .away, _ => false

namespace Magnitude

/-- Whether `digits * 10 ^ exponent` rounds to the magnitude. The point is compared with the
midpoints to the neighbours, all multiplied by `4 * den * 10 ^ (-exponent)`; the midpoint below a
power of two is half as far. -/
def isNearDecimal (m : Magnitude) (digits : Nat) (exponent : Int) : Bool :=
  let point := 4 * (digits * Nat.pow 10 exponent.toNat * m.den)
  let scale := Nat.pow 10 (-exponent).toNat
  let ulp := Nat.pow 2 m.exponent.toNat * scale
  let centre := 4 * m.num * scale
  let below := if m.significand = 4503599627370496 ∧ m.exponent ≠ -1074 then ulp else 2 * ulp
  let above := 2 * ulp
  if m.significand % 2 = 0 then
    centre ≤ point + below ∧ point ≤ centre + above
  else
    centre < point + below ∧ point < centre + above

/-- The neighbour of the magnitude on the grid of multiples of `10 ^ exponent` that rounds to it,
the nearer one when both do. -/
def onGrid? (tie : TieRule) (m : Magnitude) (exponent : Int) : Option Nat :=
  let num := m.num * Nat.pow 10 (-exponent).toNat
  let den := m.den * Nat.pow 10 exponent.toNat
  let low := num / den
  let twice := 2 * (num % den)
  match m.isNearDecimal low exponent, m.isNearDecimal (low + 1) exponent with
  | true, true =>
    some (if twice < den ∨ (twice = den ∧ tie.takesLower low) then low else low + 1)
  | true, false => some low
  | false, true => some (low + 1)
  | false, false => none

/-- Tries the grids of one digit, two digits, and so on; `exponent` is that of the next grid. -/
def shortestFrom (tie : TieRule) (m : Magnitude) : Nat → Int → Decimal
  | 0, exponent =>
    ⟨m.num * Nat.pow 10 (-exponent).toNat / (m.den * Nat.pow 10 exponent.toNat), exponent⟩
  | tries + 1, exponent =>
    match m.onGrid? tie exponent with
    | some digits => ⟨digits, exponent⟩
    | none => shortestFrom tie m tries (exponent - 1)

/-- The shortest decimal that rounds to the magnitude, without trailing zeros. Seventeen digits
always suffice. -/
def shortest (tie : TieRule) (m : Magnitude) : Decimal :=
  if m.significand = 0 then ⟨0, 0⟩
  else (shortestFrom tie m 17 (floorLog10 m.num m.den)).normalize 20

end Magnitude

end ChangeFeed
