/-!
# Binary64 numbers

A finite number is a sign and a magnitude `significand * 2 ^ exponent`. Every magnitude has one
normal form, which is what the type holds, so two numbers with the same sign and value are equal
and equality is decidable. The two zeros differ in their sign. No hardware arithmetic is involved:
a magnitude is an exact ratio of natural numbers, and all operations round that ratio once.
-/

namespace ChangeFeed

/-- A finite magnitude in normal form: the significand fills its 53 bits, and is at least `2 ^ 52`,
unless the exponent is already the least one. -/
structure Magnitude where
  significand : Nat
  exponent : Int
  significand_lt : significand < 9007199254740992
  le_exponent : -1074 ≤ exponent
  exponent_le : exponent ≤ 971
  normal : exponent = -1074 ∨ 4503599627370496 ≤ significand
deriving DecidableEq

/-- A binary64 number. -/
inductive Binary64 where
  | finite (negative : Bool) (magnitude : Magnitude)
  | infinite (negative : Bool)
  | nan
deriving DecidableEq

namespace Magnitude

/-- The magnitude of both zeros. -/
def zero : Magnitude :=
  ⟨0, -1074, by decide, by decide, by decide, Or.inl rfl⟩

/-- The numerator of the exact value. -/
def num (m : Magnitude) : Nat :=
  m.significand * Nat.pow 2 m.exponent.toNat

/-- The denominator of the exact value, a power of two. -/
def den (m : Magnitude) : Nat :=
  Nat.pow 2 (-m.exponent).toNat

/-- The denominator is a power of two, so it is not zero. -/
theorem den_pos (m : Magnitude) : 0 < m.den :=
  Nat.two_pow_pos _

/-- The magnitude with these parts, when they are a normal form. -/
def ofParts? (significand : Nat) (exponent : Int) : Option Magnitude :=
  if h : significand < 9007199254740992 ∧ -1074 ≤ exponent ∧ exponent ≤ 971 ∧
      (exponent = -1074 ∨ 4503599627370496 ≤ significand) then
    some ⟨significand, exponent, h.1, h.2.1, h.2.2.1, h.2.2.2⟩
  else
    none

end Magnitude

namespace Binary64

/-- The positive zero. -/
def zero : Binary64 :=
  .finite false .zero

instance : Inhabited Binary64 :=
  ⟨zero⟩

/-- Neither an infinity nor a NaN. -/
def isFinite : Binary64 → Bool
  | .finite _ _ => true
  | _ => false

/-- The same number with the other sign. -/
def neg : Binary64 → Binary64
  | .finite s m => .finite (!s) m
  | .infinite s => .infinite (!s)
  | .nan => .nan

end Binary64

end ChangeFeed
