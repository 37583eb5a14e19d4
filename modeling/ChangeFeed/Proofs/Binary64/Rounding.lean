import ChangeFeed.Binary64.Arithmetic
import Mathlib.Algebra.Order.Field.Power
import Mathlib.Data.Rat.Floor
import Mathlib.Tactic.FieldSimp
import Mathlib.Tactic.Linarith
import Mathlib.Tactic.NormNum
import Mathlib.Tactic.Positivity
import Mathlib.Tactic.Ring

/-!
# The error of rounding

A magnitude has an exact rational value, and a ratio is rounded to a magnitude that is at most half
a unit in the last place away (`Magnitude.error_nearest?`). The same holds for a decimal number,
however long its digits are and however large its exponent is (`Binary64.error_ofDecimal`); for the
numbers that are settled by their leading digit alone it holds because they are that small.

Half a unit is the `2 ^ 53`rd part of the magnitude at most, or half of the least magnitude
(`Magnitude.half_unit_le`). Below `2 ^ 53` it is no more than a half (`Magnitude.unit_le_one`).
-/

namespace ChangeFeed

/-- An integer power as a ratio of natural ones. -/
theorem zpow_eq_div {b : ℚ} (hb : b ≠ 0) (e : Int) : b ^ e = b ^ e.toNat / b ^ (-e).toNat := by
  rw [← zpow_natCast, ← zpow_natCast, ← zpow_sub₀ hb]
  congr 1
  omega

/-- Rounding a ratio to a whole number moves it by at most a half. -/
theorem error_roundHalfEven (num den : Nat) (h : 0 < den) :
    |(num : ℚ) / den - roundHalfEven num den| ≤ 1 / 2 := by
  have hden : (0 : ℚ) < den := by exact_mod_cast h
  have hlt : num % den < den := Nat.mod_lt num h
  have hsplit : (num : ℚ) / den = (num / den : Nat) + (num % den : Nat) / (den : ℚ) := by
    rw [eq_comm, ← sub_eq_zero]
    have hnum : (den : ℚ) * (num / den : Nat) + (num % den : Nat) = num := by
      exact_mod_cast Nat.div_add_mod num den
    rw [← hnum]
    field_simp
    ring
  have hnonneg : (0 : ℚ) ≤ (num % den : Nat) / (den : ℚ) := by positivity
  have hle : (num % den : Nat) / (den : ℚ) ≤ 1 := by
    rw [div_le_one hden]
    exact_mod_cast hlt.le
  unfold roundHalfEven
  dsimp only
  split
  · next hdown =>
    -- The remainder is at most half of the divisor.
    have hhalf : ((num % den : Nat) : ℚ) / den ≤ 1 / 2 := by
      rw [div_le_div_iff₀ hden two_pos]
      have : num % den * 2 ≤ 1 * den := by omega
      exact_mod_cast this
    rw [hsplit, abs_le]
    constructor <;> linarith
  · next hup =>
    have hhalf : 1 / 2 ≤ ((num % den : Nat) : ℚ) / den := by
      rw [div_le_div_iff₀ two_pos hden]
      have : 1 * den ≤ num % den * 2 := by omega
      exact_mod_cast this
    rw [hsplit, abs_le]
    push_cast
    constructor <;> linarith

namespace Magnitude

/-- The exact value. -/
def value (m : Magnitude) : ℚ :=
  m.significand * 2 ^ m.exponent

/-- The numerator and the denominator give the value. -/
theorem num_div_den (m : Magnitude) : (m.num : ℚ) / m.den = m.value := by
  unfold num den value
  rw [Nat.pow_eq, Nat.pow_eq, zpow_eq_div two_ne_zero]
  push_cast
  ring

/-- The magnitude of the zeros has the value zero. -/
theorem value_zero : zero.value = 0 := by
  unfold zero value
  norm_num

/-- No magnitude is negative. -/
theorem value_nonneg (m : Magnitude) : 0 ≤ m.value := by
  unfold value
  positivity

/-- A magnitude with given parts has these parts. -/
theorem parts_of_ofParts? {significand : Nat} {exponent : Int} {m : Magnitude}
    (h : ofParts? significand exponent = some m) :
    m.significand = significand ∧ m.exponent = exponent := by
  unfold ofParts? at h
  split at h
  · cases h
    exact ⟨rfl, rfl⟩
  · cases h

/-- Rounding a ratio at an exponent moves it by at most half a unit of that exponent. -/
theorem error_scaled (num den : Nat) (hden : 0 < den) (e : Int) :
    |(num : ℚ) / den - roundHalfEven (num * 2 ^ (-e).toNat) (den * 2 ^ e.toNat) * 2 ^ e| ≤
      2 ^ e / 2 := by
  have hunit : (0 : ℚ) < 2 ^ e := by positivity
  have hscaled : ((num * 2 ^ (-e).toNat : Nat) : ℚ) / (den * 2 ^ e.toNat : Nat) * 2 ^ e =
      num / den := by
    rw [zpow_eq_div two_ne_zero e]
    push_cast
    field_simp
  have herror := error_roundHalfEven (num * 2 ^ (-e).toNat) (den * 2 ^ e.toNat) (by positivity)
  calc |(num : ℚ) / den - roundHalfEven (num * 2 ^ (-e).toNat) (den * 2 ^ e.toNat) * 2 ^ e|
      = |((num * 2 ^ (-e).toNat : Nat) : ℚ) / (den * 2 ^ e.toNat : Nat) -
          roundHalfEven (num * 2 ^ (-e).toNat) (den * 2 ^ e.toNat)| * 2 ^ e := by
        rw [← hscaled, ← sub_mul, abs_mul, abs_of_pos hunit]
    _ ≤ 1 / 2 * 2 ^ e := mul_le_mul_of_nonneg_right herror hunit.le
    _ = 2 ^ e / 2 := by ring

/-- The nearest magnitude to a ratio is at most half a unit in the last place away. -/
theorem error_nearest? {num den : Nat} (hden : 0 < den) {m : Magnitude}
    (h : nearest? num den = some m) : |(num : ℚ) / den - m.value| ≤ 2 ^ m.exponent / 2 := by
  unfold nearest? at h
  split at h
  · next hzero =>
    cases h
    rw [hzero, value_zero, Nat.cast_zero, zero_div, sub_zero, abs_zero]
    positivity
  · dsimp only at h
    generalize max (floorLog2 num den - 52) (-1074) = e at h
    have herror := error_scaled num den hden e
    generalize roundHalfEven (num * 2 ^ (-e).toNat) (den * 2 ^ e.toNat) = r at h herror
    split at h
    · next hcarry =>
      -- A significand that is carried over has the same value at the next exponent.
      obtain ⟨hs, he⟩ := parts_of_ofParts? h
      have hvalue : m.value = r * 2 ^ e := by
        unfold value
        rw [hs, he, hcarry, zpow_add₀ two_ne_zero]
        norm_num
        ring
      have hunit : (2 : ℚ) ^ e ≤ 2 ^ (e + 1) :=
        zpow_le_zpow_right₀ one_le_two (Int.le_add_one le_rfl)
      rw [hvalue, he]
      linarith
    · obtain ⟨hs, he⟩ := parts_of_ofParts? h
      have hvalue : m.value = r * 2 ^ e := by
        unfold value
        rw [hs, he]
      rw [hvalue, he]
      exact herror

/-- Half a unit in the last place is a small part of the magnitude, but for the least exponent. -/
theorem half_unit_le (m : Magnitude) :
    (2 : ℚ) ^ m.exponent / 2 ≤ m.value / 2 ^ 53 + 2 ^ (-1075 : Int) := by
  have hleast : (0 : ℚ) < 2 ^ (-1075 : Int) := by positivity
  have hvalue := m.value_nonneg
  rcases m.normal with hexponent | hfull
  · have hhalf : (2 : ℚ) ^ (-1074 - 1 : Int) = 2 ^ (-1074 : Int) / 2 := by
      rw [zpow_sub_one₀ two_ne_zero, div_eq_mul_inv]
    rw [hexponent, ← hhalf]
    have : 0 ≤ m.value / 2 ^ 53 := by positivity
    linarith
  · have hsignificand : (2 : ℚ) ^ 52 ≤ m.significand := by exact_mod_cast hfull
    have hpart : (2 : ℚ) ^ m.exponent / 2 ≤ m.value / 2 ^ 53 :=
      calc (2 : ℚ) ^ m.exponent / 2 = 2 ^ 52 * 2 ^ m.exponent / 2 ^ 53 := by ring
        _ ≤ m.value / 2 ^ 53 := by
          unfold value
          gcongr
    linarith

/-- Below `2 ^ 53` the unit in the last place is no larger than one. -/
theorem unit_le_one {m : Magnitude} (h : m.value < 2 ^ 53) : (2 : ℚ) ^ m.exponent ≤ 1 := by
  by_contra hone
  have hexponent : 1 ≤ m.exponent := by
    by_contra hneg
    exact hone (zpow_le_one_of_nonpos₀ one_le_two (by omega))
  have hfull : 2 ^ 52 ≤ m.significand := m.normal.resolve_left (by omega)
  have hsignificand : (2 : ℚ) ^ 52 ≤ m.significand := by exact_mod_cast hfull
  have htwo : (2 : ℚ) ≤ 2 ^ m.exponent := by
    simpa using zpow_le_zpow_right₀ (one_le_two (α := ℚ)) hexponent
  have : (2 : ℚ) ^ 52 * 2 ≤ m.value := by
    unfold value
    gcongr
  linarith

end Magnitude

namespace Binary64

/-- A number of so many digits is below that power of ten. -/
theorem lt_pow_decimalLength (n : Nat) : n < 10 ^ decimalLength n := by
  unfold decimalLength
  split
  · next h =>
    rw [h]
    exact Nat.one_pos
  · exact (Nat.length_toDigits_le_iff (by decide) (Nat.length_toDigits_pos)).1 le_rfl

/-- The order of powers of natural numbers is turned round by taking inverses. -/
theorem zpow_neg_le_zpow_neg (a b m n : Nat) (ha : 0 < a) (h : a ^ m ≤ b ^ n) :
    (b : ℚ) ^ (-(n : Int)) ≤ (a : ℚ) ^ (-(m : Int)) := by
  have hcast : (a : ℚ) ^ m ≤ (b : ℚ) ^ n := by exact_mod_cast h
  rw [zpow_neg, zpow_neg, zpow_natCast, zpow_natCast]
  exact inv_anti₀ (by positivity) hcast

/-- What has its leading digit that far behind the point is no more than half of the least
magnitude. -/
theorem ten_zpow_le : (10 : ℚ) ^ (-331 : Int) ≤ 2 ^ (-1075 : Int) := by
  exact_mod_cast zpow_neg_le_zpow_neg 2 10 1075 331 two_pos (by decide +kernel)

/-- A decimal number that is read as a finite one has the sign that was asked for, and a magnitude
at most half a unit in the last place away. -/
theorem error_ofDecimal {negative s : Bool} {digits : Nat} {exponent : Int} {m : Magnitude}
    (h : ofDecimal negative digits exponent = .finite s m) :
    s = negative ∧ |(digits : ℚ) * 10 ^ exponent - m.value| ≤ 2 ^ m.exponent / 2 := by
  unfold ofDecimal at h
  dsimp only at h
  split at h
  · next hsmall =>
    cases h
    have hleast : (2 : ℚ) ^ Magnitude.zero.exponent / 2 = 2 ^ (-1074 - 1 : Int) := by
      rw [zpow_sub_one₀ two_ne_zero, div_eq_mul_inv]
      rfl
    rw [Magnitude.value_zero, sub_zero, hleast]
    refine ⟨rfl, ?_⟩
    rcases hsmall with rfl | hsmall
    · rw [Nat.cast_zero, zero_mul, abs_zero]
      positivity
    · -- The number is below the power of ten of its leading digit.
      have hpow : (digits : ℚ) < 10 ^ decimalLength digits := by
        exact_mod_cast lt_pow_decimalLength digits
      calc |(digits : ℚ) * 10 ^ exponent| = digits * 10 ^ exponent := abs_of_nonneg (by positivity)
        _ ≤ 10 ^ decimalLength digits * 10 ^ exponent := by gcongr
        _ = 10 ^ ((decimalLength digits : Int) + exponent) := by
          rw [zpow_add₀ (by norm_num), zpow_natCast]
        _ ≤ 10 ^ (-331 : Int) := zpow_le_zpow_right₀ (by norm_num) (by omega)
        _ ≤ 2 ^ (-1075 : Int) := ten_zpow_le
  · split at h
    · cases h
    · have hden : 0 < 10 ^ (-exponent).toNat := by positivity
      have hratio : ((digits * 10 ^ exponent.toNat : Nat) : ℚ) / (10 ^ (-exponent).toNat : Nat) =
          digits * 10 ^ exponent := by
        rw [zpow_eq_div (by norm_num) exponent]
        push_cast
        ring
      unfold nearest at h
      split at h
      · next m' hnearest =>
        cases h
        have herror := Magnitude.error_nearest? hden hnearest
        rw [Nat.pow_eq] at herror
        rw [hratio] at herror
        exact ⟨rfl, herror⟩
      · cases h

/-- A sign has no magnitude of its own. -/
theorem abs_sign (negative : Bool) : |(sign negative : ℚ)| = 1 := by
  unfold sign
  split <;> norm_num

/-- The exact value of a finite number. -/
def value? : Binary64 → Option ℚ
  | .finite s m => some (sign s * m.value)
  | _ => none

end Binary64

end ChangeFeed
