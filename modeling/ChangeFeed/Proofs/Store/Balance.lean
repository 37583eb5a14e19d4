import ChangeFeed.Store.Memory
import Mathlib.SetTheory.Cardinal.Finite

/-!
# How keys spread over the partitions

Mixing a word loses nothing, since each of its steps can be undone (`KeyHash.unmix`): what a fold
shifts by is more than half of a word, so that folding again takes the fold back
(`KeyHash.fold_fold`), and the factors are odd, so that each has an inverse modulo `2 ^ 64`. Every
word is therefore the hash of just one key.

The words that leave a given remainder are told apart by their quotients. Where the number of
partitions divides `2 ^ 64`, every partition has the same number of quotients, and so the same
number of keys (`KeyHash.card_partition`).
-/

namespace ChangeFeed.KeyHash

/-! ## Undoing the mix -/

/-- What two shifts move out of a word leaves nothing. -/
theorem shiftRight_twice (k : UInt64) : k >>> 33 >>> 33 = 0 := by
  have hlt : k.toNat < 2 ^ 66 := Nat.lt_trans k.toNat_lt (by decide)
  apply UInt64.toNat.inj
  calc (k >>> 33 >>> 33).toNat = k.toNat >>> 33 >>> 33 := rfl
    _ = k.toNat / 2 ^ 66 := by rw [← Nat.shiftRight_add, Nat.shiftRight_eq_div_pow]
    _ = 0 := Nat.div_eq_of_lt hlt

/-- Folding twice changes nothing. -/
theorem fold_fold (k : UInt64) : fold (fold k) = k := by
  have hshift : (k ^^^ k >>> 33) >>> 33 = k >>> 33 := by
    rw [UInt64.shiftRight_xor, shiftRight_twice, UInt64.xor_zero]
  calc fold (fold k) = (k ^^^ k >>> 33) ^^^ (k ^^^ k >>> 33) >>> 33 := rfl
    _ = k ^^^ (k >>> 33 ^^^ k >>> 33) := by rw [hshift, UInt64.xor_assoc]
    _ = k := by rw [UInt64.xor_self, UInt64.xor_zero]

/-- The inverse of the first factor modulo `2 ^ 64`. -/
def firstInverse : UInt64 :=
  0x4f74430c22a54005

/-- The inverse of the second factor modulo `2 ^ 64`. -/
def secondInverse : UInt64 :=
  0x9cb4b2f8129337db

/-- Takes the steps of the mix back, the last one first. -/
def unmix (h : UInt64) : UInt64 :=
  fold (fold (fold h * secondInverse) * firstInverse)

/-- Multiplying by a factor and then by its inverse changes nothing. -/
theorem mul_mul_of_inverse {factor inverse : UInt64} (h : factor * inverse = 1) (k : UInt64) :
    k * factor * inverse = k := by
  rw [UInt64.mul_assoc, h, UInt64.mul_one]

/-- What was mixed comes back. -/
theorem unmix_mix (k : UInt64) : unmix (mix k) = k := by
  have hfirst : firstFactor * firstInverse = 1 := by decide
  have hsecond : secondFactor * secondInverse = 1 := by decide
  unfold unmix mix
  rw [fold_fold, mul_mul_of_inverse hsecond, fold_fold, mul_mul_of_inverse hfirst, fold_fold]

/-- Every word is the mix of another. -/
theorem mix_unmix (h : UInt64) : mix (unmix h) = h := by
  have hfirst : firstInverse * firstFactor = 1 := by decide
  have hsecond : secondInverse * secondFactor = 1 := by decide
  unfold unmix mix
  rw [fold_fold, mul_mul_of_inverse hfirst, fold_fold, mul_mul_of_inverse hsecond, fold_fold]

/-- The keys and their hashes, one for each. -/
def hashes : Int64 ≃ UInt64 where
  toFun key := mix key.toUInt64
  invFun h := (unmix h).toInt64
  left_inv key := by
    show (unmix (mix key.toUInt64)).toInt64 = key
    rw [unmix_mix, Int64.toInt64_toUInt64]
  right_inv h := by
    show mix (unmix h).toInt64.toUInt64 = h
    rw [UInt64.toUInt64_toInt64, mix_unmix]

/-! ## Counting keys -/

section

variable {partitions quotients p : Nat}

/-- The words with a given remainder and their quotients, one for each. -/
def quotientsOf (hwords : partitions * quotients = 2 ^ 64) (hp : p < partitions) :
    { w : UInt64 // w.toNat % partitions = p } ≃ Fin quotients where
  toFun w := ⟨w.1.toNat / partitions, Nat.div_lt_of_lt_mul (hwords ▸ w.1.toNat_lt)⟩
  invFun q := ⟨.ofNat (partitions * q + p), by
    rw [UInt64.toNat_ofNat', Nat.mod_mod_of_dvd _ ⟨quotients, hwords.symm⟩, Nat.mul_add_mod,
      Nat.mod_eq_of_lt hp]⟩
  left_inv := by
    rintro ⟨w, hw⟩
    have hsum : partitions * (w.toNat / partitions) + p = w.toNat := by
      rw [← hw, Nat.div_add_mod]
    apply Subtype.ext
    show UInt64.ofNat (partitions * (w.toNat / partitions) + p) = w
    rw [hsum, UInt64.ofNat_toNat]
  right_inv q := by
    apply Fin.ext
    have hlt : partitions * q + p < 2 ^ 64 := by
      calc partitions * q + p < partitions * q + partitions := Nat.add_lt_add_left hp _
        _ = partitions * (q + 1) := rfl
        _ ≤ partitions * quotients := Nat.mul_le_mul_left _ q.2
        _ = 2 ^ 64 := hwords
    show (UInt64.ofNat (partitions * q + p)).toNat / partitions = q
    rw [UInt64.toNat_ofNat', Nat.mod_eq_of_lt hlt, Nat.mul_add_div (Nat.zero_lt_of_lt hp),
      Nat.div_eq_of_lt hp, Nat.add_zero]

/-- Every partition has as many keys as every other, if their number divides that of all words. -/
theorem card_partition (hwords : partitions * quotients = 2 ^ 64) (hp : p < partitions) :
    Nat.card { key : Int64 // partition partitions key = p } = quotients :=
  calc Nat.card { key : Int64 // partition partitions key = p }
      = Nat.card { w : UInt64 // w.toNat % partitions = p } :=
        Nat.card_congr (hashes.subtypeEquiv fun _ => Iff.rfl)
    _ = Nat.card (Fin quotients) := Nat.card_congr (quotientsOf hwords hp)
    _ = quotients := Nat.card_fin quotients

end

/-- Mixing is a bijection of words, so no two keys have the same hash; and where the number of
partitions is a power of two, up to `2 ^ 31`, every partition has the same number of keys. -/
theorem bijective_and_balanced :
    Function.Bijective mix ∧ (Function.Injective fun key : Int64 => mix key.toUInt64) ∧
      ∀ e ≤ 31, ∀ p < 2 ^ e,
        Nat.card { key : Int64 // partition (2 ^ e) key = p } = 2 ^ 64 / 2 ^ e := by
  refine ⟨?_, hashes.injective, ?_⟩
  · exact Function.bijective_iff_has_inverse.2 ⟨unmix, unmix_mix, mix_unmix⟩
  · intro e he p hp
    have hwords : 2 ^ e * (2 ^ 64 / 2 ^ e) = 2 ^ 64 :=
      Nat.mul_div_cancel' (Nat.pow_dvd_pow 2 (Nat.le_trans he (by decide)))
    exact card_partition hwords hp

/-- With the default number of partitions the last one has `2 ^ 54` keys. -/
theorem bijective_and_balanced_default :
    MemoryStore.new.partitions = 2 ^ 10 ∧
      Nat.card { key : Int64 // partition (2 ^ 10) key = 1023 } = 2 ^ 54 :=
  ⟨rfl, bijective_and_balanced.2.2 10 (by decide) 1023 (by decide)⟩

end ChangeFeed.KeyHash
