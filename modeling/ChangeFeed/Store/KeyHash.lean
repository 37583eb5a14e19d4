/-!
# Hashing keys

A key's 64-bit word is mixed by shifts to the right and multiplications by odd constants, each of
which loses nothing, and reduced to a partition number by the remainder.
-/

namespace ChangeFeed.KeyHash

/-- Folds the upper half of a word into the lower half. -/
def fold (k : UInt64) : UInt64 :=
  k ^^^ (k >>> 33)

/-- The factor of the first multiplication. -/
def firstFactor : UInt64 :=
  0xff51afd7ed558ccd

/-- The factor of the second multiplication. -/
def secondFactor : UInt64 :=
  0xc4ceb9fe1a85ec53

/-- Mixes the bits of a word. -/
def mix (k : UInt64) : UInt64 :=
  fold (fold (fold k * firstFactor) * secondFactor)

/-- The partition that a key alone decides on. -/
def partition (partitions : Nat) (key : Int64) : Nat :=
  (mix key.toUInt64).toNat % partitions

/-- A partition number is below the number of partitions. -/
theorem partition_lt {partitions : Nat} (h : 0 < partitions) (key : Int64) :
    partition partitions key < partitions :=
  Nat.mod_lt _ h

end ChangeFeed.KeyHash
