/-
  File:      Sluice/Pool/Geometry.lean
  Subject:   The size of a slot table, the slots an address may use, and the packed top word.

  * `Geometry.ofCapacity`: the table for a capacity, or why there is none;
  * `slotOf`, `below`: the first slot tried for an address, and the one tried next;
  * `Top`: a version and a slot number in one 64-bit word, slot 0 meaning "none".
-/
namespace Sluice.Pool

/-- A capacity no pool can have. -/
inductive PoolError where
  | zeroCapacity (capacity : Nat)
  | tooLargeCapacity (capacity max : Nat)
  deriving DecidableEq, Repr

/-- The error in words. -/
def PoolError.message : PoolError → String
  | .zeroCapacity capacity => s!"pool capacity should be positive but it is {capacity}"
  | .tooLargeCapacity capacity max =>
    s!"pool capacity should be less or equal to {max} but it is {capacity}"

/-! ## 1. The table -/

/-- Slots per instance of capacity. -/
def slotsPerInstance : Nat := 4

/-- Slots tried for one instance before it is given up. -/
def attempts : Nat := 8

/-- The fractional part of the golden ratio in 32 bits: it spreads consecutive addresses. -/
def goldenRatio : UInt32 := 0x9E3779B9

/-- The largest capacity. -/
def maxCapacity : Nat := 2147483647 / slotsPerInstance

/-- The least power of two that is not below a number. -/
def nextPowerOfTwo (n : Nat) : Nat := if n ≤ 1 then 1 else 1 <<< ((n - 1).log2 + 1)

/-- The leading zero bits of a positive number in a 32-bit word. -/
def leadingZeros (n : Nat) : Nat := 31 - n.log2

/-- The shape of a slot table: how many instances it is meant for, its last slot (a power of two)
    and how far the hash of an address is shifted down. -/
structure Geometry where
  capacity : Nat
  maxIndex : Nat
  shift : Nat
  deriving DecidableEq, Repr

namespace Geometry

/-- The table for a capacity that is positive and not too large. -/
def ofCapacity (capacity : Nat) : Except PoolError Geometry :=
  if capacity = 0 then .error (.zeroCapacity capacity)
  else if maxCapacity < capacity then .error (.tooLargeCapacity capacity maxCapacity)
  else
    let maxIndex := nextPowerOfTwo (capacity * slotsPerInstance)
    .ok ⟨capacity, maxIndex, leadingZeros maxIndex + 1⟩

/-- The first slot tried for an instance at an address: the low half of the address, spread by the
    golden ratio, its top bits counted from slot 1. -/
def slotOf (g : Geometry) (address : UInt64) : Nat :=
  ((address.toUInt32 * goldenRatio) >>> UInt32.ofNat g.shift).toNat + 1

/-- The slot tried after `i`: the one below, and the last one after the first. -/
def below (g : Geometry) (i : Nat) : Nat := if i - 1 = 0 then g.maxIndex else i - 1

end Geometry

/-! ## 2. The top word -/

namespace Top

/-- A version in the high half, a slot in the low half. -/
def pack (version slot : Nat) : UInt64 := UInt64.ofNat (version * UInt32.size + slot)

/-- The version. -/
def version (top : UInt64) : Nat := (top >>> 32).toNat

/-- The slot at the head of the chain, 0 if the chain is empty. -/
def slot (top : UInt64) : Nat := (top &&& 0xFFFFFFFF).toNat

/-- The version of the word that replaces `top`: one more, modulo 2 to the 32nd. -/
def nextVersion (top : UInt64) : Nat := (((top >>> 32) + 1) &&& 0xFFFFFFFF).toNat

end Top

end Sluice.Pool
