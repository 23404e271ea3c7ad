/-
  File:      Sluice/Proofs/Pool/Geometry.lean
  Subject:   The slots of a table, and the words that name them.

  * `nextPowerOfTwo_eq`, `le_nextPowerOfTwo`, `nextPowerOfTwo_le`: the least power of two that is not
    below a number;
  * `ofCapacity_eq_ok_iff`: which capacities have a table;
  * `Geometry.Sized`: a table of a power of two of slots, with the shift that leaves as many hash
    bits as a slot number has;
  * **`sized_ofCapacity`**: the table for a capacity, and how many slots it has;
  * `slotOf_inside`, `below_inside`: every slot that is tried is one of the table;
  * `slot_pack`, `version_pack`: what was packed into a top word comes out of it;
  * `nextVersion_eq`, `pack_nextVersion`: versions follow one another modulo 2 to the 32nd.
-/
import Mathlib.Algebra.Order.Ring.Nat
import Mathlib.Data.Nat.Log
import Sluice.Pool.Geometry

namespace Sluice.Pool

/-! ## 1. The table -/

theorem nextPowerOfTwo_eq {n : Nat} (hn : 2 ≤ n) : nextPowerOfTwo n = 2 ^ ((n - 1).log2 + 1) := by
  rw [nextPowerOfTwo, if_neg (by omega), Nat.one_shiftLeft]

theorem le_nextPowerOfTwo {n : Nat} (hn : 2 ≤ n) : n ≤ nextPowerOfTwo n := by
  have := Nat.lt_log2_self (n := n - 1)
  rw [nextPowerOfTwo_eq hn]
  omega

theorem nextPowerOfTwo_lt {n : Nat} (hn : 2 ≤ n) : nextPowerOfTwo n < 2 * n := by
  have := Nat.log2_self_le (show n - 1 ≠ 0 by omega)
  rw [nextPowerOfTwo_eq hn, Nat.pow_succ]
  omega

theorem nextPowerOfTwo_le {n k : Nat} (hn : 2 ≤ n) (h : n ≤ 2 ^ k) : nextPowerOfTwo n ≤ 2 ^ k := by
  rw [nextPowerOfTwo_eq hn]
  refine Nat.pow_le_pow_right Nat.two_pos ?_
  exact (Nat.log2_lt (by omega)).mpr (by omega)

namespace Geometry

/-- A table of `2 ^ k` slots, and a shift that leaves `k` bits of a hash. -/
structure Sized (g : Geometry) (k : Nat) : Prop where
  two_le : 2 ≤ k
  le : k ≤ 31
  maxIndex : g.maxIndex = 2 ^ k
  shift : g.shift = 32 - k

/-- A slot of the table. Slot 0 is none of them. -/
def Inside (g : Geometry) (i : Nat) : Prop := 1 ≤ i ∧ i ≤ g.maxIndex

variable {g : Geometry} {k capacity i : Nat}

/-- Which capacities have a table, and which one. -/
theorem ofCapacity_eq_ok_iff : ofCapacity capacity = .ok g ↔
    (1 ≤ capacity ∧ capacity ≤ maxCapacity) ∧
      g = ⟨capacity, nextPowerOfTwo (capacity * slotsPerInstance),
        leadingZeros (nextPowerOfTwo (capacity * slotsPerInstance)) + 1⟩ := by
  unfold ofCapacity
  by_cases hzero : capacity = 0
  · rw [if_pos hzero]
    exact iff_of_false nofun fun h => absurd h.1.1 (by omega)
  · by_cases hlarge : maxCapacity < capacity
    · rw [if_neg hzero, if_pos hlarge]
      exact iff_of_false nofun fun h => absurd h.1.2 (Nat.not_le.mpr hlarge)
    · rw [if_neg hzero, if_neg hlarge, Except.ok.injEq, eq_comm]
      exact (and_iff_right ⟨Nat.pos_of_ne_zero hzero, Nat.le_of_not_lt hlarge⟩).symm

/-- **The table for a capacity**: at least four slots for each instance, and less than eight. -/
theorem sized_ofCapacity (h : ofCapacity capacity = .ok g) :
    (∃ k, g.Sized k) ∧ g.capacity = capacity ∧ 4 * capacity ≤ g.maxIndex ∧
      g.maxIndex < 8 * capacity := by
  obtain ⟨⟨hlow, hhigh⟩, rfl⟩ := ofCapacity_eq_ok_iff.mp h
  have hmax : capacity ≤ 536870911 := hhigh
  have hslots : capacity * slotsPerInstance = 4 * capacity := Nat.mul_comm ..
  rw [hslots]
  have htwo : 2 ≤ 4 * capacity := by omega
  have hle := le_nextPowerOfTwo htwo
  have hlt := nextPowerOfTwo_lt htwo
  obtain ⟨k, hk⟩ : ∃ k, nextPowerOfTwo (4 * capacity) = 2 ^ k := ⟨_, nextPowerOfTwo_eq htwo⟩
  rw [hk] at hle hlt ⊢
  have hbits : k < 32 :=
    (Nat.pow_lt_pow_iff_right (a := 2) (by decide)).mp (by omega)
  refine ⟨⟨k, ?_, by omega, rfl, ?_⟩, rfl, hle, hlt.trans_eq (by omega)⟩
  · by_contra hfew
    have := Nat.pow_le_pow_right (n := 2) Nat.two_pos (show k ≤ 1 by omega)
    omega
  · show leadingZeros (2 ^ k) + 1 = 32 - k
    rw [leadingZeros, Nat.log2_two_pow]
    omega

/-- The last slot is the least power of two that leaves four slots for each instance. -/
theorem maxIndex_le (h : ofCapacity capacity = .ok g) (hk : capacity * slotsPerInstance ≤ 2 ^ k) :
    g.maxIndex ≤ 2 ^ k := by
  obtain ⟨⟨hlow, -⟩, rfl⟩ := ofCapacity_eq_ok_iff.mp h
  have htwo : 2 ≤ capacity * slotsPerInstance := by
    show 2 ≤ capacity * 4
    omega
  exact nextPowerOfTwo_le htwo hk

/-- A hash of 32 bits is shifted by less than its width, and two bits of it or more are left. -/
theorem shift_range (h : g.Sized k) : 1 ≤ g.shift ∧ g.shift ≤ 30 := by
  have hlow := h.two_le
  have hhigh := h.le
  rw [h.shift]
  omega

/-- **The first slot tried** is one of the table, whatever the address. -/
theorem slotOf_inside (h : g.Sized k) (address : UInt64) : g.Inside (g.slotOf address) := by
  have hk := h.le
  have hshift : (UInt32.ofNat g.shift).toNat % 32 = 32 - k := by
    have := h.two_le
    rw [UInt32.toNat_ofNat', h.shift]
    omega
  refine ⟨Nat.succ_pos _, ?_⟩
  rw [slotOf, h.maxIndex, UInt32.toNat_shiftRight, hshift, Nat.shiftRight_eq_div_pow]
  refine Nat.div_lt_of_lt_mul ?_
  rw [← Nat.pow_add, Nat.sub_add_cancel (by omega)]
  exact UInt32.toNat_lt _

/-- The slot tried next is one of the table, too. -/
theorem below_inside (h : g.Sized k) (hi : g.Inside i) : g.Inside (g.below i) := by
  obtain ⟨hlow, hhigh⟩ := hi
  have hpos : 1 ≤ g.maxIndex := h.maxIndex ▸ Nat.one_le_two_pow
  unfold below
  split
  · exact ⟨hpos, Nat.le_refl _⟩
  · exact ⟨by omega, by omega⟩

/-- Every slot number fits into half a top word. -/
theorem lt_size_of_inside (h : g.Sized k) (hi : g.Inside i) : i < UInt32.size := by
  have hk := h.le
  have := Nat.pow_le_pow_right (n := 2) Nat.two_pos hk
  have hmax := h.maxIndex
  have := hi.2
  show i < 4294967296
  omega

end Geometry

/-! ## 2. The top word -/

namespace Top

variable {v i : Nat}

theorem version_eq (top : UInt64) : version top = top.toNat / UInt32.size := by
  have hshift : (32 : UInt64).toNat % 64 = 32 := by decide
  rw [version, UInt64.toNat_shiftRight, hshift, Nat.shiftRight_eq_div_pow]

theorem slot_eq (top : UInt64) : slot top = top.toNat % UInt32.size := by
  have hmask : (0xFFFFFFFF : UInt64).toNat = 2 ^ 32 - 1 := by decide
  rw [slot, UInt64.toNat_and, hmask, Nat.and_two_pow_sub_one_eq_mod]

theorem slot_zero : slot 0 = 0 := by decide

theorem version_zero : version 0 = 0 := by decide

theorem version_lt (top : UInt64) : version top < UInt32.size := by
  rw [version_eq]
  exact Nat.div_lt_of_lt_mul (UInt64.toNat_lt top)

/-- **The version that follows** is one more, and 0 after the last one. -/
theorem nextVersion_eq (top : UInt64) : nextVersion top = (version top + 1) % UInt32.size := by
  have hmask : (0xFFFFFFFF : UInt64).toNat = 2 ^ 32 - 1 := by decide
  have hone : (1 : UInt64).toNat = 1 := by decide
  rw [nextVersion, UInt64.toNat_and, UInt64.toNat_add, hmask, hone, Nat.and_two_pow_sub_one_eq_mod,
    Nat.mod_mod_of_dvd _ (Nat.pow_dvd_pow 2 (by decide))]
  rfl

theorem nextVersion_lt (top : UInt64) : nextVersion top < UInt32.size := by
  rw [nextVersion_eq]
  exact Nat.mod_lt _ (by decide)

theorem toNat_pack (hv : v < UInt32.size) (hi : i < UInt32.size) :
    (pack v i).toNat = v * UInt32.size + i := by
  have hsize : UInt32.size = 4294967296 := rfl
  rw [hsize] at hv hi ⊢
  rw [pack, UInt64.toNat_ofNat', hsize, Nat.mod_eq_of_lt]
  omega

/-- **The slot** that was packed into a word. -/
theorem slot_pack (hv : v < UInt32.size) (hi : i < UInt32.size) : slot (pack v i) = i := by
  rw [slot_eq, toNat_pack hv hi, Nat.mul_comm, Nat.mul_add_mod, Nat.mod_eq_of_lt hi]

/-- **The version** that was packed into a word. -/
theorem version_pack (hv : v < UInt32.size) (hi : i < UInt32.size) : version (pack v i) = v := by
  have hpos : 0 < UInt32.size := by decide
  rw [version_eq, toNat_pack hv hi, Nat.mul_comm, Nat.mul_add_div hpos, Nat.div_eq_of_lt hi,
    Nat.add_zero]

/-- **The word that replaces another one** has the slot it is given, and the version that follows. -/
theorem pack_nextVersion (top : UInt64) (hi : i < UInt32.size) :
    slot (pack (nextVersion top) i) = i ∧
      version (pack (nextVersion top) i) = (version top + 1) % UInt32.size := by
  have hversion := nextVersion_lt top
  refine ⟨slot_pack hversion hi, ?_⟩
  rw [version_pack hversion hi, nextVersion_eq]

/-- A version and a slot are packed bit by bit, and no bit of one meets a bit of the other. -/
theorem pack_eq_or (hv : v < UInt32.size) (hi : i < UInt32.size) :
    pack v i = UInt64.ofNat v <<< 32 ||| UInt64.ofNat i := by
  have hshift : (32 : UInt64).toNat % 64 = 32 := by decide
  have hsize : UInt32.size = 2 ^ 32 := rfl
  have hdouble : UInt64.size = 2 ^ 64 := rfl
  rw [hsize] at hv hi
  have hhigh : (UInt64.ofNat v).toNat = v := UInt64.toNat_ofNat_of_lt' (by omega)
  have hlow : (UInt64.ofNat i).toNat = i := UInt64.toNat_ofNat_of_lt' (by omega)
  have hfits : v <<< 32 < 2 ^ 64 := by
    rw [Nat.shiftLeft_eq]
    omega
  apply UInt64.toNat_inj.mp
  rw [toNat_pack hv hi, UInt64.toNat_or, UInt64.toNat_shiftLeft, hshift, hhigh, hlow,
    Nat.mod_eq_of_lt hfits, ← Nat.shiftLeft_add_eq_or_of_lt hi, Nat.shiftLeft_eq, hsize]

end Top

end Sluice.Pool
