/-
  File:      Sluice/Proofs/Pool/Sizing.lean
  Subject:   A slot table is sized with machine words, and none of them overflows.

  Sizes are numbers elsewhere. Here they are words of some width, a product or a sum that takes more
  bits is no result, and powers of two come from leading zeros and shifts.

  * `product?`, `sum?`, `nextPowerOfTwo?`: what words come to, if it is a word;
  * `clz_ofNat`, `allOnes_ushiftRight_clz`: the zeros before a number, and the ones after them;
  * **`nextPowerOfTwo?_ofNat`**: the next power of two is found where it is a word;
  * `Geometry.ofWord?`: a table sized with words;
  * **`ofWord?_eq`**: with words of 32 bits or more, every capacity that has a table has the same one.
-/
import Sluice.Proofs.Pool.Geometry

namespace Sluice.Pool

/-! ## 1. Words that may overflow -/

section Words

variable {w m n : Nat}

/-- The product of two words, nothing if it takes more bits. -/
def product? (a b : BitVec w) : Option (BitVec w) :=
  if a.umulOverflow b then none else some (a * b)

/-- The sum of two words, nothing if it takes more bits. -/
def sum? (a b : BitVec w) : Option (BitVec w) :=
  if a.uaddOverflow b then none else some (a + b)

/-- The least power of two that is not below a word, nothing if it takes more bits: one more than all
    the bits that the number before needs. -/
def nextPowerOfTwo? (a : BitVec w) : Option (BitVec w) :=
  sum? (if a ≤ 1 then 0 else BitVec.allOnes w >>> (a - 1).clz) 1

theorem toNat_ofNat_of_lt (h : n < 2 ^ w) : (BitVec.ofNat w n).toNat = n := by
  rw [BitVec.toNat_ofNat, Nat.mod_eq_of_lt h]

theorem product?_ofNat (h : m * n < 2 ^ w) :
    product? (BitVec.ofNat w m) (BitVec.ofNat w n) = some (BitVec.ofNat w (m * n)) := by
  have hle : (BitVec.ofNat w m).toNat * (BitVec.ofNat w n).toNat ≤ m * n :=
    Nat.mul_le_mul (Nat.mod_le m _) (Nat.mod_le n _)
  have hfits : (BitVec.ofNat w m).umulOverflow (BitVec.ofNat w n) = false :=
    decide_eq_false (Nat.not_le.mpr (hle.trans_lt h))
  rw [product?, hfits, BitVec.ofNat_mul]
  rfl

theorem sum?_ofNat (h : m + n < 2 ^ w) :
    sum? (BitVec.ofNat w m) (BitVec.ofNat w n) = some (BitVec.ofNat w (m + n)) := by
  have hle : (BitVec.ofNat w m).toNat + (BitVec.ofNat w n).toNat ≤ m + n :=
    Nat.add_le_add (Nat.mod_le m _) (Nat.mod_le n _)
  have hfits : (BitVec.ofNat w m).uaddOverflow (BitVec.ofNat w n) = false :=
    decide_eq_false (Nat.not_le.mpr (hle.trans_lt h))
  rw [sum?, hfits, BitVec.ofNat_add]
  rfl

/-- **The zeros before a number**, and the bits it needs, make up the word. -/
theorem clz_ofNat (hn : n ≠ 0) (h : n < 2 ^ w) :
    (BitVec.ofNat w n).clz.toNat + (n.log2 + 1) = w := by
  have hto : (BitVec.ofNat w n).toNat = n := toNat_ofNat_of_lt h
  have hne : BitVec.ofNat w n ≠ 0#w := by
    intro hzero
    rw [← hto, hzero] at hn
    exact hn rfl
  have hhigh := BitVec.toNat_lt_two_pow_sub_clz (x := BitVec.ofNat w n)
  rw [hto] at hhigh
  have hsome : 0 < w - (BitVec.ofNat w n).clz.toNat := by
    refine Nat.pos_of_ne_zero fun hnone => hn ?_
    rw [hnone] at hhigh
    exact Nat.lt_one_iff.mp hhigh
  have hlow := BitVec.two_pow_sub_clz_le_toNat_of_ne_zero (by omega) hne
  rw [hto, Nat.sub_right_comm] at hlow
  have hlog : n.log2 = w - (BitVec.ofNat w n).clz.toNat - 1 := by
    rw [Nat.log2_eq_iff hn, Nat.sub_add_cancel hsome]
    exact ⟨hlow, hhigh⟩
  omega

theorem clz_eq_leadingZeros (hn : n ≠ 0) (h : n < 2 ^ 32) :
    (BitVec.ofNat 32 n).clz = BitVec.ofNat 32 (leadingZeros n) := by
  have hbits := clz_ofNat hn h
  apply BitVec.eq_of_toNat_eq
  rw [leadingZeros, toNat_ofNat_of_lt (by omega)]
  omega

/-- The ones that are left after these zeros are the greatest number of as many bits. -/
theorem allOnes_ushiftRight_clz (hn : n ≠ 0) (h : n < 2 ^ w) :
    BitVec.allOnes w >>> (BitVec.ofNat w n).clz = BitVec.ofNat w (2 ^ (n.log2 + 1) - 1) := by
  have hbits := clz_ofNat hn h
  have hle : 2 ^ (n.log2 + 1) ≤ 2 ^ w := Nat.pow_le_pow_right Nat.two_pos (by omega)
  have hpos := Nat.two_pow_pos (n.log2 + 1)
  apply BitVec.eq_of_toNat_eq
  rw [BitVec.ushiftRight_eq', BitVec.toNat_ushiftRight, BitVec.toNat_allOnes,
    toNat_ofNat_of_lt (by omega), Nat.shiftRight_eq_div_pow]
  generalize (BitVec.ofNat w n).clz.toNat = z at hbits
  obtain rfl : w = n.log2 + 1 + z := by omega
  have hdiv := Nat.mul_sub_div 0 (2 ^ z) (2 ^ (n.log2 + 1)) (Nat.mul_pos (Nat.two_pow_pos z) hpos)
  rwa [Nat.zero_div, Nat.zero_add, Nat.mul_comm, ← Nat.pow_add] at hdiv

/-- **The next power of two** is found where it is a word. -/
theorem nextPowerOfTwo?_ofNat (h : nextPowerOfTwo n < 2 ^ w) :
    nextPowerOfTwo? (BitVec.ofNat w n) = some (BitVec.ofNat w (nextPowerOfTwo n)) := by
  unfold nextPowerOfTwo?
  by_cases hn : n ≤ 1
  · have hone : nextPowerOfTwo n = 1 := if_pos hn
    rw [hone] at h ⊢
    have hle : BitVec.ofNat w n ≤ 1 := by
      rw [BitVec.le_def, toNat_ofNat_of_lt (hn.trans_lt h)]
      exact hn.trans_eq (toNat_ofNat_of_lt h).symm
    rw [if_pos hle]
    exact sum?_ofNat h
  · have htwo : 2 ≤ n := by omega
    have hlt : n < 2 ^ w := (le_nextPowerOfTwo htwo).trans_lt h
    have hone : (1 : BitVec w).toNat = 1 := toNat_ofNat_of_lt (htwo.trans hlt.le)
    have hgt : ¬ BitVec.ofNat w n ≤ 1 := by
      rwa [BitVec.le_def, toNat_ofNat_of_lt hlt, hone]
    have hpred : BitVec.ofNat w n - 1 = BitVec.ofNat w (n - 1) :=
      BitVec.ofNat_sub_ofNat_of_le n 1 (htwo.trans hlt.le) (by omega)
    rw [nextPowerOfTwo_eq htwo] at h ⊢
    have hsum : 2 ^ ((n - 1).log2 + 1) - 1 + 1 = 2 ^ ((n - 1).log2 + 1) :=
      Nat.sub_add_cancel (Nat.two_pow_pos _)
    rw [if_neg hgt, hpred, allOnes_ushiftRight_clz (by omega) (by omega)]
    exact (sum?_ofNat (hsum.trans_lt h)).trans (by rw [hsum])

end Words

/-! ## 2. Tables -/

namespace Geometry

variable {g : Geometry} {capacity w : Nat}

/-- The table for a capacity, sized with words of its width. Its last slot is cut down to 32 bits
    before the zeros in front of it are counted. -/
def ofWord? (capacity : BitVec w) : Option Geometry := do
  let slots ← product? capacity (BitVec.ofNat w slotsPerInstance)
  let maxIndex ← nextPowerOfTwo? slots
  let shift ← sum? (maxIndex.setWidth 32).clz 1
  return ⟨capacity.toNat, maxIndex.toNat, shift.toNat⟩

/-- **No word overflows** when a table is sized, if there are 32 bits or more in it. -/
theorem ofWord?_eq (h : ofCapacity capacity = .ok g) (hw : 32 ≤ w) :
    ofWord? (BitVec.ofNat w capacity) = some g := by
  obtain ⟨⟨k, hsized⟩, -⟩ := sized_ofCapacity h
  obtain ⟨⟨-, hmax⟩, rfl⟩ := ofCapacity_eq_ok_iff.mp h
  have hpow : nextPowerOfTwo (capacity * slotsPerInstance) = 2 ^ k := hsized.maxIndex
  have hcapacity : capacity ≤ 536870911 := hmax
  have hslots : capacity * slotsPerInstance < 2 ^ 32 := by
    show capacity * 4 < 2 ^ 32
    omega
  have hlast : 2 ^ k < 2 ^ 32 := Nat.pow_lt_pow_right (by decide) (Nat.lt_succ_of_le hsized.le)
  have hword : 2 ^ 32 ≤ 2 ^ w := Nat.pow_le_pow_right Nat.two_pos hw
  have hzeros : leadingZeros (2 ^ k) + 1 < 2 ^ 32 :=
    Nat.lt_of_le_of_lt (Nat.succ_le_succ (Nat.sub_le 31 _)) (by decide)
  have hproduct : product? (BitVec.ofNat w capacity) (BitVec.ofNat w slotsPerInstance) =
      some (BitVec.ofNat w (capacity * slotsPerInstance)) :=
    product?_ofNat (hslots.trans_le hword)
  have hpower : nextPowerOfTwo? (BitVec.ofNat w (capacity * slotsPerInstance)) =
      some (BitVec.ofNat w (2 ^ k)) := by
    rw [nextPowerOfTwo?_ofNat (by omega), hpow]
  have hshift : sum? (BitVec.ofNat 32 (2 ^ k)).clz 1 =
      some (BitVec.ofNat 32 (leadingZeros (2 ^ k) + 1)) := by
    rw [clz_eq_leadingZeros (Nat.two_pow_pos k).ne' hlast]
    exact sum?_ofNat hzeros
  simp only [ofWord?, hproduct, hpower, hshift, BitVec.setWidth_ofNat_of_le hw, Option.bind_eq_bind,
    Option.bind_some, Option.pure_def]
  rw [hpow, toNat_ofNat_of_lt (show capacity < 2 ^ w by omega),
    toNat_ofNat_of_lt (hlast.trans_le hword), toNat_ofNat_of_lt hzeros]

end Geometry

end Sluice.Pool
