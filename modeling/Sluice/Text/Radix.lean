/-
  File:      Sluice/Text/Radix.lean
  Subject:   Reading numbers of 64 bits from texts, without ever wrapping.

  * `mul?`, `add?`: 64-bit arithmetic that gives nothing instead of wrapping;
  * `digit?`: the value of an ASCII digit in a radix;
  * `parse?`: a whole text as a number; `decimal?` and `hex?` are its two uses;
  * `value`: the number a digit text stands for, by position, without any bound.
-/
import Sluice.Text.Fold

namespace Sluice.Radix

/-! ## 1. Checked words -/

/-- The product, if it fits. -/
def mul? (a b : UInt64) : Option UInt64 :=
  if a.toNat * b.toNat < UInt64.size then some (a * b) else none

/-- The sum, if it fits. -/
def add? (a b : UInt64) : Option UInt64 :=
  if a.toNat + b.toNat < UInt64.size then some (a + b) else none

theorem mul?_eq_some {a b c : UInt64} (h : mul? a b = some c) : c.toNat = a.toNat * b.toNat := by
  unfold mul? at h
  split at h
  · cases h
    rw [UInt64.toNat_mul, Nat.mod_eq_of_lt ‹_›]
  · cases h

theorem add?_eq_some {a b c : UInt64} (h : add? a b = some c) : c.toNat = a.toNat + b.toNat := by
  unfold add? at h
  split at h
  · cases h
    rw [UInt64.toNat_add, Nat.mod_eq_of_lt ‹_›]
  · cases h

/-! ## 2. Digits and numbers -/

/-- The value of an ASCII digit or letter, the letters of either case counting on from ten, if it
    is below the radix. No other character is a digit. -/
def digit? (radix : Nat) (c : Char) : Option Nat :=
  let n := c.toNat
  let v :=
    if 48 ≤ n && n ≤ 57 then n - 48
    else if 97 ≤ n && n ≤ 122 then n - 87
    else if 65 ≤ n && n ≤ 90 then n - 55
    else radix
  if v < radix then some v else none

/-- One more digit behind what was read. -/
def push? (radix : Nat) (v : UInt64) (c : Char) : Option UInt64 :=
  match digit? radix c with
  | none => none
  | some d =>
    match mul? v (UInt64.ofNat radix) with
    | none => none
    | some w => add? w (UInt64.ofNat d)

/-- The digits of a text, read behind `v`. -/
def parseFrom? (radix : Nat) (v : UInt64) : Text → Option UInt64
  | [] => some v
  | c :: cs =>
    match push? radix v c with
    | none => none
    | some w => parseFrom? radix w cs

/-- A whole text as a number: nothing for the empty text, for any character that is no digit, and
    for a value of 2 to the 64th or more. -/
def parse? (radix : Nat) : Text → Option UInt64
  | [] => none
  | t => parseFrom? radix 0 t

/-- The text read in radix ten. -/
def decimal? (t : Text) : Option UInt64 := parse? 10 t

/-- The text read in radix sixteen. -/
def hex? (t : Text) : Option UInt64 := parse? 16 t

/-- The number a text of digits stands for, most significant digit first. -/
def value (radix : Nat) (t : Text) : Nat :=
  t.foldl (fun v c => v * radix + (digit? radix c).getD 0) 0

@[simp] theorem parse?_nil (radix : Nat) : parse? radix [] = none := rfl

end Sluice.Radix
