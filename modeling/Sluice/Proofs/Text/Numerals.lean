/-
  File:      Sluice/Proofs/Text/Numerals.lean
  Subject:   Numbers are read exactly.

  What a text of digits stands for is said here without the machine that reads it: a digit by its
  place among the numerals, a number by the powers of its radix.

  * `IsNumeral`, `place`, `number`: digits, and the number that a text of them stands for;
  * `digit?_eq`: the digits that are read are these;
  * `value_eq_number`, `toNat_of_parseFrom?`: reading on from digit to digit counts in these powers;
  * `parse?_eq_some_iff`, `parse?_zeros`: which texts are read as a number, and as which;
  * **`reads_numbers`**: every view is read as the number of its text, if it has one below 2 to the
    64th, and nothing wraps on the way.
-/
import Mathlib.Data.List.Induction
import Mathlib.Data.Nat.Digits.Defs
import Sluice.Proofs.Text.Digits

namespace Sluice.Radix

variable {radix d : Nat} {c : Char} {t u : Text} {v w : UInt64}

/-! ## 1. Digits and what they stand for -/

/-- The digits in order, letters behind the others. -/
def numerals : Text := "0123456789abcdef".toList

/-- One of the first numerals, as many as the radix says; a letter may be a capital. -/
def IsNumeral (radix : Nat) (c : Char) : Prop := c.toLower ∈ numerals.take radix

instance (radix : Nat) (c : Char) : Decidable (IsNumeral radix c) :=
  inferInstanceAs (Decidable (c.toLower ∈ numerals.take radix))

/-- The place of a digit among the numerals. -/
def place (c : Char) : Nat := numerals.idxOf c.toLower

/-- The number that a text of digits stands for, the last digit counting once, the one before it
    `radix` times, and so on. -/
def number (radix : Nat) (t : Text) : Nat := Nat.ofDigits radix (t.map place).reverse

theorem number_concat (radix : Nat) (t : Text) (c : Char) :
    number radix (t ++ [c]) = number radix t * radix + place c := by
  rw [number, List.map_append, List.reverse_append, List.map_singleton, List.reverse_singleton,
    List.singleton_append, Nat.ofDigits_cons, Nat.add_comm, Nat.mul_comm]
  rfl

/-- All digits are ASCII. -/
theorem IsNumeral.toNat_lt (h : IsNumeral radix c) : c.toNat < 128 := by
  have hall : numerals.all (·.toNat < 128) = true := by decide
  have hlower : c.toLower.toNat < 128 :=
    of_decide_eq_true (List.all_eq_true.mp hall _ (List.mem_of_mem_take h))
  by_cases hupper : c.val ≥ 'A'.val ∧ c.val ≤ 'Z'.val
  · exact Nat.lt_of_le_of_lt (UInt32.le_iff_toNat_le.mp hupper.2) (by decide)
  · have hsame : c.toLower = c := dif_neg hupper
    rwa [hsame] at hlower

/-- Signs, spaces and characters that are not ASCII are no digits. -/
theorem not_isNumeral_of_foreign (hradix : radix = 10 ∨ radix = 16)
    (h : c = '+' ∨ c = '-' ∨ c = ' ' ∨ 128 ≤ c.toNat) : ¬IsNumeral radix c := by
  rcases h with rfl | rfl | rfl | hlarge
  · rcases hradix with rfl | rfl <;> decide
  · rcases hradix with rfl | rfl <;> decide
  · rcases hradix with rfl | rfl <;> decide
  · exact fun h => Nat.not_lt_of_le hlarge h.toNat_lt

theorem digit?_of_large (h : 128 ≤ c.toNat) : digit? radix c = none := by
  have hdigit : ¬(48 ≤ c.toNat ∧ c.toNat ≤ 57) := by omega
  have hsmall : ¬(97 ≤ c.toNat ∧ c.toNat ≤ 122) := by omega
  have hcapital : ¬(65 ≤ c.toNat ∧ c.toNat ≤ 90) := by omega
  simp only [digit?, Bool.and_eq_true, decide_eq_true_eq, hdigit, hsmall, hcapital, if_false,
    Nat.lt_irrefl]

/-- **What is read as a digit** is one, and its value is its place. -/
theorem digit?_eq (hradix : radix = 10 ∨ radix = 16) (c : Char) :
    digit? radix c = if IsNumeral radix c then some (place c) else none := by
  by_cases hlarge : 128 ≤ c.toNat
  · rw [digit?_of_large hlarge, if_neg fun h => Nat.not_lt_of_le hlarge h.toNat_lt]
  · -- the characters that are left are few
    have hten : ∀ n < 128, digit? 10 (Char.ofNat n) =
        if IsNumeral 10 (Char.ofNat n) then some (place (Char.ofNat n)) else none := by
      decide +kernel
    have hsixteen : ∀ n < 128, digit? 16 (Char.ofNat n) =
        if IsNumeral 16 (Char.ofNat n) then some (place (Char.ofNat n)) else none := by
      decide +kernel
    rw [← Char.ofNat_toNat c]
    rcases hradix with rfl | rfl
    · exact hten _ (Nat.lt_of_not_le hlarge)
    · exact hsixteen _ (Nat.lt_of_not_le hlarge)

theorem isSome_digit?_iff (hradix : radix = 10 ∨ radix = 16) :
    (digit? radix c).isSome = true ↔ IsNumeral radix c := by
  rw [digit?_eq hradix]
  by_cases hc : IsNumeral radix c
  · rw [if_pos hc]
    exact iff_of_true rfl hc
  · rw [if_neg hc]
    exact iff_of_false Bool.false_ne_true hc

/-! ## 2. Reading on -/

/-- Counting from digit to digit comes to the powers of the radix. -/
theorem value_eq_number (hradix : radix = 10 ∨ radix = 16) (h : ∀ c ∈ t, IsNumeral radix c) :
    value radix t = number radix t := by
  induction t using List.reverseRecOn with
  | nil => rfl
  | append_singleton t c ih =>
    have hfront := ih fun x hx => h x (List.mem_append_left _ hx)
    have hc := h c (List.mem_append_right _ List.mem_cons_self)
    rw [number_concat, ← hfront, value, List.foldl_append, List.foldl_cons, List.foldl_nil,
      digit?_eq hradix, if_pos hc, Option.getD_some]
    rfl

theorem size_of_radix (hradix : radix = 10 ∨ radix = 16) : 0 < radix ∧ radix < UInt64.size := by
  rcases hradix with rfl | rfl <;> decide

/-- **A text is read as a number** if it is one that has 64 bits, and as this one. -/
theorem parse?_eq_some_iff (hradix : radix = 10 ∨ radix = 16) : parse? radix t = some w ↔
    t ≠ [] ∧ (∀ c ∈ t, IsNumeral radix c) ∧ number radix t < 2 ^ 64 ∧
      w.toNat = number radix t := by
  obtain ⟨hpos, hword⟩ := size_of_radix hradix
  constructor
  · intro h
    obtain ⟨hne, hdigits, hvalue⟩ := digits_of_parse? hword h
    have hnumerals := fun c hc => (isSome_digit?_iff hradix).mp (hdigits c hc)
    rw [value_eq_number hradix hnumerals] at hvalue
    exact ⟨hne, hnumerals, hvalue ▸ w.toNat_lt, hvalue⟩
  · rintro ⟨hne, hnumerals, hlt, hw⟩
    have hdigits := fun c hc => (isSome_digit?_iff hradix).mpr (hnumerals c hc)
    rw [← value_eq_number hradix hnumerals] at hlt hw
    obtain ⟨u, hu, hvalue⟩ := parse?_eq hpos hword hne hdigits hlt
    rw [hu, UInt64.toNat_inj.mp (hw.trans hvalue.symm)]

/-- What is read so far is the number of the digits so far. -/
theorem toNat_of_parseFrom? (hradix : radix = 10 ∨ radix = 16) (h : parseFrom? radix 0 t = some v) :
    v.toNat = number radix t := by
  obtain ⟨hdigits, hvalue⟩ := digits_of_parseFrom? (size_of_radix hradix).2 h
  rw [← value_eq_number hradix fun c hc => (isSome_digit?_iff hradix).mp (hdigits c hc)]
  exact hvalue

/-- Zeros in front change nothing. -/
theorem parse?_zeros (hradix : radix = 10 ∨ radix = 16) (hu : u ≠ []) (n : Nat) :
    parse? radix (List.replicate n '0' ++ u) = parse? radix u := by
  have hpush : push? radix 0 '0' = some 0 := by
    rcases hradix with rfl | rfl <;> decide
  have hskip : parseFrom? radix 0 (List.replicate n '0' ++ u) = parseFrom? radix 0 u := by
    induction n with
    | zero => rfl
    | succ n ih =>
      rw [List.replicate_succ, List.cons_append, parseFrom?, hpush]
      exact ih
  obtain ⟨c, u, rfl⟩ := List.exists_cons_of_ne_nil hu
  cases n with
  | zero => rfl
  | succ n => exact hskip

/-- **Nothing wraps on the way through a text**: neither what is read before a digit, nor this times
    the radix, nor the digit added to it. -/
def Exact (radix : Nat) (t : Text) : Prop :=
  ∀ before c after v, t = before ++ c :: after → parseFrom? radix 0 before = some v →
    v.toNat = number radix before ∧
      ∀ p, mul? v (UInt64.ofNat radix) = some p → p.toNat = number radix before * radix ∧
        ∀ d s, digit? radix c = some d → add? p (UInt64.ofNat d) = some s →
          s.toNat = number radix (before ++ [c])

theorem exact_of_radix (hradix : radix = 10 ∨ radix = 16) (t : Text) : Exact radix t := by
  intro before c after v _ hbefore
  have hword := (size_of_radix hradix).2
  have hv := toNat_of_parseFrom? hradix hbefore
  refine ⟨hv, fun p hp => ?_⟩
  have hproduct : p.toNat = number radix before * radix := by
    rw [mul?_eq_some hp, hv, UInt64.toNat_ofNat_of_lt' hword]
  refine ⟨hproduct, fun d s hd hs => ?_⟩
  have hdigit := UInt64.toNat_ofNat_of_lt' (Nat.lt_trans (digit?_lt hd) hword)
  rw [digit?_eq hradix] at hd
  obtain ⟨-, hplace⟩ := Option.ite_none_right_eq_some.mp hd
  rw [add?_eq_some hs, hproduct, hdigit, number_concat, Option.some.inj hplace]

/-! ## 3. Views -/

/-- **What is read from a text** in a radix. -/
structure ReadsNumber (radix : Nat) (t : Text) (read : Option UInt64) : Prop where
  read_iff : ∀ w, read = some w ↔ t ≠ [] ∧ (∀ c ∈ t, IsNumeral radix c) ∧
    number radix t < 2 ^ 64 ∧ w.toNat = number radix t
  zeros : ∀ n u, t = List.replicate n '0' ++ u → u ≠ [] → read = parse? radix u
  foreign : ∀ c ∈ t, (c = '+' ∨ c = '-' ∨ c = ' ' ∨ 128 ≤ c.toNat) → read = none
  tooLarge : 2 ^ 64 ≤ number radix t → read = none
  exact : Exact radix t

theorem readsNumber_parse? (hradix : radix = 10 ∨ radix = 16) (t : Text) :
    ReadsNumber radix t (parse? radix t) where
  read_iff w := parse?_eq_some_iff hradix
  zeros n u ht hu := by rw [ht, parse?_zeros hradix hu]
  foreign c hc hforeign := Option.eq_none_iff_forall_ne_some.mpr fun w hw =>
    not_isNumeral_of_foreign hradix hforeign (((parse?_eq_some_iff hradix).mp hw).2.1 c hc)
  tooLarge hlarge := Option.eq_none_iff_forall_ne_some.mpr fun w hw =>
    Nat.not_lt_of_le hlarge ((parse?_eq_some_iff hradix).mp hw).2.2.1
  exact := exact_of_radix hradix t

end Sluice.Radix

namespace Sluice.TextView

open Radix (ReadsNumber)

/-- **Numbers are read exactly**, whether a view is a literal or a range: they are the texts of
    digits that stand for less than 2 to the 64th, with any number of zeros in front, and nothing
    wraps where they are read. -/
theorem reads_numbers (v : TextView) :
    ReadsNumber 10 v.toText v.decimal? ∧ ReadsNumber 16 v.toText v.hex? := by
  rw [decimal?_eq, hex?_eq]
  exact ⟨Radix.readsNumber_parse? (.inl rfl) _, Radix.readsNumber_parse? (.inr rfl) _⟩

/-- The largest number that is read, behind a zero, and the smallest one that is not. -/
example : (literal "0FFFFffffFFFFffff".toList).hex? = some 18446744073709551615 ∧
    (literal "10000000000000000".toList).hex? = none := by
  decide

end Sluice.TextView
