/-
  File:      Sluice/Proofs/Text/Digits.lean
  Subject:   Numbers are written and read in digits.

  * **`parse?_eq`**, `digits_of_parse?`: digit texts are read as the numbers they stand for, and
    nothing else is read as a number;
  * `value_eq_zero_iff`, `value_lt`: which of them stand for zero, and how large they get;
  * `digit?_of_isDigit`, **`value_toString`**: a number is written as a text of digits that stands for
    it;
  * `decimal?_eq`, `hex?_eq`: a view is read as its text is.
-/
import Sluice.Buffer.TextView

namespace Sluice.Radix

/-! ## 1. Reading -/

variable {radix : Nat} {t : Text}

theorem digit?_lt {c : Char} {d : Nat} (h : digit? radix c = some d) : d < radix := by
  unfold digit? at h
  dsimp only at h
  generalize (if (48 ≤ c.toNat && c.toNat ≤ 57) = true then c.toNat - 48 else _) = v at h
  split at h
  · cases h
    assumption
  · cases h

/-- Digits never make a number smaller. -/
theorem le_foldl (hradix : 0 < radix) (v : Nat) (t : Text) :
    v ≤ t.foldl (fun v c => v * radix + (digit? radix c).getD 0) v := by
  induction t generalizing v with
  | nil => exact Nat.le_refl v
  | cons c t ih =>
    refine Nat.le_trans ?_ (ih _)
    exact Nat.le_trans (Nat.le_mul_of_pos_right v hradix) (Nat.le_add_right ..)

/-- Digits behind a number, as long as the whole stays below 2 to the 64th. -/
theorem parseFrom?_eq (hradix : 0 < radix) (hword : radix < UInt64.size) {v : UInt64}
    (hdigits : ∀ c ∈ t, (digit? radix c).isSome)
    (hlt : t.foldl (fun v c => v * radix + (digit? radix c).getD 0) v.toNat < UInt64.size) :
    ∃ w, parseFrom? radix v t = some w ∧
      w.toNat = t.foldl (fun v c => v * radix + (digit? radix c).getD 0) v.toNat := by
  induction t generalizing v with
  | nil => exact ⟨v, rfl, rfl⟩
  | cons c t ih =>
    obtain ⟨d, hd⟩ := Option.isSome_iff_exists.mp (hdigits c List.mem_cons_self)
    have hradixWord : (UInt64.ofNat radix).toNat = radix := UInt64.toNat_ofNat_of_lt' hword
    have hdigitWord : (UInt64.ofNat d).toNat = d :=
      UInt64.toNat_ofNat_of_lt' (Nat.lt_trans (digit?_lt hd) hword)
    rw [List.foldl_cons, hd, Option.getD_some] at hlt ⊢
    have hsum : v.toNat * radix + d < UInt64.size := Nat.lt_of_le_of_lt (le_foldl hradix _ t) hlt
    have hproduct : v.toNat * radix < UInt64.size := Nat.lt_of_le_of_lt (Nat.le_add_right ..) hsum
    have hmul : mul? v (UInt64.ofNat radix) = some (v * UInt64.ofNat radix) := by
      rw [mul?, hradixWord, if_pos hproduct]
    have hmulNat : (v * UInt64.ofNat radix).toNat = v.toNat * radix := by
      rw [mul?_eq_some hmul, hradixWord]
    have hadd : add? (v * UInt64.ofNat radix) (UInt64.ofNat d) =
        some (v * UInt64.ofNat radix + UInt64.ofNat d) := by
      rw [add?, hmulNat, hdigitWord, if_pos hsum]
    have haddNat : (v * UInt64.ofNat radix + UInt64.ofNat d).toNat = v.toNat * radix + d := by
      rw [add?_eq_some hadd, hmulNat, hdigitWord]
    have hpush : push? radix v c = some (v * UInt64.ofNat radix + UInt64.ofNat d) := by
      unfold push?
      rw [hd]
      dsimp only
      rw [hmul]
      exact hadd
    rw [← haddNat] at hlt ⊢
    rw [parseFrom?, hpush]
    exact ih (fun c hc => hdigits c (List.mem_cons_of_mem _ hc)) hlt

/-- **A text of digits** is read as the number it stands for, if that has 64 bits. -/
theorem parse?_eq (hradix : 0 < radix) (hword : radix < UInt64.size) (ht : t ≠ [])
    (hdigits : ∀ c ∈ t, (digit? radix c).isSome) (hlt : value radix t < UInt64.size) :
    ∃ w, parse? radix t = some w ∧ w.toNat = value radix t := by
  obtain ⟨c, t, rfl⟩ := List.exists_cons_of_ne_nil ht
  exact parseFrom?_eq (v := 0) hradix hword hdigits hlt

/-- A digit behind a number was a digit, and made it this one. -/
theorem push?_eq_some (hword : radix < UInt64.size) {v w : UInt64} {c : Char}
    (h : push? radix v c = some w) :
    ∃ d, digit? radix c = some d ∧ w.toNat = v.toNat * radix + d := by
  unfold push? at h
  cases hd : digit? radix c with
  | none =>
    rw [hd] at h
    cases h
  | some d =>
    rw [hd] at h
    dsimp only at h
    cases hm : mul? v (UInt64.ofNat radix) with
    | none =>
      rw [hm] at h
      cases h
    | some product =>
      rw [hm] at h
      refine ⟨d, rfl, ?_⟩
      rw [add?_eq_some h, mul?_eq_some hm, UInt64.toNat_ofNat_of_lt' hword,
        UInt64.toNat_ofNat_of_lt' (Nat.lt_trans (digit?_lt hd) hword)]

/-- What is read behind a number are digits. -/
theorem digits_of_parseFrom? (hword : radix < UInt64.size) {v w : UInt64}
    (h : parseFrom? radix v t = some w) :
    (∀ c ∈ t, (digit? radix c).isSome) ∧
      w.toNat = t.foldl (fun v c => v * radix + (digit? radix c).getD 0) v.toNat := by
  induction t generalizing v with
  | nil =>
    obtain rfl := Option.some.inj h
    exact ⟨fun c hc => absurd hc List.not_mem_nil, rfl⟩
  | cons c t ih =>
    rw [parseFrom?] at h
    cases hp : push? radix v c with
    | none =>
      rw [hp] at h
      cases h
    | some u =>
      rw [hp] at h
      obtain ⟨d, hd, hu⟩ := push?_eq_some hword hp
      obtain ⟨hdigits, hvalue⟩ := ih h
      refine ⟨fun x hx => ?_, ?_⟩
      · rcases List.mem_cons.mp hx with rfl | hx
        · rw [hd]
          rfl
        · exact hdigits x hx
      · rw [List.foldl_cons, hd, Option.getD_some, ← hu]
        exact hvalue

/-- **What is read as a number** is a text of digits that stands for it. -/
theorem digits_of_parse? (hword : radix < UInt64.size) {w : UInt64}
    (h : parse? radix t = some w) :
    t ≠ [] ∧ (∀ c ∈ t, (digit? radix c).isSome) ∧ w.toNat = value radix t := by
  cases t with
  | nil => cases h
  | cons c t => exact ⟨List.cons_ne_nil c t, digits_of_parseFrom? (v := 0) hword h⟩

/-- Digits stand for zero if all of them do. -/
theorem value_eq_zero_iff (hradix : 0 < radix) (hdigits : ∀ c ∈ t, (digit? radix c).isSome) :
    value radix t = 0 ↔ ∀ c ∈ t, digit? radix c = some 0 := by
  unfold value
  induction t with
  | nil => exact ⟨fun _ c hc => absurd hc List.not_mem_nil, fun _ => rfl⟩
  | cons c t ih =>
    obtain ⟨d, hd⟩ := Option.isSome_iff_exists.mp (hdigits c List.mem_cons_self)
    have hrest := ih fun c hc => hdigits c (List.mem_cons_of_mem _ hc)
    rw [List.foldl_cons, hd, Option.getD_some, Nat.zero_mul, Nat.zero_add]
    constructor
    · intro h
      have hzero : d = 0 := Nat.le_zero.mp (h ▸ le_foldl hradix d t)
      subst hzero
      intro x hx
      rcases List.mem_cons.mp hx with rfl | hx
      · exact hd
      · exact hrest.mp h x hx
    · intro h
      have hzero : d = 0 := Option.some.inj (hd.symm.trans (h c List.mem_cons_self))
      subst hzero
      exact hrest.mpr fun x hx => h x (List.mem_cons_of_mem _ hx)

/-- Digits behind a number make it less than if they were zeros behind the next number. -/
theorem foldl_lt (hradix : 0 < radix) (v : Nat) (t : Text) :
    t.foldl (fun v c => v * radix + (digit? radix c).getD 0) v < (v + 1) * Nat.pow radix t.length := by
  induction t generalizing v with
  | nil =>
    show v < (v + 1) * 1
    rw [Nat.mul_one]
    exact Nat.lt_succ_self v
  | cons c t ih =>
    have hdigit : (digit? radix c).getD 0 < radix := by
      cases hd : digit? radix c with
      | none => exact hradix
      | some d => exact digit?_lt hd
    show _ < (v + 1) * (Nat.pow radix t.length * radix)
    rw [List.foldl_cons, Nat.mul_comm (Nat.pow radix t.length), ← Nat.mul_assoc]
    refine Nat.lt_of_lt_of_le (ih _) (Nat.mul_le_mul_right _ ?_)
    rw [Nat.add_mul, Nat.one_mul]
    exact Nat.add_lt_add_left hdigit _

/-- A text stands for less than this power of the radix. -/
theorem value_lt (hradix : 0 < radix) (t : Text) : value radix t < Nat.pow radix t.length := by
  have h := foldl_lt hradix 0 t
  rwa [Nat.zero_add, Nat.one_mul] at h

/-- The only decimal digit of value zero. -/
theorem digit?_ten_eq_zero_iff {c : Char} : digit? 10 c = some 0 ↔ c = '0' := by
  constructor
  · intro h
    have hcode : c.toNat = '0'.toNat := by
      show c.toNat = 48
      unfold digit? at h
      dsimp only at h
      obtain ⟨-, hv⟩ := Option.ite_none_right_eq_some.mp h
      have hzero := Option.some.inj hv
      simp only [Bool.and_eq_true, decide_eq_true_eq] at hzero
      -- a digit, a small letter, a capital letter, or none of them
      split at hzero
      · omega
      · split at hzero
        · omega
        · split at hzero <;> omega
    exact Char.toNat_inj.mp hcode
  · rintro rfl
    decide

/-! ## 2. Writing -/

/-- The value of a decimal digit. -/
theorem digit?_of_isDigit {c : Char} (h : c.isDigit = true) : digit? 10 c = some (c.toNat - 48) := by
  simp only [Char.isDigit, Bool.and_eq_true, decide_eq_true_eq, ge_iff_le,
    UInt32.le_iff_toNat_le] at h
  have hlow : 48 ≤ c.toNat := h.1
  have hhigh : c.toNat ≤ 57 := h.2
  unfold digit?
  dsimp only
  rw [if_pos (Bool.and_eq_true_iff.mpr ⟨decide_eq_true hlow, decide_eq_true hhigh⟩)]
  exact if_pos (show c.toNat - 48 < 10 by omega)

/-- Only the ten digits are decimal digits. -/
theorem isDigit_of_digit? {c : Char} {d : Nat} (h : digit? 10 c = some d) : c.isDigit = true := by
  unfold digit? at h
  dsimp only at h
  obtain ⟨hten, -⟩ := Option.ite_none_right_eq_some.mp h
  simp only [Bool.and_eq_true, decide_eq_true_eq] at hten
  have hrange : 48 ≤ c.toNat ∧ c.toNat ≤ 57 := by
    -- letters have values from ten on
    split at hten
    · assumption
    · split at hten
      · omega
      · split at hten <;> omega
  simp only [Char.isDigit, Bool.and_eq_true, decide_eq_true_eq, ge_iff_le, UInt32.le_iff_toNat_le]
  exact hrange

/-- Digits by their values are digits by their codes. -/
theorem foldl_eq_ofDigitChars {t : Text} (h : ∀ c ∈ t, c.isDigit = true) (v : Nat) :
    t.foldl (fun v c => v * 10 + (digit? 10 c).getD 0) v = Nat.ofDigitChars 10 t v := by
  induction t generalizing v with
  | nil => rfl
  | cons c t ih =>
    rw [List.foldl_cons, Nat.ofDigitChars_cons, digit?_of_isDigit (h c List.mem_cons_self),
      Option.getD_some, Nat.mul_comm v 10]
    exact ih (fun c hc => h c (List.mem_cons_of_mem _ hc)) _

theorem value_eq_ofDigitChars {t : Text} (h : ∀ c ∈ t, c.isDigit = true) :
    value 10 t = Nat.ofDigitChars 10 t 0 :=
  foldl_eq_ofDigitChars h 0

theorem toList_toString (n : Nat) : (toString n).toList = Nat.toDigits 10 n := by
  rw [Nat.toString_eq_ofList_toDigits, String.toList_ofList]

theorem toString_ne_nil (n : Nat) : (toString n).toList ≠ [] := by
  rw [toList_toString]
  exact Nat.toDigits_ne_nil

/-- A number is written in digits. -/
theorem isDigit_of_mem_toString {n : Nat} {c : Char} (h : c ∈ (toString n).toList) :
    c.isDigit = true := by
  rw [toList_toString] at h
  exact Nat.isDigit_of_mem_toDigits (by decide) (by decide) h

/-- **The digits of a number** stand for it. -/
theorem value_toString (n : Nat) : value 10 (toString n).toList = n := by
  rw [value_eq_ofDigitChars fun c => isDigit_of_mem_toString, toList_toString]
  exact Nat.ofDigitChars_ten_toDigits

/-- A number below a power of ten has no more digits than this. -/
theorem length_toString_le {n k : Nat} (hk : 0 < k) (h : n < Nat.pow 10 k) :
    (toString n).toList.length ≤ k := by
  rw [toList_toString]
  exact (Nat.length_toDigits_le_iff (by decide) hk).mpr h

end Sluice.Radix

/-! ## 3. Views -/

namespace Sluice.TextView

/-- A view without characters has no text. -/
theorem toText_of_isEmpty {v : TextView} (h : v.isEmpty = true) : v.toText = [] := by
  cases v with
  | literal t => exact List.isEmpty_iff.mp h
  | range b start stop =>
    obtain rfl : start = stop := beq_iff_eq.mp h
    rw [toText, Nat.sub_self]
    rfl

/-- No number is read from a view without characters, as none is read from no text. -/
theorem number_of_toText (v : TextView) (radix : Nat) :
    (if v.isEmpty then none else Radix.parse? radix v.toText) = Radix.parse? radix v.toText := by
  by_cases h : v.isEmpty = true
  · rw [if_pos h, toText_of_isEmpty h]
    rfl
  · exact if_neg h

theorem decimal?_eq (v : TextView) : v.decimal? = Radix.decimal? v.toText :=
  number_of_toText v 10

theorem hex?_eq (v : TextView) : v.hex? = Radix.hex? v.toText :=
  number_of_toText v 16

end Sluice.TextView
