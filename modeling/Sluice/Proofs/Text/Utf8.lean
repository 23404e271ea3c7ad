/-
  File:      Sluice/Proofs/Text/Utf8.lean
  Subject:   The decoder knows exactly the bytes of texts.

  * `leadOf`: the kind of a first byte, by its number;
  * `decodeFrom_encodeChar`: the bytes of a character are read as this character;
  * `encode_of_decodeFrom`: what is read is the bytes of the text;
  * **`decode_eq_ok_iff`**: bytes decode to a text exactly when they are its encoding;
  * **`cut_offset`**, **`encode_cut`**: between the places of two characters lie the characters from
    one to the other, and their bytes.
-/
import Mathlib.Tactic.SplitIfs
import Sluice.Text.Utf8

namespace Sluice.Utf8

/-! ## 1. Bytes as numbers -/

/-- The kind of a first byte, by its number. -/
def leadOf (n : Nat) : Lead :=
  if n < 0x80 then .one
  else if n < 0xC2 then .bad
  else if n < 0xE0 then .two
  else if n = 0xE0 then .three 0xA0 0xBF
  else if n = 0xED then .three 0x80 0x9F
  else if n < 0xF0 then .three 0x80 0xBF
  else if n = 0xF0 then .four 0x90 0xBF
  else if n < 0xF4 then .four 0x80 0xBF
  else if n = 0xF4 then .four 0x80 0x8F
  else .bad

theorem lead_eq (b : UInt8) : lead b = leadOf b.toNat := by
  simp only [lead, leadOf, UInt8.lt_iff_toNat_lt, ← UInt8.toNat_inj, UInt8.reduceToNat]

theorem le_and_le_iff {low high b : UInt8} :
    (decide (low ≤ b) && decide (b ≤ high)) = true ↔
      low.toNat ≤ b.toNat ∧ b.toNat ≤ high.toNat := by
  rw [Bool.and_eq_true, decide_eq_true_eq, decide_eq_true_eq, UInt8.le_iff_toNat_le,
    UInt8.le_iff_toNat_le]

theorem isTail_iff {b : UInt8} : isTail b = true ↔ 0x80 ≤ b.toNat ∧ b.toNat ≤ 0xBF :=
  le_and_le_iff

theorem toNat_ofNat {n : Nat} (h : n < 256) : (UInt8.ofNat n).toNat = n :=
  UInt8.toNat_ofNat_of_lt' h

theorem isTail_ofNat (n : Nat) : isTail (UInt8.ofNat (n % 64 + 0x80)) = true := by
  rw [isTail_iff, toNat_ofNat (by omega)]
  omega

theorem low6_ofNat (n : Nat) : low6 (UInt8.ofNat (n % 64 + 0x80)) = n % 64 := by
  rw [low6, toNat_ofNat (by omega)]
  omega

/-! ## 2. Characters -/

section Sequences

variable {i : Nat} {a b c d : UInt8} {r : List UInt8} {low high : UInt8}

theorem decodeFrom_one (ha : lead a = .one) : decodeFrom i (a :: r) =
    (decodeFrom (i + 1) r).map (Char.ofNat a.toNat :: ·) := by
  rw [decodeFrom.eq_def]
  simp only [ha]

theorem decodeFrom_two (ha : lead a = .two) (hb : isTail b = true) :
    decodeFrom i (a :: b :: r) =
      (decodeFrom (i + 2) r).map (Char.ofNat (a.toNat % 32 * 64 + low6 b) :: ·) := by
  rw [decodeFrom.eq_def]
  simp only [ha, hb, if_true]

theorem decodeFrom_three (ha : lead a = .three low high) (hb : (low ≤ b && b ≤ high) = true)
    (hc : isTail c = true) : decodeFrom i (a :: b :: c :: r) =
      (decodeFrom (i + 3) r).map
        (Char.ofNat ((a.toNat % 16 * 64 + low6 b) * 64 + low6 c) :: ·) := by
  rw [decodeFrom.eq_def]
  simp only [ha, hb, hc, if_true]

theorem decodeFrom_four (ha : lead a = .four low high) (hb : (low ≤ b && b ≤ high) = true)
    (hc : isTail c = true) (hd : isTail d = true) : decodeFrom i (a :: b :: c :: d :: r) =
      (decodeFrom (i + 4) r).map
        (Char.ofNat (((a.toNat % 8 * 64 + low6 b) * 64 + low6 c) * 64 + low6 d) :: ·) := by
  rw [decodeFrom.eq_def]
  simp only [ha, hb, hc, hd, if_true]

end Sequences

theorem ofNat_val (c : Char) : Char.ofNat c.val.toNat = c := Char.ofNat_toNat c

theorem isValid_val (c : Char) :
    c.val.toNat < 0xD800 ∨ 0xDFFF < c.val.toNat ∧ c.val.toNat < 0x110000 :=
  c.valid

/-- The first byte of two. -/
theorem lead_two {v : Nat} (h1 : 0x80 ≤ v) (h2 : v < 0x800) :
    lead (UInt8.ofNat (v / 64 % 32 + 192)) = .two := by
  rw [lead_eq, toNat_ofNat (by omega)]
  unfold leadOf
  rw [if_neg (by omega), if_neg (by omega), if_pos (by omega)]

/-- The first byte of three allows the second: the number is neither small nor a surrogate. -/
theorem lead_three {v : Nat} (h1 : 0x800 ≤ v) (h2 : v < 0x10000) (hv : v < 0xD800 ∨ 0xDFFF < v) :
    ∃ low high : UInt8, lead (UInt8.ofNat (v / 4096 % 16 + 224)) = .three low high ∧
      (decide (low ≤ UInt8.ofNat (v / 64 % 64 + 128)) &&
        decide (UInt8.ofNat (v / 64 % 64 + 128) ≤ high)) = true := by
  have hb : (UInt8.ofNat (v / 64 % 64 + 128)).toNat = v / 64 % 64 + 128 := toNat_ofNat (by omega)
  rw [lead_eq, toNat_ofNat (by omega)]
  simp only [le_and_le_iff, hb]
  unfold leadOf
  rw [if_neg (by omega), if_neg (by omega), if_neg (by omega)]
  by_cases h0 : v / 4096 % 16 + 224 = 0xE0
  · rw [if_pos h0]
    exact ⟨_, _, rfl, show (160 : Nat) ≤ _ by omega, show _ ≤ (191 : Nat) by omega⟩
  · rw [if_neg h0]
    by_cases hd : v / 4096 % 16 + 224 = 0xED
    · rw [if_pos hd]
      exact ⟨_, _, rfl, show (128 : Nat) ≤ _ by omega, show _ ≤ (159 : Nat) by omega⟩
    · rw [if_neg hd, if_pos (by omega)]
      exact ⟨_, _, rfl, show (128 : Nat) ≤ _ by omega, show _ ≤ (191 : Nat) by omega⟩

/-- The first byte of four allows the second: the number is neither small nor too large. -/
theorem lead_four {v : Nat} (h1 : 0x10000 ≤ v) (h2 : v < 0x110000) :
    ∃ low high : UInt8, lead (UInt8.ofNat (v / 262144 % 8 + 240)) = .four low high ∧
      (decide (low ≤ UInt8.ofNat (v / 4096 % 64 + 128)) &&
        decide (UInt8.ofNat (v / 4096 % 64 + 128) ≤ high)) = true := by
  have hb : (UInt8.ofNat (v / 4096 % 64 + 128)).toNat = v / 4096 % 64 + 128 :=
    toNat_ofNat (by omega)
  rw [lead_eq, toNat_ofNat (by omega)]
  simp only [le_and_le_iff, hb]
  unfold leadOf
  rw [if_neg (by omega), if_neg (by omega), if_neg (by omega), if_neg (by omega),
    if_neg (by omega), if_neg (by omega)]
  by_cases h0 : v / 262144 % 8 + 240 = 0xF0
  · rw [if_pos h0]
    exact ⟨_, _, rfl, show (144 : Nat) ≤ _ by omega, show _ ≤ (191 : Nat) by omega⟩
  · rw [if_neg h0]
    by_cases h4 : v / 262144 % 8 + 240 < 0xF4
    · rw [if_pos h4]
      exact ⟨_, _, rfl, show (128 : Nat) ≤ _ by omega, show _ ≤ (191 : Nat) by omega⟩
    · rw [if_neg h4, if_pos (by omega)]
      exact ⟨_, _, rfl, show (128 : Nat) ≤ _ by omega, show _ ≤ (143 : Nat) by omega⟩

/-- **The bytes of a character** are read as this character, and reading goes on behind them. -/
theorem decodeFrom_encodeChar (c : Char) (i : Nat) (rest : List UInt8) :
    decodeFrom i (String.utf8EncodeChar c ++ rest) =
      (decodeFrom (i + (String.utf8EncodeChar c).length) rest).map (c :: ·) := by
  have hc := ofNat_val c
  have hv := isValid_val c
  generalize hn : c.val.toNat = v at hc hv
  unfold String.utf8EncodeChar
  rw [hn]
  dsimp only
  split
  · rename_i h1
    have ha : lead (UInt8.ofNat v) = .one := by
      rw [lead_eq, toNat_ofNat (by omega), leadOf, if_pos (by omega)]
    rw [List.cons_append, List.nil_append, decodeFrom_one ha, toNat_ofNat (by omega), hc]
    rfl
  · split
    · rename_i h1 h2
      have ha := lead_two (v := v) (by omega) (by omega)
      have hval : (v / 64 % 32 + 192) % 32 * 64 + v % 64 = v := by omega
      rw [List.cons_append, List.cons_append, List.nil_append, decodeFrom_two ha (isTail_ofNat v),
        toNat_ofNat (by omega), low6_ofNat, hval, hc]
      rfl
    · split
      · rename_i h1 h2 h3
        obtain ⟨low, high, ha, hb⟩ := lead_three (v := v) (by omega) (by omega) (by omega)
        have hval : ((v / 4096 % 16 + 224) % 16 * 64 + v / 64 % 64) * 64 + v % 64 = v := by omega
        rw [List.cons_append, List.cons_append, List.cons_append, List.nil_append,
          decodeFrom_three ha hb (isTail_ofNat v), toNat_ofNat (by omega), low6_ofNat, low6_ofNat,
          hval, hc]
        rfl
      · rename_i h1 h2 h3
        obtain ⟨low, high, ha, hb⟩ := lead_four (v := v) (by omega) (by omega)
        have hval : (((v / 262144 % 8 + 240) % 8 * 64 + v / 4096 % 64) * 64 + v / 64 % 64) * 64 +
            v % 64 = v := by omega
        rw [List.cons_append, List.cons_append, List.cons_append, List.cons_append, List.nil_append,
          decodeFrom_four ha hb (isTail_ofNat (v / 64)) (isTail_ofNat v), toNat_ofNat (by omega),
          low6_ofNat, low6_ofNat, low6_ofNat, hval, hc]
        rfl

/-! ## 3. Sequences -/

/-- The kinds of first bytes, and what they say of the byte. -/
theorem lead_cases (b : UInt8) :
    match lead b with
    | .one => b.toNat < 0x80
    | .bad => True
    | .two => 0xC2 ≤ b.toNat ∧ b.toNat < 0xE0
    | .three low high => 0xE0 ≤ b.toNat ∧ b.toNat < 0xF0 ∧ 0x80 ≤ low.toNat ∧ high.toNat ≤ 0xBF ∧
        (b.toNat = 0xE0 → 0xA0 ≤ low.toNat) ∧ (b.toNat = 0xED → high.toNat ≤ 0x9F)
    | .four low high => 0xF0 ≤ b.toNat ∧ b.toNat ≤ 0xF4 ∧ 0x80 ≤ low.toNat ∧ high.toNat ≤ 0xBF ∧
        (b.toNat = 0xF0 → 0x90 ≤ low.toNat) ∧ (b.toNat = 0xF4 → high.toNat ≤ 0x8F) := by
  rw [lead_eq]
  generalize b.toNat = n
  unfold leadOf
  split_ifs
  all_goals try simp only [UInt8.reduceToNat]
  all_goals omega

section Encoding

variable {a b c d : UInt8} {low high : UInt8}

theorem val_ofNat {n : Nat} (h : n < 0xD800 ∨ 0xDFFF < n ∧ n < 0x110000) :
    (Char.ofNat n).val.toNat = n := by
  rw [Char.ofNat, dif_pos h]
  rfl

theorem eq_ofNat {b : UInt8} {n : Nat} (h : b.toNat = n) : UInt8.ofNat n = b := by
  rw [← h, UInt8.ofNat_toNat]

theorem encodeChar_one (ha : lead a = .one) :
    String.utf8EncodeChar (Char.ofNat a.toNat) = [a] := by
  have ha' := lead_cases a
  rw [ha] at ha'
  rw [String.utf8EncodeChar, val_ofNat (by omega)]
  rw [if_pos (by omega), UInt8.ofNat_toNat]

theorem encodeChar_two (ha : lead a = .two) (hb : isTail b = true) :
    String.utf8EncodeChar (Char.ofNat (a.toNat % 32 * 64 + low6 b)) = [a, b] := by
  have ha' := lead_cases a
  rw [ha] at ha'
  have hb' := isTail_iff.mp hb
  unfold low6
  rw [String.utf8EncodeChar, val_ofNat (by omega)]
  rw [if_neg (by omega), if_pos (by omega)]
  congr 1
  · exact eq_ofNat (by omega)
  · congr 1
    exact eq_ofNat (by omega)

theorem encodeChar_three (ha : lead a = .three low high) (hb : (low ≤ b && b ≤ high) = true)
    (hc : isTail c = true) :
    String.utf8EncodeChar (Char.ofNat ((a.toNat % 16 * 64 + low6 b) * 64 + low6 c)) = [a, b, c] := by
  have ha' := lead_cases a
  rw [ha] at ha'
  have hb' := le_and_le_iff.mp hb
  have hc' := isTail_iff.mp hc
  unfold low6
  rw [String.utf8EncodeChar, val_ofNat (by omega)]
  rw [if_neg (by omega), if_neg (by omega), if_pos (by omega)]
  congr 1
  · exact eq_ofNat (by omega)
  · congr 1
    · exact eq_ofNat (by omega)
    · congr 1
      exact eq_ofNat (by omega)

theorem encodeChar_four (ha : lead a = .four low high) (hb : (low ≤ b && b ≤ high) = true)
    (hc : isTail c = true) (hd : isTail d = true) :
    String.utf8EncodeChar
      (Char.ofNat (((a.toNat % 8 * 64 + low6 b) * 64 + low6 c) * 64 + low6 d)) = [a, b, c, d] := by
  have ha' := lead_cases a
  rw [ha] at ha'
  have hb' := le_and_le_iff.mp hb
  have hc' := isTail_iff.mp hc
  have hd' := isTail_iff.mp hd
  unfold low6
  rw [String.utf8EncodeChar, val_ofNat (by omega)]
  rw [if_neg (by omega), if_neg (by omega), if_neg (by omega)]
  congr 1
  · exact eq_ofNat (by omega)
  · congr 1
    · exact eq_ofNat (by omega)
    · congr 1
      · exact eq_ofNat (by omega)
      · congr 1
        exact eq_ofNat (by omega)

end Encoding

/-! ## 4. Texts -/

/-- A text that is read with one character in front. -/
theorem encode_of_map {c : Char} {front rest : List UInt8} {t : Text} {i : Nat}
    (hc : String.utf8EncodeChar c = front)
    (ih : ∀ t, decodeFrom i rest = .ok t → encode t = rest)
    (h : (decodeFrom i rest).map (c :: ·) = .ok t) : encode t = front ++ rest := by
  cases hr : decodeFrom i rest with
  | error f =>
    rw [hr] at h
    cases h
  | ok t' =>
    rw [hr] at h
    obtain rfl : c :: t' = t := Except.ok.inj h
    rw [← hc, ← ih t' hr]
    rfl

/-- What is read is the encoding of the text. -/
theorem encode_of_decodeFrom {i : Nat} {bytes : List UInt8} {t : Text}
    (h : decodeFrom i bytes = .ok t) : encode t = bytes := by
  fun_induction decodeFrom i bytes generalizing t with
  | case1 i =>
    obtain rfl : [] = t := Except.ok.inj h
    rfl
  | case2 i a r ha ih => exact encode_of_map (encodeChar_one ha) (fun _ => ih) h
  | case5 i a ha b r hb ih => exact encode_of_map (encodeChar_two ha hb) (fun _ => ih) h
  | case9 i a low high ha b hb c r hc ih =>
    exact encode_of_map (encodeChar_three ha hb hc) (fun _ => ih) h
  | case15 i a low high ha b hb c hc d r hd ih =>
    exact encode_of_map (encodeChar_four ha hb hc hd) (fun _ => ih) h
  | _ => cases h

/-- The encoding of a text is read as the text. -/
theorem decodeFrom_encode (t : Text) (i : Nat) : decodeFrom i (encode t) = .ok t := by
  induction t generalizing i with
  | nil => rw [encode_nil, decodeFrom]
  | cons c t ih =>
    have happ : encode (c :: t) = String.utf8EncodeChar c ++ encode t := rfl
    rw [happ, decodeFrom_encodeChar, ih]
    rfl

/-- **Bytes decode to a text exactly when they are its encoding.** -/
theorem decode_eq_ok_iff {bytes : List UInt8} {t : Text} :
    decode bytes = .ok t ↔ encode t = bytes := by
  constructor
  · exact encode_of_decodeFrom
  · rintro rfl
    exact decodeFrom_encode t 0

/-- The string of some bytes, if they are one, is what they decode to. -/
theorem fromUTF8?_eq_some_iff {bytes : List UInt8} {t : Text} :
    (String.fromUTF8? bytes.toByteArray).map String.toList = some t ↔ encode t = bytes := by
  have hencode : ∀ m : Text, m.utf8Encode = (encode m).toByteArray := fun _ => rfl
  unfold String.fromUTF8?
  constructor
  · intro h
    by_cases hv : bytes.toByteArray.IsValidUTF8
    · rw [dif_pos hv] at h
      obtain ⟨m, hm⟩ := hv
      have hs : String.fromUTF8 bytes.toByteArray ⟨m, hm⟩ = String.ofList m :=
        String.toByteArray_inj.mp (by rw [String.toByteArray_ofList]; exact hm)
      rw [hs, Option.map_some, String.toList_ofList] at h
      obtain rfl : m = t := Option.some.inj h
      rw [hencode] at hm
      exact (List.toByteArray_inj.mp hm).symm
    · rw [dif_neg hv] at h
      cases h
  · rintro rfl
    rw [dif_pos ⟨t, (hencode t).symm⟩]
    have hs : String.fromUTF8 (encode t).toByteArray ⟨t, (hencode t).symm⟩ = String.ofList t :=
      String.toByteArray_inj.mp String.toByteArray_ofList.symm
    rw [hs, Option.map_some, String.toList_ofList]

theorem length_encodeChar_pos (c : Char) : 0 < (String.utf8EncodeChar c).length :=
  List.length_pos_iff.mpr String.utf8EncodeChar_ne_nil

/-- A text has no more characters than bytes. -/
theorem length_le_encode (t : Text) : t.length ≤ (encode t).length := by
  induction t with
  | nil => exact Nat.le_refl 0
  | cons c t ih =>
    have happ : encode (c :: t) = String.utf8EncodeChar c ++ encode t := rfl
    have := length_encodeChar_pos c
    rw [happ, List.length_append, List.length_cons]
    omega

/-- No character has more than four bytes. -/
theorem length_encode_le (t : Text) : (encode t).length ≤ 4 * t.length := by
  induction t with
  | nil => exact Nat.le_refl 0
  | cons c t ih =>
    have happ : encode (c :: t) = String.utf8EncodeChar c ++ encode t := rfl
    have hchar : (String.utf8EncodeChar c).length ≤ 4 := by
      rw [String.length_utf8EncodeChar]
      exact Char.utf8Size_le_four c
    rw [happ, List.length_append, List.length_cons]
    omega

/-- A byte below 128 is a character of its own. -/
theorem encodeChar_of_mem {c : Char} {b : UInt8} (h : b ∈ String.utf8EncodeChar c)
    (hb : b.toNat < 0x80) : c = Char.ofNat b.toNat := by
  have hc := ofNat_val c
  have hv := isValid_val c
  unfold String.utf8EncodeChar at h
  generalize c.val.toNat = v at h hc hv
  dsimp only at h
  split at h
  · obtain rfl := List.mem_singleton.mp h
    rw [toNat_ofNat (by omega), hc]
  · exfalso
    have htail : ∀ n, ¬ (UInt8.ofNat (n % 64 + 128)).toNat < 0x80 := fun n hlt => by
      rw [toNat_ofNat (by omega)] at hlt
      omega
    have hlead : ∀ n, 128 ≤ n → n < 256 → ¬ (UInt8.ofNat n).toNat < 0x80 := fun n h1 h2 hlt => by
      rw [toNat_ofNat h2] at hlt
      omega
    split at h
    · simp only [List.mem_cons, List.not_mem_nil, or_false] at h
      rcases h with rfl | rfl
      · exact hlead _ (by omega) (by omega) hb
      · exact htail _ hb
    · split at h
      · simp only [List.mem_cons, List.not_mem_nil, or_false] at h
        rcases h with rfl | rfl | rfl
        · exact hlead _ (by omega) (by omega) hb
        · exact htail _ hb
        · exact htail _ hb
      · simp only [List.mem_cons, List.not_mem_nil, or_false] at h
        rcases h with rfl | rfl | rfl | rfl
        · exact hlead _ (by omega) (by omega) hb
        · exact htail _ hb
        · exact htail _ hb
        · exact htail _ hb

/-- **No ASCII byte** is among the bytes of a text without its character. -/
theorem not_mem_encode {t : Text} {b : UInt8} (hb : b.toNat < 0x80)
    (h : Char.ofNat b.toNat ∉ t) : b ∉ encode t := by
  intro hmem
  obtain ⟨c, hc, hbc⟩ := List.mem_flatMap.mp hmem
  rw [encodeChar_of_mem hbc hb] at hc
  exact h hc

/-! ## 5. Places -/

section Places

variable {i m n : Nat} {t : Text}

theorem length_encode_cons (c : Char) (t : Text) :
    (encode (c :: t)).length = c.utf8Size + (encode t).length := by
  have happ : encode (c :: t) = String.utf8EncodeChar c ++ encode t := rfl
  rw [happ, List.length_append, String.length_utf8EncodeChar]

theorem places_append (i : Nat) (s t : Text) :
    places i (s ++ t) = places i s ++ places (i + (encode s).length) t := by
  induction s generalizing i with
  | nil => rfl
  | cons c s ih =>
    rw [List.cons_append, places, places, ih, length_encode_cons, Nat.add_assoc, List.cons_append]

theorem map_snd_places (i : Nat) (t : Text) : (places i t).map Prod.snd = t := by
  induction t generalizing i with
  | nil => rfl
  | cons c t ih => rw [places, List.map_cons, ih]

theorem length_places (i : Nat) (t : Text) : (places i t).length = t.length := by
  rw [← List.length_map (f := Prod.snd), map_snd_places]

/-- Characters start at or behind the first byte, and before the end of the bytes. -/
theorem bounds_of_mem_places {p : Nat × Char} (h : p ∈ places i t) :
    i ≤ p.1 ∧ p.1 < i + (encode t).length := by
  induction t generalizing i with
  | nil => cases h
  | cons c t ih =>
    have hc := c.utf8Size_pos
    rw [length_encode_cons]
    rcases List.mem_cons.mp h with rfl | h
    · exact ⟨Nat.le_refl i, by omega⟩
    · have := ih h
      omega

/-- A character starts behind the bytes of those before it. -/
theorem offset_eq (t : Text) (n : Nat) : offset t n = (encode (t.take n)).length := by
  have happ := places_append 0 (t.take n) (t.drop n)
  rw [List.take_append_drop, Nat.zero_add] at happ
  unfold offset
  rcases Nat.lt_or_ge n t.length with hn | hn
  · have htake : (places 0 (t.take n)).length = n := by
      rw [length_places, List.length_take_of_le (Nat.le_of_lt hn)]
    rw [happ, List.getElem?_append_right (Nat.le_of_eq htake), htake, Nat.sub_self,
      List.drop_eq_getElem_cons hn]
    rfl
  · rw [List.getElem?_eq_none (by rw [length_places]; exact hn), List.take_of_length_le hn]

/-- The middle one of three texts is cut out where its bytes start and end. -/
theorem cut_append (s u w : Text) :
    cut (s ++ (u ++ w)) (encode s).length ((encode s).length + (encode u).length) = u := by
  have hbefore : (places 0 s).filter (fun p => (encode s).length ≤ p.1 &&
      p.1 < (encode s).length + (encode u).length) = [] := by
    refine List.filter_eq_nil_iff.mpr fun p hp => ?_
    have := bounds_of_mem_places hp
    simp only [Bool.and_eq_true, decide_eq_true_eq]
    omega
  have hinside : (places (encode s).length u).filter (fun p => (encode s).length ≤ p.1 &&
      p.1 < (encode s).length + (encode u).length) = places (encode s).length u := by
    refine List.filter_eq_self.mpr fun p hp => ?_
    have := bounds_of_mem_places hp
    simp only [Bool.and_eq_true, decide_eq_true_eq]
    omega
  have hbehind : (places ((encode s).length + (encode u).length) w).filter
      (fun p => (encode s).length ≤ p.1 && p.1 < (encode s).length + (encode u).length) = [] := by
    refine List.filter_eq_nil_iff.mpr fun p hp => ?_
    have := bounds_of_mem_places hp
    simp only [Bool.and_eq_true, decide_eq_true_eq]
    omega
  rw [cut, places_append, Nat.zero_add, places_append, List.filter_append, List.filter_append,
    hbefore, hinside, hbehind, List.nil_append, List.append_nil, map_snd_places]

/-- A text is what lies before two positions, between them, and behind them. -/
theorem take_drop_append (t : Text) (h : m ≤ n) :
    t.take n = t.take m ++ (t.drop m).take (n - m) ∧
      t = t.take m ++ ((t.drop m).take (n - m) ++ t.drop n) := by
  have htake : t.take n = t.take m ++ (t.drop m).take (n - m) := by
    rw [← List.take_add, Nat.add_sub_cancel' h]
  exact ⟨htake, by rw [← List.append_assoc, ← htake, List.take_append_drop]⟩

/-- **Between the bytes where two characters start** lie the characters from one to the other. -/
theorem cut_offset (t : Text) (h : m ≤ n) :
    cut t (offset t m) (offset t n) = (t.drop m).take (n - m) := by
  obtain ⟨htake, hall⟩ := take_drop_append t h
  have hn : offset t n = (encode (t.take m)).length + (encode ((t.drop m).take (n - m))).length := by
    rw [offset_eq, htake, encode_append, List.length_append]
  have hcut := cut_append (t.take m) ((t.drop m).take (n - m)) (t.drop n)
  rwa [← hall, ← hn, ← offset_eq] at hcut

/-- **The bytes of what is cut out** are those from one place to the other. -/
theorem encode_cut (t : Text) (h : m ≤ n) : encode (cut t (offset t m) (offset t n)) =
    ((encode t).drop (offset t m)).take (offset t n - offset t m) := by
  obtain ⟨htake, hall⟩ := take_drop_append t h
  have hbytes : encode t = encode (t.take m) ++ (encode ((t.drop m).take (n - m)) ++
      encode (t.drop n)) := by
    rw [← encode_append, ← encode_append, ← hall]
  have hn : offset t n - offset t m = (encode ((t.drop m).take (n - m))).length := by
    rw [offset_eq t n, htake, encode_append, List.length_append, offset_eq, Nat.add_sub_cancel_left]
  rw [cut_offset t h, hbytes, hn, offset_eq, List.drop_left, List.take_left]

end Places

end Sluice.Utf8
