/-
  File:      Sluice/Proofs/Framing.lean
  Subject:   The texts of a head say how its body is delimited.

  * `RequestText.lookup`, `RequestText.Carries`: what may follow a head, data and bytes;
  * `Request.Shows`: a request shows these texts, in its method and its lookups;
  * **`framing_of_carries`**: what a head carries is what its framing makes of the bytes behind it.
-/
import Sluice.Proofs.Bodies
import Sluice.Proofs.Chunked.Language
import Sluice.Proofs.Head.Reading
import Sluice.Proofs.Text.Digits

namespace Sluice.Http

open Wire Chunked

/-! ## 1. What may follow a head -/

namespace RequestText

/-- The value of the first header of a name, up to case. -/
def lookup (r : RequestText) (name : Text) : Option Text :=
  (r.headers.find? fun h => h.1.eqFold name).map Prod.snd

/-- A request of one of the methods that never have a body. -/
def Bodyless (r : RequestText) : Prop :=
  r.method = "GET".toList ∨ r.method = "HEAD".toList ∨ r.method = "OPTIONS".toList

/-- A text that stands for a number in decimal. -/
def IsDecimal (t : Text) (n : Nat) : Prop :=
  t ≠ [] ∧ (∀ c ∈ t, (Radix.digit? 10 c).isSome) ∧ Radix.value 10 t = n

/-- **What may follow a head**: the data of a body, and the bytes it is sent as. There is none
    behind a bodyless method, or where no header announces one; otherwise a length says how many
    bytes there are, or, without a length, they are chunked. -/
inductive Carries (r : RequestText) : (data bytes : List UInt8) → Prop where
  | bodyless (h : r.Bodyless) : r.Carries [] []
  | unannounced (h : ¬ r.Bodyless) (length : r.lookup "Content-Length".toList = none)
      (coding : r.lookup "Transfer-Encoding".toList = none)
      (connection : r.lookup "Connection".toList = none)
      (type : r.lookup "Content-Type".toList = none) : r.Carries [] []
  | length {data : List UInt8} {value : Text} (h : ¬ r.Bodyless)
      (length : r.lookup "Content-Length".toList = some value)
      (decimal : IsDecimal value data.length) (fits : data.length < UInt64.size) : r.Carries data data
  | chunked {m : Marked} {value : Text} (h : ¬ r.Bodyless)
      (length : r.lookup "Content-Length".toList = none)
      (coding : r.lookup "Transfer-Encoding".toList = some value)
      (isChunked : value.eqFold "chunked".toList = true) (body : IsBody m) :
      r.Carries m.data m.bytes

end RequestText

/-- A request shows these texts, in its method and its lookups. -/
structure Request.Shows (r : Request) (shown : RequestText) : Prop where
  text : r.text = shown
  method : ∀ m name, m.knownName = some name → (r.method = m ↔ shown.method = name.toList)
  lookup : ∀ name, (r.header? name).map TextView.toText = shown.lookup name

/-! ## 2. The framing -/

section Framing

variable {r : Request} {shown : RequestText}

theorem Request.Shows.isBodyless_iff (h : r.Shows shown) :
    r.method.isBodyless = true ↔ shown.Bodyless := by
  unfold RequestText.Bodyless
  rw [← h.method .get _ rfl, ← h.method .head _ rfl, ← h.method .options _ rfl]
  cases r.method <;> decide

theorem Request.Shows.header?_none {name : Text} (h : r.Shows shown)
    (hname : shown.lookup name = none) : r.headers.get? name = none := by
  have hlookup := h.lookup name
  rw [hname, Option.map_eq_none_iff] at hlookup
  exact hlookup

theorem Request.Shows.header?_some {name value : Text} (h : r.Shows shown)
    (hname : shown.lookup name = some value) :
    ∃ v, r.headers.get? name = some v ∧ v.toText = value := by
  have hlookup := h.lookup name
  rw [hname, Option.map_eq_some_iff] at hlookup
  exact hlookup

/-- A view of a decimal number is read as this number. -/
theorem decimal?_of_isDecimal {v : TextView} {n : Nat} (h : RequestText.IsDecimal v.toText n)
    (hn : n < UInt64.size) : ∃ w, v.decimal? = some w ∧ w.toNat = n := by
  obtain ⟨hne, hdigits, hvalue⟩ := h
  obtain ⟨w, hw, hwNat⟩ := Radix.parse?_eq (by decide) (by decide) hne hdigits (hvalue ▸ hn)
  exact ⟨w, v.decimal?_eq.trans hw, hwNat.trans hvalue⟩

/-- A length makes the data of the first so many bytes. -/
theorem yield_length_eq {failure : Option Failure} {w : UInt64} {data rest : List UInt8}
    (hw : w.toNat = data.length) :
    (Framing.length w).yield failure (data ++ rest) = ⟨data, .ok (data.length, rest)⟩ := by
  unfold Framing.yield BodyState.ofFraming
  by_cases h0 : w = 0
  · have hlen : data.length = 0 := by rw [← hw, h0]; rfl
    obtain rfl := List.length_eq_zero_iff.mp hlen
    dsimp only
    rw [if_pos h0]
    rfl
  · dsimp only
    rw [if_neg h0]
    unfold BodyState.yield
    dsimp only
    rw [hw, if_pos (by rw [List.length_append]; exact Nat.le_add_right ..), List.take_left,
      List.drop_left]

/-- A chunked body makes its data. -/
theorem yield_chunked_eq {failure : Option Failure} {m : Marked} (h : IsBody m)
    (rest : List UInt8) :
    Framing.chunked.yield failure (m.bytes ++ rest) = ⟨m.data, .ok (m.data.length, rest)⟩ := by
  obtain ⟨e, hscan⟩ := ChunkDecoder.scan_of_isBody h rest
  show ChunkProgress.yield failure ⟨.fresh, 0⟩ (m.bytes ++ rest) = _
  unfold ChunkProgress.yield
  rw [hscan]
  dsimp only
  rw [Nat.zero_add]

/-- **What a head carries** is announced, unless it is nothing, and is what the framing of the head
    makes of the bytes behind it. -/
theorem framing_of_carries {data bytes : List UInt8} (hr : r.Shows shown)
    (h : shown.Carries data bytes) :
    r.announcesBody = false ∧ data = [] ∧ bytes = [] ∨
      r.announcesBody = true ∧ ∃ f, Framing.ofHeaders r.headers = .ok f ∧
        ∀ failure rest, f.yield failure (bytes ++ rest) = ⟨data, .ok (data.length, rest)⟩ := by
  unfold Request.announcesBody
  cases h with
  | bodyless h =>
    rw [if_pos (hr.isBodyless_iff.mpr h)]
    exact .inl ⟨rfl, rfl, rfl⟩
  | unannounced h hlength hcoding hconnection htype =>
    rw [if_neg (mt hr.isBodyless_iff.mp h)]
    dsimp only
    unfold Headers.contains
    rw [hr.header?_none hlength, hr.header?_none hcoding, hr.header?_none hconnection,
      hr.header?_none htype]
    exact .inl ⟨rfl, rfl, rfl⟩
  | @length _ value h hlength hdecimal hfits =>
    rw [if_neg (mt hr.isBodyless_iff.mp h)]
    obtain ⟨v, hv, hvalue⟩ := hr.header?_some hlength
    rw [← hvalue] at hdecimal
    obtain ⟨w, hw, hwNat⟩ := decimal?_of_isDecimal hdecimal hfits
    dsimp only
    rw [hv]
    dsimp only
    by_cases hzero : v.eqText "0".toList = true
    · have htext : v.toText = "0".toList := eq_of_beq hzero
      have hlen : data.length = 0 := by rw [← hdecimal.2.2, htext]; rfl
      obtain rfl := List.length_eq_zero_iff.mp hlen
      rw [hzero]
      exact .inl ⟨rfl, rfl, rfl⟩
    · rw [Bool.eq_false_of_not_eq_true hzero]
      refine .inr ⟨rfl, .length w, ?_, fun failure rest => yield_length_eq hwNat⟩
      unfold Framing.ofHeaders
      rw [hv]
      dsimp only
      rw [hw]
  | @chunked m value h hlength hcoding hchunked hbody =>
    rw [if_neg (mt hr.isBodyless_iff.mp h)]
    obtain ⟨v, hv, rfl⟩ := hr.header?_some hcoding
    dsimp only
    unfold Headers.contains
    rw [hr.header?_none hlength, hv]
    refine .inr ⟨rfl, .chunked, ?_, fun failure rest => yield_chunked_eq hbody rest⟩
    unfold Framing.ofHeaders
    rw [hr.header?_none hlength]
    dsimp only
    rw [hv]
    exact if_pos hchunked

end Framing

end Sluice.Http
