/-
  File:      Sluice/Proofs/Chunked/Grammar.lean
  Subject:   What a chunked body is, said without a decoder.

  * `Marked`: bytes of which each is known to be data or not;
  * `IsSizeLine`, `IsChunk`, `IsTrailer`, `IsBody`: the lines of a chunked body, and the whole of it;
  * `Viable`: bytes that can still become a body;
  * `hexDigit?_eq`: the digits of the decoder are those of the grammar.
-/
import Sluice.Http.Chunked

namespace Sluice.Http.Chunked

/-! ## 1. Bytes and their marks -/

/-- Bytes, each with whether it is data of the body. -/
abbrev Marked := List (UInt8 × Bool)

namespace Marked

/-- The bytes as they are sent. -/
def bytes (m : Marked) : List UInt8 := m.map Prod.fst

/-- The data among them. -/
def data (m : Marked) : List UInt8 := (m.filter Prod.snd).map Prod.fst

end Marked

/-- Bytes that are not data. -/
def frame (bytes : List UInt8) : Marked := bytes.map (·, false)

/-- Bytes that are data. -/
def content (bytes : List UInt8) : Marked := bytes.map (·, true)

section Marks

variable (m n : Marked) (b : UInt8) (bs : List UInt8)

@[simp] theorem bytes_nil : Marked.bytes [] = [] := rfl

@[simp] theorem bytes_cons (x : UInt8 × Bool) : Marked.bytes (x :: m) = x.1 :: m.bytes := rfl

@[simp] theorem bytes_append : Marked.bytes (m ++ n) = m.bytes ++ n.bytes := List.map_append

@[simp] theorem length_bytes : m.bytes.length = m.length := List.length_map _

@[simp] theorem bytes_frame : (frame bs).bytes = bs := by
  simp [Marked.bytes, frame, Function.comp_def]

@[simp] theorem bytes_content : (content bs).bytes = bs := by
  simp [Marked.bytes, content, Function.comp_def]

@[simp] theorem data_nil : Marked.data [] = [] := rfl

@[simp] theorem data_cons_frame : Marked.data ((b, false) :: m) = m.data := rfl

@[simp] theorem data_cons_content : Marked.data ((b, true) :: m) = b :: m.data := rfl

@[simp] theorem data_append : Marked.data (m ++ n) = m.data ++ n.data := by
  simp [Marked.data]

@[simp] theorem data_frame : (frame bs).data = [] := by
  induction bs with
  | nil => rfl
  | cons b bs ih => exact ih

@[simp] theorem data_content : (content bs).data = bs := by
  induction bs with
  | nil => rfl
  | cons b bs ih => exact congrArg (b :: ·) ih

@[simp] theorem frame_nil : frame [] = [] := rfl

@[simp] theorem frame_cons : frame (b :: bs) = (b, false) :: frame bs := rfl

@[simp] theorem frame_append (bs' : List UInt8) : frame (bs ++ bs') = frame bs ++ frame bs' :=
  List.map_append

@[simp] theorem content_nil : content [] = [] := rfl

@[simp] theorem content_cons : content (b :: bs) = (b, true) :: content bs := rfl

theorem length_data_le : m.data.length ≤ m.length := by
  simp only [Marked.data, List.length_map]
  exact List.length_filter_le ..

end Marks

/-! ## 2. The grammar -/

/-- The value of a hexadecimal digit of either case: its place among the digits. -/
def hexPlace? (b : UInt8) : Option Nat :=
  "0123456789abcdef".toList.idxOf? (Char.ofNat b.toNat).toLower

/-- A number in hexadecimal, the most significant digit first. -/
def hexNumber (digits : List UInt8) : Nat :=
  digits.foldl (fun v b => 16 * v + (hexPlace? b).getD 0) 0

/-- The end of a line. -/
def lineEnd : List UInt8 := [13, 10]

/-- A line that says the size of a chunk: digits of a value below 2 to the 64th, then blanks, then
    perhaps an extension, and the end of the line. -/
def IsSizeLine (size : Nat) (line : List UInt8) : Prop :=
  ∃ digits blanks extension, line = digits ++ blanks ++ extension ++ lineEnd ∧
    digits ≠ [] ∧ (∀ b ∈ digits, (hexPlace? b).isSome) ∧ hexNumber digits = size ∧ size < UInt64.size ∧
    (∀ b ∈ blanks, b = 32 ∨ b = 9) ∧
    (extension = [] ∨ ∃ text, extension = 59 :: text ∧ ∀ b ∈ text, b ≠ 13 ∧ b ≠ 10)

/-- A chunk: a size line of a size that is not zero, as many bytes of data, and the end of a line. -/
def IsChunk (m : Marked) : Prop :=
  ∃ line data, IsSizeLine data.length line ∧ data ≠ [] ∧
    m = frame line ++ content data ++ frame lineEnd

/-- A trailer: a byte and further bytes, none of them a carriage return, and the end of a line. -/
def IsTrailer (t : List UInt8) : Prop :=
  ∃ b text, t = b :: text ++ lineEnd ∧ b ≠ 13 ∧ ∀ c ∈ text, c ≠ 13

/-- **A chunked body**: chunks, a size line of size zero, trailers, and an empty line. -/
def IsBody (m : Marked) : Prop :=
  ∃ (chunks : List Marked) (last : List UInt8) (trailers : List (List UInt8)),
    (∀ c ∈ chunks, IsChunk c) ∧ IsSizeLine 0 last ∧ (∀ t ∈ trailers, IsTrailer t) ∧
    m = chunks.flatten ++ frame (last ++ trailers.flatten ++ lineEnd)

/-- Bytes that some further bytes complete to a body. -/
def Viable (bytes : List UInt8) : Prop := ∃ m, IsBody m ∧ bytes <+: m.bytes

/-! ## 3. Digits -/

theorem hexDigit?_of_lt : ∀ n : Fin 256,
    hexDigit? (UInt8.ofNat n.val) = (hexPlace? (UInt8.ofNat n.val)).map UInt64.ofNat ∧
      ∀ v ∈ hexPlace? (UInt8.ofNat n.val), v < 16 := by
  decide +kernel

/-- The digits that a decoder knows are those of the grammar, and so are their values. -/
theorem hexDigit?_eq (b : UInt8) : hexDigit? b = (hexPlace? b).map UInt64.ofNat := by
  have h := (hexDigit?_of_lt ⟨b.toNat, b.toNat_lt⟩).1
  rwa [UInt8.ofNat_toNat] at h

theorem hexPlace?_lt {b : UInt8} {v : Nat} (h : hexPlace? b = some v) : v < 16 := by
  have hb := (hexDigit?_of_lt ⟨b.toNat, b.toNat_lt⟩).2
  rw [UInt8.ofNat_toNat] at hb
  exact hb v h

end Sluice.Http.Chunked
