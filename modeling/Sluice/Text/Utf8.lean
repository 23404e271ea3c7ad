/-
  File:      Sluice/Text/Utf8.lean
  Subject:   UTF-8, with the place and the kind of the first fault.

  * `encode`: the bytes of a text;
  * `decode`: the text of some bytes, or where the first sequence that is no character starts and
    how many bytes of it are wrong together (`none`: the bytes end inside it);
  * `places`, `offset`, `cut`: where characters start among the bytes, and the characters between two
    such places.
-/
import Sluice.Text.Fold

namespace Sluice.Utf8

/-- The first fault of a byte string: the number of bytes before it that are well formed, and the
    length of the faulty sequence, `none` if the input ends inside a sequence good so far. -/
structure Fault where
  validUpTo : Nat
  length : Option Nat
  deriving DecidableEq, Repr

/-- The fault in words. -/
def Fault.message (f : Fault) : String :=
  match f.length with
  | some n => s!"invalid utf-8 sequence of {n} bytes from index {f.validUpTo}"
  | none => s!"incomplete utf-8 byte sequence from index {f.validUpTo}"

/-- The bytes of a text. -/
def encode (t : Text) : List UInt8 := t.flatMap String.utf8EncodeChar

/-- A byte that continues a character. -/
def isTail (b : UInt8) : Bool := 0x80 ≤ b && b ≤ 0xBF

/-- What the first byte of a character asks for: nothing more, or one, two or three bytes, of
    which the first lies between the two bounds. -/
inductive Lead where
  | one
  | two
  | three (low high : UInt8)
  | four (low high : UInt8)
  | bad
  deriving DecidableEq, Repr

/-- The kind of a first byte. Overlong forms, surrogates and numbers past the last code point are
    ruled out by the bounds on the second byte. -/
def lead (b : UInt8) : Lead :=
  if b < 0x80 then .one
  else if b < 0xC2 then .bad
  else if b < 0xE0 then .two
  else if b = 0xE0 then .three 0xA0 0xBF
  else if b = 0xED then .three 0x80 0x9F
  else if b < 0xF0 then .three 0x80 0xBF
  else if b = 0xF0 then .four 0x90 0xBF
  else if b < 0xF4 then .four 0x80 0xBF
  else if b = 0xF4 then .four 0x80 0x8F
  else .bad

/-- The payload of a continuation byte. -/
def low6 (b : UInt8) : Nat := b.toNat % 64

/-- The characters of `bytes`, the first byte standing at position `i`. -/
def decodeFrom (i : Nat) : List UInt8 → Except Fault Text
  | [] => .ok []
  | a :: r =>
    match lead a with
    | .one => (decodeFrom (i + 1) r).map (Char.ofNat a.toNat :: ·)
    | .bad => .error ⟨i, some 1⟩
    | .two =>
      match r with
      | [] => .error ⟨i, none⟩
      | b :: r =>
        if isTail b then
          (decodeFrom (i + 2) r).map (Char.ofNat (a.toNat % 32 * 64 + low6 b) :: ·)
        else .error ⟨i, some 1⟩
    | .three low high =>
      match r with
      | [] => .error ⟨i, none⟩
      | b :: r =>
        if low ≤ b && b ≤ high then
          match r with
          | [] => .error ⟨i, none⟩
          | c :: r =>
            if isTail c then
              (decodeFrom (i + 3) r).map
                (Char.ofNat ((a.toNat % 16 * 64 + low6 b) * 64 + low6 c) :: ·)
            else .error ⟨i, some 2⟩
        else .error ⟨i, some 1⟩
    | .four low high =>
      match r with
      | [] => .error ⟨i, none⟩
      | b :: r =>
        if low ≤ b && b ≤ high then
          match r with
          | [] => .error ⟨i, none⟩
          | c :: r =>
            if isTail c then
              match r with
              | [] => .error ⟨i, none⟩
              | d :: r =>
                if isTail d then
                  (decodeFrom (i + 4) r).map
                    (Char.ofNat (((a.toNat % 8 * 64 + low6 b) * 64 + low6 c) * 64 + low6 d) :: ·)
                else .error ⟨i, some 3⟩
            else .error ⟨i, some 2⟩
        else .error ⟨i, some 1⟩

/-- The text of a byte string, or its first fault. -/
def decode (bytes : List UInt8) : Except Fault Text := decodeFrom 0 bytes

/-- The characters of a text, each with the place of its first byte; the first one starts at `i`. -/
def places (i : Nat) : Text → List (Nat × Char)
  | [] => []
  | c :: cs => (i, c) :: places (i + c.utf8Size) cs

/-- Where the `n`-th character of a text starts among its bytes; behind the last one, where the bytes
    end. -/
def offset (t : Text) (n : Nat) : Nat :=
  match (places 0 t)[n]? with
  | some (i, _) => i
  | none => (encode t).length

/-- The characters of a text whose bytes lie from `start` up to `stop`. -/
def cut (t : Text) (start stop : Nat) : Text :=
  ((places 0 t).filter fun p => start ≤ p.1 && p.1 < stop).map Prod.snd

@[simp] theorem encode_nil : encode [] = [] := rfl

@[simp] theorem encode_append (s t : Text) : encode (s ++ t) = encode s ++ encode t := by
  simp [encode]

@[simp] theorem decode_nil : decode [] = .ok [] := by simp [decode, decodeFrom]

end Sluice.Utf8
