/-
  File:      Sluice/Http/Chunked.lean
  Subject:   The chunked transfer coding, one byte at a time.

  * `ChunkState`, `ChunkDecoder`: where a decoder stands, and what is left of the current chunk;
  * `ChunkDecoder.stepByte`: one byte that is no chunk data;
  * `ChunkDecoder.decode`: on to the next piece of data, the end of the body, the end of the bytes
    at hand, or a fault;
  * `chunkFeeder`: a whole body of a stream, its data as output.

  A chunk is a size line in hexadecimal, with spaces and an extension ignored, its data, and a line
  end. A chunk of size zero is followed by trailer lines, which are ignored, and an empty line.
-/
import Sluice.Text.Radix
import Sluice.Wire.Feeder

namespace Sluice.Http

open Sluice.Wire

/-! ## 1. The machine -/

/-- What a decoder expects next. -/
inductive ChunkState where
  /-- the first digit of a size -/
  | sizeStart
  /-- more digits, or what ends them -/
  | size
  /-- blanks behind the size -/
  | sizeSpace
  /-- an extension, up to its carriage return -/
  | extension
  /-- the line feed of the size line -/
  | sizeFeed
  /-- data -/
  | data
  /-- the carriage return behind the data -/
  | dataReturn
  /-- the line feed behind the data -/
  | dataFeed
  /-- a trailer line, up to its carriage return -/
  | trailer
  /-- the line feed of a trailer line -/
  | trailerFeed
  /-- a trailer line or the carriage return of the last line -/
  | endReturn
  /-- the last line feed -/
  | endFeed
  /-- nothing: the body is complete -/
  | finished
  deriving DecidableEq, Repr

/-- The name of a state, for diagnostics. -/
def ChunkState.name : ChunkState → String
  | .sizeStart => "SizeStart"
  | .size => "Size"
  | .sizeSpace => "SizeLws"
  | .extension => "Extension"
  | .sizeFeed => "SizeLf"
  | .data => "Body"
  | .dataReturn => "BodyCr"
  | .dataFeed => "BodyLf"
  | .trailer => "Trailer"
  | .trailerFeed => "TrailerLf"
  | .endReturn => "EndCr"
  | .endFeed => "EndLf"
  | .finished => "End"

/-- A decoder between two bytes: its state, and the size read so far or what is left of the data
    of the chunk. -/
structure ChunkDecoder where
  state : ChunkState
  remaining : UInt64
  deriving DecidableEq, Repr

/-- The value of a hexadecimal digit. -/
def hexDigit? (b : UInt8) : Option UInt64 :=
  if 48 ≤ b && b ≤ 57 then some (b.toUInt64 - 48)
  else if 97 ≤ b && b ≤ 102 then some (b.toUInt64 - 87)
  else if 65 ≤ b && b ≤ 70 then some (b.toUInt64 - 55)
  else none

namespace ChunkDecoder

/-- Before the first byte of a body. -/
def fresh : ChunkDecoder := ⟨.sizeStart, 0⟩

/-- The body is complete. -/
def isFinished (d : ChunkDecoder) : Bool := d.state == .finished

/-- The decoder for diagnostics. -/
def summary (d : ChunkDecoder) : String :=
  s!"ChunkedDecoder \x7b state: {d.state.name}, remaining_size: {d.remaining} \x7d"

/-- The decoder in another state. -/
def goto (d : ChunkDecoder) (s : ChunkState) : ChunkDecoder := { d with state := s }

/-- One more digit of a size, which must stay below 2 to the 64th. -/
def pushDigit (d : ChunkDecoder) (digit : UInt64) : Except ChunkFault ChunkDecoder :=
  match Radix.mul? d.remaining 16 with
  | none => .error .sizeOverflow
  | some high =>
    match Radix.add? high digit with
    | none => .error .sizeOverflow
    | some n => .ok ⟨.size, n⟩

/-- One byte outside the data of a chunk. -/
def stepByte (d : ChunkDecoder) (b : UInt8) : Except ChunkFault ChunkDecoder :=
  match d.state with
  | .sizeStart =>
    match hexDigit? b with
    | some digit => .ok ⟨.size, digit⟩
    | none => .error (.noSize b)
  | .size =>
    if b = 9 ∨ b = 32 then .ok (d.goto .sizeSpace)
    else if b = 59 then .ok (d.goto .extension)
    else if b = 13 then .ok (d.goto .sizeFeed)
    else
      match hexDigit? b with
      | some digit => d.pushDigit digit
      | none => .error (.badSizeByte b)
  | .sizeSpace =>
    if b = 9 ∨ b = 32 then .ok (d.goto .sizeSpace)
    else if b = 59 then .ok (d.goto .extension)
    else if b = 13 then .ok (d.goto .sizeFeed)
    else .error .badSizeSpace
  | .extension =>
    if b = 13 then .ok (d.goto .sizeFeed)
    else if b = 10 then .error .lineFeedInExtension
    else .ok (d.goto .extension)
  | .sizeFeed =>
    if b = 10 then .ok (d.goto (if d.remaining = 0 then .endReturn else .data))
    else .error .noLineFeedAfterSize
  | .data | .dataReturn =>
    if b = 13 then .ok (d.goto .dataFeed) else .error .noReturnAfterData
  | .dataFeed => if b = 10 then .ok (d.goto .sizeStart) else .error .noLineFeedAfterData
  | .trailer => .ok (d.goto (if b = 13 then .trailerFeed else .trailer))
  | .trailerFeed => if b = 10 then .ok (d.goto .endReturn) else .error .noLineFeedAfterTrailer
  | .endReturn => .ok (d.goto (if b = 13 then .endFeed else .trailer))
  | .endFeed => if b = 10 then .ok (d.goto .finished) else .error .noFinalLineFeed
  | .finished => .ok d

/-- A chunk whose data is complete is left before the next byte is looked at. -/
def leaveData (d : ChunkDecoder) : ChunkDecoder :=
  if d.state = .data ∧ d.remaining = 0 then d.goto .dataReturn else d

/-- Some data of the current chunk: the decoder behind it. -/
def takeData (d : ChunkDecoder) (n : Nat) : ChunkDecoder :=
  let left := d.remaining - UInt64.ofNat n
  ⟨if left = 0 then .dataReturn else .data, left⟩

end ChunkDecoder

/-! ## 2. Decoding -/

/-- What a call of `decode` comes to. -/
inductive ChunkItem where
  /-- data of the body -/
  | chunk (data : List UInt8)
  /-- the body is complete -/
  | finished
  /-- the bytes at hand are used up -/
  | more
  | fault (f : ChunkFault)
  deriving DecidableEq, Repr

/-- A call of `decode`: the decoder after it, what it came to, how many bytes it used, and those
    that it did not use. -/
structure Decoded where
  decoder : ChunkDecoder
  item : ChunkItem
  used : Nat
  rest : List UInt8
  deriving DecidableEq, Repr

/-- The same call with one more byte in front, which it used. -/
def Decoded.behindByte (r : Decoded) : Decoded := { r with used := r.used + 1 }

namespace ChunkDecoder

/-- Decodes on. Data is handed out as soon as some is found; a fault uses up its byte and leaves
    the state as it was before that byte. -/
def decode (d : ChunkDecoder) : List UInt8 → Decoded
  | [] => ⟨d, if d.state = .finished then .finished else .more, 0, []⟩
  | b :: bs =>
    if d.state = .finished then ⟨d, .finished, 0, b :: bs⟩
    else if d.state = .data ∧ d.remaining ≠ 0 then
      let data := (b :: bs).take d.remaining.toNat
      ⟨d.takeData data.length, .chunk data, data.length, (b :: bs).drop data.length⟩
    else
      match d.leaveData.stepByte b with
      | .error f => ⟨d.leaveData, .fault f, 1, bs⟩
      | .ok d => (d.decode bs).behindByte

/-- What was at hand is the bytes that were used and those that were not. -/
theorem drop_used (d : ChunkDecoder) (bs : List UInt8) :
    bs.drop (d.decode bs).used = (d.decode bs).rest := by
  induction bs generalizing d with
  | nil => simp [decode]
  | cons b bs ih =>
    unfold decode
    split
    · rfl
    · split
      · rfl
      · split
        · rfl
        · exact ih _

/-- **Decoding uses up a byte** whenever there is one, unless the body is complete. -/
theorem used_pos {d : ChunkDecoder} (hd : d.state ≠ .finished) (b : UInt8) (bs : List UInt8) :
    0 < (d.decode (b :: bs)).used := by
  unfold decode
  rw [if_neg hd]
  split
  · rename_i h
    have : 0 < d.remaining.toNat := by
      rcases Nat.eq_zero_or_pos d.remaining.toNat with h0 | h0
      · exact absurd (UInt64.toNat_inj.mp h0) h.2
      · exact h0
    simp
    omega
  · split
    · exact Nat.one_pos
    · exact Nat.succ_pos _

end ChunkDecoder

/-! ## 3. Whole bodies -/

/-- A decoder, and how much data it handed out since it was started on the present body. -/
structure ChunkProgress where
  decoder : ChunkDecoder
  written : Nat
  deriving DecidableEq, Repr

/-- The machine that reads a chunked body: the data is its output, the number of data bytes its
    result. A fault leaves the bytes of its step unread. -/
def chunkFeeder : Feeder ChunkProgress Nat where
  feed s bytes :=
    let r := s.decoder.decode bytes
    match r.item with
    | .chunk data => ⟨⟨r.decoder, s.written + data.length⟩, data, r.used, .more⟩
    | .finished => ⟨⟨r.decoder, s.written⟩, [], r.used, .done s.written⟩
    | .more => ⟨⟨r.decoder, s.written⟩, [], r.used, .more⟩
    | .fault f => ⟨⟨r.decoder, s.written⟩, [], 0, .fault (.chunk f)⟩
  atEnd s :=
    if s.decoder.isFinished then .ok s.written else .error (.endOfInput .chunkedBody)
  consumed_pos s b bs h := by
    by_cases hf : s.decoder.state = .finished
    · have : (s.decoder.decode (b :: bs)).item = .finished := by simp [ChunkDecoder.decode, hf]
      simp [this] at h
    · have hpos := ChunkDecoder.used_pos hf b bs
      dsimp only at h ⊢
      cases hi : (s.decoder.decode (b :: bs)).item with
      | chunk data => simp only [hpos]
      | more => simp only [hpos]
      | finished => simp only [hi, reduceCtorEq] at h
      | fault f => simp only [hi, reduceCtorEq] at h

namespace ChunkDecoder

/-- Decodes a body of a stream into a sink. The decoder goes on where it stood; the result is the
    number of data bytes of this call. -/
def decodeTo (d : ChunkDecoder) (source : Source) (sink : Sink) : Outcome ChunkProgress Nat :=
  chunkFeeder.run ⟨d, 0⟩ source sink

end ChunkDecoder

end Sluice.Http
