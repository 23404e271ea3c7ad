/-
  File:      Sluice/Buffer/CharBuffer.lean
  Subject:   A growing text in chunks of one size.

  * `CharBuffer`: chunks of characters, all full but the last, and the number of characters;
  * `push`, `fillFrom`, `append`: growing, each new chunk taken from a supply the caller names;
  * `charAt?`, `copyRange`: reading by position, in constant time and chunk by chunk;
  * `toText`: the view, the concatenation of the chunks;
  * `Supply.fresh`: the supply that makes every chunk anew.
-/
import Sluice.Text.Fold

namespace Sluice

/-- A read outside a text. -/
inductive BufferError where
  | indexOutOfBounds (index size : Nat)
  | invalidRange (start stop size : Nat)
  deriving DecidableEq, Repr

/-- The error in words. -/
def BufferError.message : BufferError → String
  | .indexOutOfBounds index size => s!"index {index} is not in range [0, {size})"
  | .invalidRange start stop size => s!"range [{start}, {stop}) is not valid for length {size}"

/-- Where new chunks come from: a state, and the next chunk it hands out. -/
structure ChunkSupply (σ : Type) where
  take : σ → Array Char × σ

namespace ChunkSupply

/-- Every chunk made anew, and empty. -/
def fresh : ChunkSupply Unit := ⟨fun s => (#[], s)⟩

end ChunkSupply

/-- A text in chunks of `chunkSize` characters. -/
structure CharBuffer where
  chunkSize : Nat
  chunkSize_pos : 0 < chunkSize
  chunks : Array (Array Char)
  size : Nat
  deriving Repr

namespace CharBuffer

/-! ## 1. Growing -/

/-- The buffer without text. -/
def empty (chunkSize : Nat) (h : 0 < chunkSize) : CharBuffer := ⟨chunkSize, h, #[], 0⟩

/-- The next character needs a new chunk: there is none yet, or the last one is full. -/
def needsChunk (b : CharBuffer) : Bool :=
  match b.chunks.back? with
  | none => true
  | some chunk => b.chunkSize ≤ chunk.size

/-- The buffer with a chunk to write into: the last one, or a new one if the next character needs
    it. -/
def writable {σ : Type} (supply : ChunkSupply σ) (s : σ) (b : CharBuffer) : CharBuffer × σ :=
  if b.needsChunk then
    let (chunk, s) := supply.take s
    ({ b with chunks := b.chunks.push chunk }, s)
  else (b, s)

/-- How many characters the last chunk has room for. -/
def room (b : CharBuffer) : Nat := b.chunkSize - (b.chunks.back?.getD #[]).size

/-- Characters into the last chunk. -/
def extend (b : CharBuffer) (t : Text) : CharBuffer :=
  { b with
    chunks := b.chunks.modify (b.chunks.size - 1) (· ++ t.toArray)
    size := b.size + t.length }

/-- One character more. -/
def push {σ : Type} (supply : ChunkSupply σ) (s : σ) (b : CharBuffer) (c : Char) :
    CharBuffer × σ :=
  let (b, s) := b.writable supply s
  (b.extend [c], s)

/-- A text behind what is there, as much of it at a time as the last chunk has room for. A chunk
    that comes without room ends it. -/
def fillFrom {σ : Type} (supply : ChunkSupply σ) (s : σ) (b : CharBuffer) :
    Text → CharBuffer × σ
  | [] => (b, s)
  | c :: cs =>
    let (b, s) := b.writable supply s
    let t := c :: cs
    if 0 < b.room then fillFrom supply s (b.extend (t.take b.room)) (t.drop b.room) else (b, s)
termination_by t => t.length
decreasing_by
  rw [List.length_drop]
  exact Nat.sub_lt (Nat.succ_pos _) ‹_›

/-- A text behind what is there, one character after the other. -/
def appendFrom {σ : Type} (supply : ChunkSupply σ) (s : σ) (b : CharBuffer) :
    Text → CharBuffer × σ
  | [] => (b, s)
  | c :: cs =>
    let (b, s) := b.push supply s c
    appendFrom supply s b cs

/-- A text behind what is there, in fresh chunks. -/
def append (b : CharBuffer) (t : Text) : CharBuffer := (b.appendFrom .fresh () t).1

/-! ## 2. Reading -/

/-- The whole text. -/
def toText (b : CharBuffer) : Text := b.chunks.toList.flatMap Array.toList

/-- The character at a position: place `i % chunkSize` of chunk `i / chunkSize`. -/
def charAt? (b : CharBuffer) (i : Nat) : Option Char :=
  match b.chunks[i / b.chunkSize]? with
  | none => none
  | some chunk => chunk[i % b.chunkSize]?

/-- What the chunks from the one that starts at `base` hold of the range. -/
def copyFrom (b : CharBuffer) (start stop base : Nat) : Text :=
  if base < stop then
    let chunk := (b.chunks[base / b.chunkSize]?).getD #[]
    let first := start - base
    let last := min (stop - base) b.chunkSize
    (chunk.toList.drop first).take (last - first) ++ b.copyFrom start stop (base + b.chunkSize)
  else []
termination_by stop - base
decreasing_by
  have := b.chunkSize_pos
  omega

/-- The text from `start` up to `stop`, gathered from the chunks it meets. -/
def copyRange (b : CharBuffer) (start stop : Nat) : Text :=
  b.copyFrom start stop (start - start % b.chunkSize)

@[simp] theorem toText_empty (n : Nat) (h : 0 < n) : (empty n h).toText = [] := rfl

@[simp] theorem size_empty (n : Nat) (h : 0 < n) : (empty n h).size = 0 := rfl

end CharBuffer

end Sluice
