/-
  File:      Sluice/Buffer/Builder.lean
  Subject:   Char buffers whose chunks are borrowed from a pool.

  * `Builder`: a buffer, the lease of each of its chunks, and its text once it was rendered;
  * `push`, `append`, `release`: growing from the pool and giving everything back to it;
  * `render`: the text, kept until the next change;
  * `Bench`, `Bench.step`: several builders over one pool, and what each use of one answers.
-/
import Sluice.Buffer.TextView
import Sluice.Pool.Basic

namespace Sluice

/-- What a borrowed chunk has to be given back with: its address and the room it has. -/
structure Lease where
  address : UInt64
  capacity : Nat
  deriving DecidableEq, Repr

/-- The pool of character chunks. -/
abbrev CharPool := Pool (Pool.Chunk Char)

namespace CharPool

/-- Chunks out of a pool, their leases gathered in the order of borrowing; `place` says at which
    address the `n`-th chunk the pool makes will lie. -/
def supply (place : Nat → UInt64) : ChunkSupply (CharPool × Array Lease) where
  take s :=
    let (a, pool) := s.1.borrow (place (s.1.tally.produced + 1))
    (a.value.elements.toArray, (pool, s.2.push ⟨a.address, a.value.capacity⟩))

end CharPool

/-- A buffer over a pool. -/
structure Builder where
  buffer : CharBuffer
  leases : Array Lease
  rendered : Option Text
  deriving Repr

namespace Builder

/-- A builder that holds nothing yet. -/
def empty (chunkSize : Nat) (h : 0 < chunkSize) : Builder := ⟨.empty chunkSize h, #[], none⟩

/-- A text behind what is there. -/
def append (place : Nat → UInt64) (pool : CharPool) (b : Builder) (t : Text) :
    Builder × CharPool :=
  let (buffer, pool, leases) := b.buffer.fillFrom (CharPool.supply place) (pool, b.leases) t
  (⟨buffer, leases, none⟩, pool)

/-- A character behind what is there. -/
def push (place : Nat → UInt64) (pool : CharPool) (b : Builder) (c : Char) : Builder × CharPool :=
  let (buffer, pool, leases) := b.buffer.push (CharPool.supply place) (pool, b.leases) c
  (⟨buffer, leases, none⟩, pool)

/-- The chunks as the pool gets them back: with what was written into them. -/
def instances (b : Builder) : List (Pool.Placed (Pool.Chunk Char)) :=
  (b.buffer.chunks.toList.zip b.leases.toList).map fun (chunk, lease) =>
    ⟨lease.address, ⟨chunk.toList, max lease.capacity chunk.size⟩⟩

/-- Every chunk back to the pool, the first one first. -/
def release (pool : CharPool) (b : Builder) : Builder × CharPool :=
  (.empty b.buffer.chunkSize b.buffer.chunkSize_pos, b.instances.foldl Pool.recycle pool)

/-- The text, rendered at most once between two changes. -/
def render (b : Builder) : Text × Builder :=
  match b.rendered with
  | some t => (t, b)
  | none =>
    let t := b.buffer.copyRange 0 b.buffer.size
    (t, { b with rendered := some t })

/-- The builder for diagnostics: its length and the number of its chunks. -/
def summary (b : Builder) : String :=
  s!"CharBufferBuilder \x7b len: {b.buffer.size}, chunks: {b.buffer.chunks.size}, .. \x7d"

end Builder

/-! ## Several builders over one pool -/

/-- One pool and the builders that share it. -/
structure Bench where
  place : Nat → UInt64
  pool : CharPool
  builders : Array Builder

namespace Bench

/-- A use of one builder. -/
inductive Use where
  | push (c : Char)
  | append (t : Text)
  | release
  | renew
  | info
  | render
  | get (i : Nat)
  | sub (start stop : Nat)
  | copy (start stop : Nat)
  | hash (start stop : Nat)
  | eqFold (start stop : Nat) (t : Text)
  deriving DecidableEq, Repr

/-- What a use answers. -/
inductive Answer where
  | changed (size : Nat) (summary : String)
  | info (size : Nat) (isEmpty : Bool) (chunkSize : Nat)
  | text (t : Text)
  | char (c : Except BufferError Char)
  | view (v : Except BufferError TextView)
  | hash (h : Except BufferError UInt32)
  | truth (b : Except BufferError Bool)

/-- The answer of a use that changes a builder. -/
def changed (b : Builder) : Answer := .changed b.buffer.size b.summary

/-- One use of one builder: the builder and the pool after it, and the answer. -/
def apply (place : Nat → UInt64) (pool : CharPool) (b : Builder) : Use → Builder × CharPool × Answer
  | .push c =>
    let (b, pool) := b.push place pool c
    (b, pool, changed b)
  | .append t =>
    let (b, pool) := b.append place pool t
    (b, pool, changed b)
  | .release | .renew =>
    let (b, pool) := b.release pool
    (b, pool, changed b)
  | .info => (b, pool, .info b.buffer.size (b.buffer.size == 0) b.buffer.chunkSize)
  | .render =>
    let (t, b) := b.render
    (b, pool, .text t)
  | .get i => (b, pool, .char (b.buffer.get i))
  | .sub start stop => (b, pool, .view (b.buffer.sub start stop))
  | .copy start stop => (b, pool, .text (b.buffer.copyRange start stop))
  | .hash start stop => (b, pool, .hash (b.buffer.hashLower start stop))
  | .eqFold start stop t => (b, pool, .truth (b.buffer.eqFold start stop t))

/-- `n` empty builders over an empty pool. -/
def ofPool (place : Nat → UInt64) (pool : CharPool) (n chunkSize : Nat) (h : 0 < chunkSize) :
    Bench :=
  ⟨place, pool, Array.replicate n (.empty chunkSize h)⟩

/-- A use of the builder with the given number; nothing if there is no such builder. -/
def step (s : Bench) (i : Nat) (u : Use) : Option (Answer × Bench) :=
  match s.builders[i]? with
  | none => none
  | some b =>
    let (b, pool, answer) := apply s.place s.pool b u
    some (answer, { s with pool, builders := s.builders.setIfInBounds i b })

end Bench

end Sluice
