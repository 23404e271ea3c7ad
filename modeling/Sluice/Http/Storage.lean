/-
  File:      Sluice/Http/Storage.lean
  Subject:   The pools that the connections of a server share.

  * `StorageConfig`: the sizes of the pools and of the chunks in them;
  * `Storage`, `Storage.ofConfig`: the pools of character chunks, byte chunks and header indexes;
  * `Storage.store`: what the next message head is laid down in;
  * `Storage.scratch`: bytes appended to a byte chunk, and the chunk that comes after it.
-/
import Sluice.Buffer.Builder
import Sluice.Http.Message

namespace Sluice.Http

open Sluice.Pool (PoolError Chunk Policy Placed valid_ofCapacity)

/-- The sizes of the pools. -/
structure StorageConfig where
  charChunkSize : Nat
  charChunkPoolSize : Nat
  byteChunkSize : Nat
  byteChunkPoolSize : Nat
  headerArrayPoolSize : Nat
  deriving DecidableEq, Repr

namespace StorageConfig

/-- Chunks of a page, and pools for a busy server. -/
def standard : StorageConfig := ⟨4096, 4096, 4096, 4096, 1000⟩

/-- The sizes for diagnostics. -/
def summary (c : StorageConfig) : String :=
  s!"PoolConfig \x7b char_chunk_size: {c.charChunkSize}, " ++
    s!"char_chunk_pool_size: {c.charChunkPoolSize}, byte_chunk_size: {c.byteChunkSize}, " ++
    s!"byte_chunk_pool_size: {c.byteChunkPoolSize}, " ++
    s!"header_array_pool_size: {c.headerArrayPoolSize} \x7d"

end StorageConfig

/-- The pools of a server. -/
structure Storage where
  charChunkSize : Nat
  charChunkSize_pos : 0 < charChunkSize
  charChunks : CharPool
  byteChunks : Pool (Chunk UInt8)
  headerArrays : Pool (List UInt32)
  headerArrays_policy : headerArrays.policy = .zeros headerArraySize
  headerArrays_valid : headerArrays.Valid

namespace Storage

/-- The pools of the given sizes. The chunk size is looked at first, then the pools in turn. -/
def ofConfig (c : StorageConfig) : Except PoolError Storage :=
  if h : c.charChunkSize = 0 then .error (.zeroCapacity c.charChunkSize)
  else do
    let charChunks ← Pool.ofCapacity c.charChunkPoolSize (Policy.chunks c.charChunkSize)
    let byteChunks ← Pool.ofCapacity c.byteChunkPoolSize (Policy.chunks c.byteChunkSize)
    match ha : Pool.ofCapacity c.headerArrayPoolSize (Policy.zeros headerArraySize) with
    | .error e => .error e
    | .ok headerArrays =>
      let ⟨hpolicy, hvalid⟩ := valid_ofCapacity ha
      .ok ⟨c.charChunkSize, Nat.pos_of_ne_zero h, charChunks, byteChunks, headerArrays, hpolicy,
        hvalid⟩

/-- The pools for diagnostics. -/
def summary (s : Storage) : String :=
  s!"HttpPools \x7b char_chunks: {s.charChunks.capacity}, char_chunk_size: {s.charChunkSize}, " ++
    s!"byte_chunks: {s.byteChunks.capacity}, header_arrays: {s.headerArrays.capacity} \x7d"

/-- Every index array that the pool hands out has room for all headers. -/
theorem length_borrow_headerArrays (s : Storage) (address : UInt64) :
    (s.headerArrays.borrow address).1.value.length = headerArraySize := by
  have h := Pool.validate_borrow s.headerArrays_valid
    (by simp [s.headerArrays_policy, Policy.zeros]) (by simp [s.headerArrays_policy, Policy.zeros])
    address
  simpa [s.headerArrays_policy, Policy.zeros] using h

/-- What a message head is laid down in: chunks of the pool's size, and the index array that the
    pool hands out next. -/
def store (s : Storage) : Store where
  chunkSize := s.charChunkSize
  chunkSize_pos := s.charChunkSize_pos
  cells := (s.headerArrays.borrow 0).1.value.toArray
  cells_size := by rw [List.size_toArray, s.length_borrow_headerArrays]

/-- A builder over the pool of character chunks. -/
def builder (s : Storage) : Builder := .empty s.charChunkSize s.charChunkSize_pos

/-- A byte chunk, placed at `address` if it is new. -/
def byteChunk (s : Storage) (address : UInt64) : Placed (Chunk UInt8) × Storage :=
  let (a, pool) := s.byteChunks.borrow address
  (a, { s with byteChunks := pool })

/-- A byte chunk given back. -/
def recycleBytes (s : Storage) (a : Placed (Chunk UInt8)) : Storage :=
  { s with byteChunks := s.byteChunks.recycle a }

/-- A byte chunk for diagnostics. -/
def bytesSummary (c : Chunk UInt8) : String :=
  s!"PooledBytes \x7b len: {c.elements.length}, .. \x7d"

end Storage

end Sluice.Http
