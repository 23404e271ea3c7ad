/-
  File:      Sluice/Wire/Sink.lean
  Subject:   Where bytes are written, with a limit on the whole and on each single write.

  * `Sink`, `write`: one write takes some bytes, or fails when there is no room left;
  * `writeAll`: writing on until all bytes are taken;
  * `shutdown`: the end of the output.
-/
import Sluice.Wire.ByteQueue
import Sluice.Wire.Failure

namespace Sluice.Wire

/-- The receiver of a byte stream. -/
structure Sink where
  written : ByteQueue
  limit : Option Nat
  perWrite : Option Nat
  shutdownFailure : Option Failure
  closed : Bool
  deriving Repr

namespace Sink

/-- A receiver of at most `limit` bytes, `perWrite` of them at a time. -/
def ofLimits (limit perWrite : Option Nat) (shutdownFailure : Option Failure) : Sink :=
  ⟨.empty, limit, perWrite, shutdownFailure, false⟩

/-- A receiver that takes everything. -/
def unlimited : Sink := ofLimits none none none

/-- The failure of a receiver that is full. -/
def full : Failure := .other "sink full"

/-- How many more bytes there is room for, if that is limited. -/
def room (s : Sink) : Option Nat := s.limit.map (· - s.written.size)

/-- At most so many of the bytes, from the first one on; all of them without a limit. -/
def upTo (most : Option Nat) (bytes : List UInt8) : List UInt8 :=
  match most with
  | some n => bytes.take n
  | none => bytes

/-- One write: how many bytes were taken, from the first one on. -/
def write (s : Sink) (bytes : List UInt8) : Except Failure (Nat × Sink) :=
  if s.room = some 0 then .error full
  else
    let taken := upTo s.room (upTo s.perWrite bytes)
    .ok (taken.length, { s with written := s.written.append taken })

/-- Writes until all bytes are taken. A write that takes none is a failure. What was taken before
    a failure stays written. -/
def writeAll (s : Sink) (bytes : List UInt8) : Option Failure × Sink :=
  match bytes with
  | [] => (none, s)
  | b :: bs =>
    match s.write (b :: bs) with
    | .error f => (some f, s)
    | .ok (0, s) => (some .writeZero, s)
    | .ok (n + 1, s) => s.writeAll (bs.drop n)
termination_by bytes.length
decreasing_by
  simp only [List.length_drop, List.length_cons]
  omega

/-- Ends the output. -/
def shutdown (s : Sink) : Option Failure × Sink :=
  match s.shutdownFailure with
  | some f => (some f, s)
  | none => (none, { s with closed := true })

@[simp] theorem writeAll_nil (s : Sink) : s.writeAll [] = (none, s) := by
  rw [writeAll]

/-- At most so many bytes are the first so many. -/
theorem upTo_eq_take (most : Option Nat) (bytes : List UInt8) :
    upTo most bytes = bytes.take (upTo most bytes).length := by
  cases most with
  | none => simp [upTo]
  | some n => simp [upTo, List.take_eq_take_iff]

/-- **One write** puts the first bytes behind those that were written. -/
theorem written_write {s t : Sink} {bytes : List UInt8} {n : Nat}
    (h : s.write bytes = .ok (n, t)) :
    t.written.toList = s.written.toList ++ bytes.take n ∧ n ≤ bytes.length := by
  unfold write at h
  split at h
  · cases h
  · cases h
    have hp := upTo_eq_take s.perWrite bytes
    have hr := upTo_eq_take s.room (upTo s.perWrite bytes)
    generalize upTo s.perWrite bytes = offered at hp hr ⊢
    generalize upTo s.room offered = taken at hr ⊢
    have hle : taken.length ≤ offered.length := by rw [hr]; exact List.length_take_le' ..
    have hle' : offered.length ≤ bytes.length := by rw [hp]; exact List.length_take_le' ..
    refine ⟨?_, Nat.le_trans hle hle'⟩
    rw [ByteQueue.toList_append]
    congr 1
    rw [hp, List.take_take, Nat.min_eq_left hle] at hr
    exact hr

end Sink

end Sluice.Wire
