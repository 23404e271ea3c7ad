/-
  File:      Sluice/Connection/Pipe.lean
  Subject:   A bounded pipe between two parties.

  * `Pipe`: what is written and not yet fetched, and which of the two ends is gone;
  * `Pipe.write`: takes as much as there is room for, blocks when there is none, and breaks when
    nobody will fetch it;
  * `Pipe.fetch`: gives what is there, blocks when there is nothing, and ends behind a closed end.

  No byte is lost, repeated or reordered (`write_accepted`, `fetch_data`), and a write or a fetch
  that goes on moves at least one byte.
-/
import Sluice.Wire.ByteQueue

namespace Sluice.Connection

open Sluice.Wire

/-- A pipe: `closed` when no more will be written, `dropped` when no more will be fetched. -/
structure Pipe where
  capacity : Nat
  content : ByteQueue
  closed : Bool
  dropped : Bool
  deriving Repr

/-- What a write into a pipe comes to. -/
inductive Written where
  | accepted (n : Nat) (pipe : Pipe)
  | blocked
  | broken
  deriving Repr

/-- What fetching from a pipe comes to. -/
inductive Fetched where
  | data (bytes : List UInt8) (pipe : Pipe)
  | blocked
  | ended
  deriving Repr

namespace Pipe

/-- An empty pipe. -/
def ofCapacity (capacity : Nat) : Pipe := ⟨capacity, .empty, false, false⟩

/-- A pipe through which nothing comes. -/
def nothing : Pipe := ⟨0, .empty, true, false⟩

/-- No more will be written. -/
def close (p : Pipe) : Pipe := { p with closed := true }

/-- No more will be fetched. -/
def drop (p : Pipe) : Pipe := { p with dropped := true }

/-- The room that is left. -/
def room (p : Pipe) : Nat := p.capacity - p.content.size

/-- Writes as much as there is room for. -/
def write (p : Pipe) (bytes : List UInt8) : Written :=
  if p.dropped then .broken
  else if p.room = 0 then .blocked
  else
    let taken := bytes.take p.room
    .accepted taken.length { p with content := p.content.append taken }

/-- Fetches what is there, at most `most` bytes. -/
def fetch (p : Pipe) (most : Nat) : Fetched :=
  if p.content.size = 0 then if p.closed then .ended else .blocked
  else
    let r := p.content.split most
    .data r.1 { p with content := r.2 }

@[simp] theorem content_close (p : Pipe) : p.close.content = p.content := rfl

@[simp] theorem content_drop (p : Pipe) : p.drop.content = p.content := rfl

/-- **An accepted write** puts the first bytes behind the content, and at least one of them. -/
theorem write_accepted {p q : Pipe} {bytes : List UInt8} {n : Nat}
    (h : p.write bytes = .accepted n q) :
    q.content.toList = p.content.toList ++ bytes.take n ∧ n ≤ bytes.length ∧
      (bytes ≠ [] → 0 < n) := by
  unfold write at h
  split at h
  · cases h
  · split at h
    · cases h
    · cases h
      refine ⟨?_, ?_, fun hb => ?_⟩
      · rw [ByteQueue.toList_append, List.length_take, List.take_eq_take_iff.mpr]
        omega
      · simp only [List.length_take]
        omega
      · have := List.length_pos_iff.mpr hb
        simp only [List.length_take]
        omega

/-- **Fetching** takes bytes off the front of the content, and at least one of them. -/
theorem fetch_data {p q : Pipe} {most : Nat} {bytes : List UInt8}
    (h : p.fetch most = .data bytes q) :
    p.content.toList = bytes ++ q.content.toList ∧ bytes.length ≤ most ∧
      (0 < most → bytes ≠ []) := by
  unfold fetch at h
  split at h
  · split at h <;> cases h
  · rename_i hc
    obtain ⟨rfl, rfl⟩ := Fetched.data.inj h
    obtain ⟨hfirst, hrest⟩ := p.content.split_eq most
    refine ⟨?_, ?_, fun hm => ?_⟩
    · rw [hfirst, hrest, List.take_append_drop]
    · rw [hfirst]
      exact List.length_take_le ..
    · rw [hfirst, ← List.length_pos_iff, List.length_take, ByteQueue.length_toList]
      omega

/-- An accepted write makes the content longer by what was accepted. -/
theorem size_accepted {p q : Pipe} {bytes : List UInt8} {n : Nat}
    (h : p.write bytes = .accepted n q) : q.content.size = p.content.size + n := by
  obtain ⟨hc, hn, _⟩ := write_accepted h
  simpa [Nat.min_eq_left hn] using congrArg List.length hc

/-- Fetching makes the content shorter by what was fetched. -/
theorem size_data {p q : Pipe} {most : Nat} {bytes : List UInt8}
    (h : p.fetch most = .data bytes q) : p.content.size = bytes.length + q.content.size := by
  simpa using congrArg List.length (fetch_data h).1

end Pipe

end Sluice.Connection
