/-
  File:      Sluice/Socket/Stream.lean
  Subject:   One end of a byte stream, as the system keeps it.

  * `Attempt`: what one call of the system comes to;
  * `Mood`: how the system takes a call;
  * `Stream`: the bytes that came, and which directions are at their end;
  * `read`, `write`: one call each, which does not wait, where the system does what it can;
  * `readAs`, `writeAs`: the same calls in any mood of the system;
  * `receive`, `peerEnd`, `finish`, `shutdown`: the other end sends, or sends no more; this end sends
    no more, or neither sends nor receives.

  Bytes come in the order they were sent, and a read gives none only at the end: when the other end
  sends no more, or this end was shut down.
-/
import Sluice.Selector.Error
import Sluice.Selector.Interest

namespace Sluice.Socket

open Sluice.Selector

/-- What a call comes to that does not wait. -/
inductive Attempt (α : Type) where
  | done (result : α)
  | wouldBlock
  | interrupted
  | failed (e : OpError)
  deriving DecidableEq, Repr

/-- How the system takes a call: it serves it, with so many bytes at most; it makes it wait, though
    there may be something to do; a signal interrupts it; or it fails. -/
inductive Mood where
  | serves (most : Nat)
  | blocks
  | interrupts
  | fails (e : OpError)
  deriving DecidableEq, Repr

/-- One end of a stream: what came and is unread, whether more will come, whether this end still
    sends, and whether it was shut down in both directions. -/
structure Stream where
  inbox : List UInt8
  ended : Bool
  finished : Bool
  isShut : Bool
  deriving DecidableEq, Repr

namespace Stream

/-- An open end to which nothing came. -/
def fresh : Stream := ⟨[], false, false, false⟩

def brokenPipe : OpError := .system .brokenPipe "Broken pipe (os error 32)"

/-- Reads at most `most` bytes of those that came. -/
def read (s : Stream) (most : Nat) : Attempt (List UInt8) × Stream :=
  match s.inbox with
  | b :: bs => (.done ((b :: bs).take most), { s with inbox := (b :: bs).drop most })
  | [] => if s.ended || s.isShut then (.done [], s) else (.wouldBlock, s)

/-- Writes: how many of the bytes are taken. -/
def write (s : Stream) (bytes : List UInt8) : Attempt Nat :=
  if s.finished || s.isShut then .failed brokenPipe else .done bytes.length

/-- Reads in a mood of the system. A call that is served gives one byte at least if any came. -/
def readAs (s : Stream) (m : Mood) (most : Nat) : Attempt (List UInt8) × Stream :=
  match m with
  | .serves n => s.read (min most (max 1 n))
  | .blocks => (.wouldBlock, s)
  | .interrupts => (.interrupted, s)
  | .fails e => (.failed e, s)

/-- Writes in a mood of the system. A call that is served may take nothing. -/
def writeAs (s : Stream) (m : Mood) (bytes : List UInt8) : Attempt Nat :=
  match m with
  | .serves n => s.write (bytes.take n)
  | .blocks => .wouldBlock
  | .interrupts => .interrupted
  | .fails e => .failed e

/-- The other end sends. -/
def receive (s : Stream) (bytes : List UInt8) : Stream :=
  if s.ended || s.isShut then s else { s with inbox := s.inbox ++ bytes }

/-- The other end sends no more. -/
def peerEnd (s : Stream) : Stream := { s with ended := true }

/-- This end sends no more. -/
def finish (s : Stream) : Stream := { s with finished := true }

/-- This end neither sends nor receives any more. -/
def shutdown (s : Stream) : Stream := { s with finished := true, isShut := true }

/-- What the stream is ready for. -/
def ready (s : Stream) : InterestSet :=
  .ofDirections (!s.inbox.isEmpty || s.ended || s.isShut) true

/-- **A read takes the front of what came.** -/
theorem read_done {s t : Stream} {most : Nat} {bytes : List UInt8}
    (h : s.read most = (.done bytes, t)) : s.inbox = bytes ++ t.inbox := by
  unfold read at h
  split at h
  · rename_i hc
    cases h
    simp [hc]
  · rename_i hc
    split at h
    · cases h
      simp
    · cases h

/-- **A read of some bytes gives none only at the end.** -/
theorem ended_of_read_nil {s t : Stream} {most : Nat} (hm : 0 < most)
    (h : s.read most = (.done [], t)) : s.inbox = [] ∧ (s.ended = true ∨ s.isShut = true) := by
  unfold read at h
  split at h
  · cases most with
    | zero => omega
    | succ n => simp at h
  · rename_i hc
    split at h
    · rename_i he
      exact ⟨hc, by simpa using he⟩
    · cases h

end Stream

end Sluice.Socket
