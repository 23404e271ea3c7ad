/-
  File:      Sluice/Http/Body.lean
  Subject:   Copying the body of a message out of a stream.

  * `BodyState`, `bodyFeeder`: the machine that reads a body of any framing, its data as output;
  * `drain`: copying up to the end of the input, one write for what is at hand;
  * `Framing.copy`: a body of a stream into a sink;
  * `copyBody`: the body that headers announce, and the end of the sink behind it.

  A body of known length or in chunks is written completely, piece by piece, before a piece counts
  as read; a body up to the end of the input counts as read as far as each single write took it.
-/
import Sluice.Http.Chunked
import Sluice.Http.Framing

namespace Sluice.Http

open Sluice.Wire

/-! ## 1. The machine -/

/-- How far a body is read: of `total` bytes, `remaining` are to come; in chunks; or up to the end
    of the input, `copied` bytes so far. -/
inductive BodyState where
  | length (total remaining : Nat)
  | chunked (progress : ChunkProgress)
  | untilClose (copied : Nat)
  deriving DecidableEq, Repr

/-- Before the first byte of a body; nothing if there is no byte of body. -/
def BodyState.ofFraming : Framing → Option BodyState
  | .none => none
  | .length n => if n = 0 then none else some (.length n.toNat n.toNat)
  | .chunked => some (.chunked ⟨.fresh, 0⟩)
  | .untilClose => some (.untilClose 0)

namespace BodyState

/-- One step along a body. -/
def feed (s : BodyState) (bytes : List UInt8) : Step BodyState Nat :=
  match s with
  | .length total remaining =>
    let n := min remaining bytes.length
    { next := .length total (remaining - n)
      output := bytes.take n
      consumed := n
      verdict := if remaining - n = 0 then .done total else .more }
  | .chunked progress =>
    let step := chunkFeeder.feed progress bytes
    { next := .chunked step.next
      output := step.output
      consumed := step.consumed
      verdict := step.verdict }
  | .untilClose copied =>
    { next := .untilClose (copied + bytes.length)
      output := bytes
      consumed := bytes.length
      verdict := .more }

/-- The end of the input: too early for a length or for chunks, the proper end otherwise. -/
def atEnd : BodyState → Except MessageError Nat
  | .length _ _ => .error (.endOfInput .lengthBody)
  | .chunked progress => chunkFeeder.atEnd progress
  | .untilClose copied => .ok copied

end BodyState

/-- The machine that reads a body. -/
def bodyFeeder : Feeder BodyState Nat where
  feed := BodyState.feed
  atEnd := BodyState.atEnd
  consumed_pos s b bs h := by
    cases s with
    | length total remaining =>
      simp only [BodyState.feed] at h ⊢
      split at h
      · simp at h
      · simp only [List.length_cons]
        omega
    | chunked progress => exact chunkFeeder.consumed_pos progress b bs h
    | untilClose copied => simp [BodyState.feed]

/-! ## 2. Copying -/

/-- How a copy ended: the number of data bytes, and input and output at that moment. -/
structure Copied where
  result : Except MessageError Nat
  source : Source
  sink : Sink

/-- Copies up to the end of the input, one write for what is at hand: only the bytes a write took
    are used up. -/
def drain (copied : Nat) (source : Source) (sink : Sink) : Copied :=
  match _ha : source.available with
  | .error e => ⟨.error (.transport e), source, sink⟩
  | .ok [] => ⟨.ok copied, source, sink⟩
  | .ok (b :: bs) =>
    match sink.write (b :: bs) with
    | .error e => ⟨.error (.transport e), source, sink⟩
    | .ok (0, sink) => ⟨.error (.transport .writeZero), source, sink⟩
    | .ok (n + 1, sink) => drain (copied + (n + 1)) (source.consume (n + 1)) sink
termination_by source.size
decreasing_by exact Source.size_consume_lt _ha (Nat.succ_pos n)

/-- Copies the body of a framing out of a stream. What follows the body stays unread; a body of no
    bytes does not touch the stream. -/
def Framing.copy (f : Framing) (source : Source) (sink : Sink) : Copied :=
  if f = .untilClose then drain 0 source sink
  else
    match BodyState.ofFraming f with
    | .none => ⟨.ok 0, source, sink⟩
    | some s =>
      let o := bodyFeeder.run s source sink
      ⟨o.result, o.source, o.sink⟩

theorem size_drain_le (copied : Nat) (source : Source) (sink : Sink) :
    (drain copied source sink).source.size ≤ source.size := by
  fun_induction drain copied source sink
  case case5 ih => exact Nat.le_trans ih (Source.size_consume_le ..)
  all_goals exact Nat.le_refl _

/-- A copy leaves no more than there was. -/
theorem Framing.size_copy_le (f : Framing) (source : Source) (sink : Sink) :
    (f.copy source sink).source.size ≤ source.size := by
  unfold Framing.copy
  split
  · exact size_drain_le ..
  · split
    · exact Nat.le_refl _
    · exact Feeder.size_run_le ..

/-- Copies the body that headers announce, and ends the sink. -/
def copyBody (h : Headers) (source : Source) (sink : Sink) : Copied :=
  match Framing.ofHeaders h with
  | .error e => ⟨.error e, source, sink⟩
  | .ok f =>
    let c := f.copy source sink
    match c.result with
    | .error _ => c
    | .ok _ =>
      match c.sink.shutdown with
      | (some e, sink) => { c with result := .error (.transport e), sink }
      | (.none, sink) => { c with sink }

end Sluice.Http
