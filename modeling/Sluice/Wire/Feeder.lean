/-
  File:      Sluice/Wire/Feeder.lean
  Subject:   Machines that read a stream piece by piece.

  * `Step`: what a machine does with the bytes at hand: its next state, bytes for the output, how
    many of the bytes it used up, and whether it goes on;
  * `Feeder`: a machine, with the promise that it goes on only after using up a byte;
  * `Feeder.run`: a machine over a whole stream, its output written before the input is used up;
  * `Feeder.read`: the same for a machine without output.
-/
import Sluice.Http.Error
import Sluice.Wire.Sink
import Sluice.Wire.Source

namespace Sluice.Wire

open Sluice.Http (MessageError)

/-- Whether a machine goes on. -/
inductive Verdict (ρ : Type) where
  | more
  | done (result : ρ)
  | fault (e : MessageError)

/-- What a machine does with the bytes at hand. -/
structure Step (σ ρ : Type) where
  next : σ
  output : List UInt8
  consumed : Nat
  verdict : Verdict ρ

/-- A machine that is fed bytes. `feed` gets what is at hand, never nothing, and `atEnd` decides
    when the input ends. -/
structure Feeder (σ ρ : Type) where
  feed : σ → List UInt8 → Step σ ρ
  atEnd : σ → Except MessageError ρ
  consumed_pos : ∀ s b bs, (feed s (b :: bs)).verdict = .more → 0 < (feed s (b :: bs)).consumed

/-- How a run ended: its result, and state, input and output at that moment. -/
structure Outcome (σ ρ : Type) where
  result : Except MessageError ρ
  state : σ
  source : Source
  sink : Sink

namespace Feeder

variable {σ ρ : Type}

/-- Feeds a machine from a stream until it is done or fails. The output of a step is written
    before its bytes are used up; a step that faults writes nothing. -/
def run (f : Feeder σ ρ) (s : σ) (source : Source) (sink : Sink) : Outcome σ ρ :=
  match _ha : source.available with
  | .error e => ⟨.error (.transport e), s, source, sink⟩
  | .ok [] => ⟨f.atEnd s, s, source, sink⟩
  | .ok (b :: bs) =>
    let step := f.feed s (b :: bs)
    match _hv : step.verdict with
    | .fault e => ⟨.error e, step.next, source.consume step.consumed, sink⟩
    | .done r =>
      match sink.writeAll step.output with
      | (some e, sink) => ⟨.error (.transport e), step.next, source, sink⟩
      | (none, sink) => ⟨.ok r, step.next, source.consume step.consumed, sink⟩
    | .more =>
      match sink.writeAll step.output with
      | (some e, sink) => ⟨.error (.transport e), step.next, source, sink⟩
      | (none, sink) => f.run step.next (source.consume step.consumed) sink
termination_by source.size
decreasing_by exact Source.size_consume_lt _ha (f.consumed_pos s b bs _hv)

/-- Feeds a machine whose steps have no output: their bytes are just used up. -/
def read (f : Feeder σ ρ) (s : σ) (source : Source) : Except MessageError ρ × Source :=
  match _ha : source.available with
  | .error e => (.error (.transport e), source)
  | .ok [] => (f.atEnd s, source)
  | .ok (b :: bs) =>
    let step := f.feed s (b :: bs)
    match _hv : step.verdict with
    | .fault e => (.error e, source.consume step.consumed)
    | .done r => (.ok r, source.consume step.consumed)
    | .more => f.read step.next (source.consume step.consumed)
termination_by source.size
decreasing_by exact Source.size_consume_lt _ha (f.consumed_pos s b bs _hv)

/-- A run leaves no more than there was. -/
theorem size_run_le (f : Feeder σ ρ) (s : σ) (source : Source) (sink : Sink) :
    (f.run s source sink).source.size ≤ source.size := by
  fun_induction run f s source sink
  case case7 ih => exact Nat.le_trans ih (Source.size_consume_le ..)
  all_goals first | exact Nat.le_refl _ | exact Source.size_consume_le ..

/-- Reading leaves no more than there was. -/
theorem size_read_le (f : Feeder σ ρ) (s : σ) (source : Source) :
    (f.read s source).2.size ≤ source.size := by
  fun_induction read f s source
  case case5 ih => exact Nat.le_trans ih (Source.size_consume_le ..)
  all_goals first | exact Nat.le_refl _ | exact Source.size_consume_le ..

/-- Reading something uses up input, when a machine that is done used up something and the end of
    the input gives nothing of the kind. -/
theorem size_read_lt {f : Feeder σ ρ} {P : ρ → Prop} {s : σ} {source : Source} {r : ρ}
    (hfeed : ∀ s b bs r, (f.feed s (b :: bs)).verdict = .done r →
      0 < (f.feed s (b :: bs)).consumed)
    (hend : ∀ s r, f.atEnd s = .ok r → ¬ P r) (hr : P r)
    (h : (f.read s source).1 = .ok r) : (f.read s source).2.size < source.size := by
  fun_induction read f s source with
  | case1 => cases h
  | case2 s source ha => exact absurd hr (hend s r h)
  | case3 => cases h
  | case4 s source b bs ha step r' hv => exact Source.size_consume_lt ha (hfeed _ _ _ _ hv)
  | case5 s source b bs ha step hv ih =>
    exact Nat.lt_of_lt_of_le (ih h) (Source.size_consume_le ..)

end Feeder

end Sluice.Wire
