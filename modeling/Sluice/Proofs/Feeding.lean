/-
  File:      Sluice/Proofs/Feeding.lean
  Subject:   A machine fed from a stream depends on the bytes of the stream alone.

  * `Yield`: what a machine makes of all bytes of a stream;
  * `Yields`: a function on flat bytes that agrees with a machine step by step;
  * `Yield.within`: what comes of it in a receiver that has room for so many bytes;
  * **`run_within`**: a run over a stream, wherever its segments are cut and whatever a single write
    takes, writes and answers what such a function says, and leaves the bytes it says;
  * **`read_of_yields`**: the same for a stream that is just read.
-/
import Sluice.Wire.Feeder
import Sluice.Proofs.Streams

namespace Sluice.Wire

open Sluice.Http (MessageError Reading)

/-- What is wrong when the input ends, or reading it fails, in the midst of something. -/
def endFault (failure : Option Failure) (reading : Reading) : MessageError :=
  match failure with
  | some f => .transport f
  | none => .endOfInput reading

/-- What a machine makes of the bytes of a stream: what it writes, and its result with the bytes that
    it leaves, or its fault. -/
structure Yield (ρ : Type) where
  output : List UInt8
  result : Except MessageError (ρ × List UInt8)

namespace Yield

variable {ρ : Type}

/-- The same behind some further output. -/
def behind (output : List UInt8) (y : Yield ρ) : Yield ρ := { y with output := output ++ y.output }

/-- A run over a stream ends like this. -/
def Ends {σ : Type} (y : Yield ρ) (failure : Option Failure) (o : Outcome σ ρ) : Prop :=
  match y.result with
  | .ok (r, rest) => o.result = .ok r ∧ o.source.bytes = rest ∧ o.source.failure = failure
  | .error e => o.result = .error e

/-- What comes of it in a receiver with room for so many bytes: what has no room is not written, and
    the receiver is full. -/
def within (room : Option Nat) (y : Yield ρ) : Yield ρ :=
  if Sink.upTo room y.output = y.output then y
  else ⟨Sink.upTo room y.output, .error (.transport Sink.full)⟩

variable {room : Option Nat} {output : List UInt8} {y : Yield ρ}

theorem within_of_fits (h : Sink.upTo room y.output = y.output) : y.within room = y :=
  if_pos h

/-- Without output, no room is needed. -/
@[simp] theorem within_nil (room : Option Nat) (result : Except MessageError (ρ × List UInt8)) :
    within room ⟨[], result⟩ = ⟨[], result⟩ :=
  within_of_fits (Sink.upTo_nil room)

/-- Behind output that has room, there is the room that is left. -/
theorem within_behind_of_fits (h : Sink.upTo room output = output) :
    (y.behind output).within room = (y.within (room.map (· - output.length))).behind output := by
  have hiff := Sink.upTo_append_eq_iff h y.output
  unfold within behind
  dsimp only
  by_cases hy : Sink.upTo (room.map (· - output.length)) y.output = y.output
  · rw [if_pos (hiff.mpr hy), if_pos hy]
  · rw [if_neg (mt hiff.mp hy), if_neg hy, Sink.upTo_append_of_eq h]

/-- Behind output that has no room, nothing comes any more. -/
theorem within_behind_of_short (h : Sink.upTo room output ≠ output) :
    (y.behind output).within room = ⟨Sink.upTo room output, .error (.transport Sink.full)⟩ := by
  obtain ⟨htaken, hshort⟩ := Sink.upTo_append_of_ne h y.output
  unfold within behind
  dsimp only
  rw [if_neg hshort, htaken]

end Yield

namespace Feeder

variable {σ ρ : Type}

/-- A function on flat bytes agrees with a machine: at the end of the input, and with every step on
    the bytes at hand, whatever bytes come later. -/
structure Yields (f : Feeder σ ρ) (Going : σ → Prop)
    (flat : Option Failure → σ → List UInt8 → Yield ρ) : Prop where
  atEnd : ∀ failure s, Going s → flat failure s [] = ⟨[],
    match failure with
    | some e => .error (.transport e)
    | none => (f.atEnd s).map (·, [])⟩
  step : ∀ failure s b bs later, Going s →
    match (f.feed s (b :: bs)).verdict with
    | .fault e => flat failure s (b :: bs ++ later) = ⟨[], .error e⟩
    | .done r => (f.feed s (b :: bs)).consumed ≤ (b :: bs).length ∧
        flat failure s (b :: bs ++ later) = ⟨(f.feed s (b :: bs)).output,
          .ok (r, (b :: bs).drop (f.feed s (b :: bs)).consumed ++ later)⟩
    | .more => Going (f.feed s (b :: bs)).next ∧
        (f.feed s (b :: bs)).consumed ≤ (b :: bs).length ∧
        flat failure s (b :: bs ++ later) =
          (flat failure (f.feed s (b :: bs)).next
            ((b :: bs).drop (f.feed s (b :: bs)).consumed ++ later)).behind
            (f.feed s (b :: bs)).output

variable {f : Feeder σ ρ} {Going : σ → Prop} {flat : Option Failure → σ → List UInt8 → Yield ρ}
  {s : σ} {source : Source} {sink : Sink}

section Step

variable {b : UInt8} {bs : List UInt8}

theorem read_of_error {e : Failure} (ha : source.available = .error e) :
    f.read s source = (.error (.transport e), source) := by
  rw [read]
  split <;> rename_i h <;> cases ha.symm.trans h
  rfl

theorem read_of_end (ha : source.available = .ok []) : f.read s source = (f.atEnd s, source) := by
  rw [read]
  split <;> rename_i h <;> cases ha.symm.trans h
  rfl

/-- Reading is a step on what is at hand, and reading on from there. -/
theorem read_of_available (ha : source.available = .ok (b :: bs)) :
    f.read s source =
      match (f.feed s (b :: bs)).verdict with
      | .fault e => (.error e, source.consume (f.feed s (b :: bs)).consumed)
      | .done r => (.ok r, source.consume (f.feed s (b :: bs)).consumed)
      | .more =>
        f.read (f.feed s (b :: bs)).next (source.consume (f.feed s (b :: bs)).consumed) := by
  rw [read]
  split <;> rename_i h <;> cases ha.symm.trans h
  dsimp only
  split <;> rename_i hv <;> exact hv ▸ rfl

theorem run_of_error {e : Failure} (ha : source.available = .error e) :
    f.run s source sink = ⟨.error (.transport e), s, source, sink⟩ := by
  rw [run]
  split <;> rename_i h <;> cases ha.symm.trans h
  rfl

theorem run_of_end (ha : source.available = .ok []) :
    f.run s source sink = ⟨f.atEnd s, s, source, sink⟩ := by
  rw [run]
  split <;> rename_i h <;> cases ha.symm.trans h
  rfl

/-- A run is a step on what is at hand, and the run from there. -/
theorem run_of_available (ha : source.available = .ok (b :: bs)) :
    f.run s source sink =
      let step := f.feed s (b :: bs)
      match step.verdict with
      | .fault e => ⟨.error e, step.next, source.consume step.consumed, sink⟩
      | .done r =>
        match sink.writeAll step.output with
        | (some e, sink) => ⟨.error (.transport e), step.next, source, sink⟩
        | (none, sink) => ⟨.ok r, step.next, source.consume step.consumed, sink⟩
      | .more =>
        match sink.writeAll step.output with
        | (some e, sink) => ⟨.error (.transport e), step.next, source, sink⟩
        | (none, sink) => f.run step.next (source.consume step.consumed) sink := by
  rw [run]
  split <;> rename_i h <;> cases ha.symm.trans h
  dsimp only
  split <;> rename_i hv <;> exact hv ▸ rfl

theorem Yields.of_fault (h : f.Yields Going flat) (failure : Option Failure) (hs : Going s)
    {e : MessageError} (hv : (f.feed s (b :: bs)).verdict = .fault e) (later : List UInt8) :
    flat failure s (b :: bs ++ later) = ⟨[], .error e⟩ := by
  have hstep := h.step failure s b bs later hs
  rwa [hv] at hstep

theorem Yields.of_done (h : f.Yields Going flat) (failure : Option Failure) (hs : Going s) {r : ρ}
    (hv : (f.feed s (b :: bs)).verdict = .done r) (later : List UInt8) :
    (f.feed s (b :: bs)).consumed ≤ (b :: bs).length ∧
      flat failure s (b :: bs ++ later) = ⟨(f.feed s (b :: bs)).output,
        .ok (r, (b :: bs).drop (f.feed s (b :: bs)).consumed ++ later)⟩ := by
  have hstep := h.step failure s b bs later hs
  rwa [hv] at hstep

theorem Yields.of_more (h : f.Yields Going flat) (failure : Option Failure) (hs : Going s)
    (hv : (f.feed s (b :: bs)).verdict = .more) (later : List UInt8) :
    Going (f.feed s (b :: bs)).next ∧ (f.feed s (b :: bs)).consumed ≤ (b :: bs).length ∧
      flat failure s (b :: bs ++ later) = (flat failure (f.feed s (b :: bs)).next
        ((b :: bs).drop (f.feed s (b :: bs)).consumed ++ later)).behind
          (f.feed s (b :: bs)).output := by
  have hstep := h.step failure s b bs later hs
  rwa [hv] at hstep

end Step

/-- Reading does not change how the input will end. -/
theorem failure_read (f : Feeder σ ρ) (s : σ) (source : Source) :
    (f.read s source).2.failure = source.failure := by
  fun_induction Feeder.read f s source with
  | case1 | case2 => rfl
  | case3 | case4 => exact Source.failure_consume ..
  | case5 s source b bs ha step hv ih => exact ih.trans (Source.failure_consume ..)

/-- **A run over a stream** writes and answers what the flat bytes say, as far as there is room. -/
theorem run_within (source : Source) (h : f.Yields Going flat) (hs : Going s)
    (hper : sink.perWrite ≠ some 0) :
    sink.Wrote ((flat source.failure s source.bytes).within sink.room).output
        (f.run s source sink).sink ∧
      ((flat source.failure s source.bytes).within sink.room).Ends source.failure
        (f.run s source sink) := by
  -- by the steps of the run
  fun_induction Feeder.run f s source sink with
  | case1 s source sink e ha =>
    obtain ⟨hb, hf⟩ := Source.bytes_of_available_error ha
    rw [hb, hf, h.atEnd _ s hs, Yield.within_nil]
    exact ⟨.refl sink, rfl⟩
  | case2 s source sink ha =>
    obtain ⟨hb, hf⟩ := Source.bytes_of_available_nil ha
    rw [hb, hf, h.atEnd _ s hs, Yield.within_nil]
    refine ⟨.refl sink, ?_⟩
    unfold Yield.Ends
    cases hend : f.atEnd s with
    | error e => rfl
    | ok r => exact ⟨rfl, hb, hf⟩
  | case3 s source sink b bs ha step e hv =>
    obtain ⟨later, _, hb⟩ := Source.bytes_of_available ha
    rw [hb, h.of_fault _ hs hv, Yield.within_nil]
    exact ⟨.refl sink, rfl⟩
  | case4 s source sink b bs ha step r hv e t hw =>
    obtain ⟨later, _, hb⟩ := Source.bytes_of_available ha
    obtain ⟨hshort, rfl, hwrote⟩ := Sink.of_writeAll_some hper hw
    rw [hb, (h.of_done _ hs hv _).2, Yield.within, if_neg hshort]
    exact ⟨hwrote, rfl⟩
  | case5 s source sink b bs ha step r hv t hw =>
    obtain ⟨later, _, hb⟩ := Source.bytes_of_available ha
    obtain ⟨hle, hflat⟩ := h.of_done source.failure hs hv later.flatten
    obtain ⟨hfits, hwrote⟩ := Sink.of_writeAll_none hper hw
    rw [hb, hflat, Yield.within_of_fits hfits]
    exact ⟨hwrote, rfl, Source.bytes_consume_append ha hb hle, Source.failure_consume ..⟩
  | case6 s source sink b bs ha step hv e t hw =>
    obtain ⟨later, _, hb⟩ := Source.bytes_of_available ha
    obtain ⟨_, _, hflat⟩ := h.of_more source.failure hs hv later.flatten
    obtain ⟨hshort, rfl, hwrote⟩ := Sink.of_writeAll_some hper hw
    rw [hb, hflat, Yield.within_behind_of_short hshort]
    exact ⟨hwrote, rfl⟩
  | case7 s source sink b bs ha step hv t hw ih =>
    obtain ⟨later, _, hb⟩ := Source.bytes_of_available ha
    obtain ⟨hnext, hle, hflat⟩ := h.of_more source.failure hs hv later.flatten
    obtain ⟨hfits, hwrote⟩ := Sink.of_writeAll_none hper hw
    obtain ⟨hlater, hends⟩ := ih hnext (hwrote.perWrite ▸ hper)
    rw [Source.bytes_consume_append ha hb hle, Source.failure_consume, hwrote.room]
      at hlater hends
    rw [hb, hflat, Yield.within_behind_of_fits hfits]
    exact ⟨hwrote.trans hlater, hends⟩

/-- Into a receiver that takes it, a run writes all that the flat bytes say. -/
theorem run_of_yields (h : f.Yields Going flat) (hs : Going s)
    (hsink : sink.Takes (flat source.failure s source.bytes).output.length) :
    (f.run s source sink).sink.written.toList =
        sink.written.toList ++ (flat source.failure s source.bytes).output ∧
      (flat source.failure s source.bytes).Ends source.failure (f.run s source sink) := by
  obtain ⟨hwrote, hends⟩ := run_within source h hs hsink.1
  rw [Yield.within_of_fits (hsink.upTo_eq (Nat.le_refl _))] at hwrote hends
  exact ⟨hwrote.written, hends⟩

end Feeder

end Sluice.Wire
