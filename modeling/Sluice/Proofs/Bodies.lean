/-
  File:      Sluice/Proofs/Bodies.lean
  Subject:   A body is copied from the bytes of a stream, not from its segments.

  * `BodyState.yield`, `yields_bodyFeeder`: what is made of the bytes from a place in a body on;
  * `Framing.yield`: what a framing makes of the bytes behind a head;
  * **`copy_within`**: copying a body from a stream writes and answers this, as far as there is room,
    and leaves the bytes behind the body.
-/
import Sluice.Http.Body
import Sluice.Proofs.Chunked.Scan

namespace Sluice.Http

open Sluice.Wire

/-! ## 1. The machine -/

/-- What is made of flat bytes from a place in a body on. -/
def BodyState.yield (failure : Option Failure) (s : BodyState) (bytes : List UInt8) : Yield Nat :=
  match s with
  | .length total remaining =>
    if remaining ≤ bytes.length then ⟨bytes.take remaining, .ok (total, bytes.drop remaining)⟩
    else ⟨bytes, .error (endFault failure .lengthBody)⟩
  | .chunked progress => progress.yield failure bytes
  | .untilClose copied =>
    ⟨bytes,
      match failure with
      | some e => .error (.transport e)
      | none => .ok (copied + bytes.length, [])⟩

/-- What the front of the input makes up of a body up to its end. -/
theorem yield_untilClose (failure : Option Failure) (copied : Nat) (front later : List UInt8) :
    BodyState.yield failure (.untilClose copied) (front ++ later) =
      (BodyState.yield failure (.untilClose (copied + front.length)) later).behind front := by
  unfold BodyState.yield Yield.behind
  cases failure with
  | some e => rfl
  | none =>
    dsimp only
    rw [List.length_append, Nat.add_assoc]

/-- The body is not complete. -/
def BodyState.Going : BodyState → Prop
  | .length _ remaining => 0 < remaining
  | .chunked progress => progress.Going
  | .untilClose _ => True

/-- Data of known length: a step takes what is at hand of it. -/
theorem yield_length {failure : Option Failure} {total remaining : Nat} {bytes later : List UInt8}
    (h : bytes.length < remaining) :
    BodyState.yield failure (.length total remaining) (bytes ++ later) =
      (BodyState.yield failure (.length total (remaining - bytes.length)) later).behind bytes := by
  unfold BodyState.yield Yield.behind
  dsimp only
  rw [List.length_append]
  by_cases hle : remaining ≤ bytes.length + later.length
  · rw [if_pos hle, if_pos (by omega), List.take_append, List.drop_append,
      List.take_of_length_le (Nat.le_of_lt h), List.drop_of_length_le (Nat.le_of_lt h)]
    rfl
  · rw [if_neg hle, if_neg (by omega)]

/-- **The machine copies** what the bytes say, step by step. -/
theorem yields_bodyFeeder : bodyFeeder.Yields BodyState.Going BodyState.yield where
  atEnd failure s hs := by
    cases s with
    | length total remaining =>
      have hlt : ¬ remaining ≤ ([] : List UInt8).length := Nat.not_le_of_lt hs
      unfold BodyState.yield
      dsimp only
      rw [if_neg hlt]
      cases failure <;> rfl
    | chunked progress => exact yields_chunkFeeder.atEnd failure progress hs
    | untilClose copied => cases failure <;> rfl
  step failure s b bs later hs := by
    cases s with
    | length total remaining =>
      generalize hbytes : b :: bs = bytes
      dsimp only [bodyFeeder, BodyState.feed]
      by_cases hle : remaining ≤ bytes.length
      · rw [Nat.min_eq_left hle, Nat.sub_self, if_pos rfl]
        refine ⟨hle, ?_⟩
        unfold BodyState.yield
        dsimp only
        rw [if_pos (by rw [List.length_append]; omega), List.take_append_of_le_length hle,
          List.drop_append_of_le_length hle]
      · have hlt : bytes.length < remaining := Nat.lt_of_not_le hle
        rw [Nat.min_eq_right (Nat.le_of_lt hlt), if_neg (by omega)]
        refine ⟨Nat.sub_pos_of_lt hlt, Nat.le_refl _, ?_⟩
        rw [List.take_length, List.drop_length, List.nil_append]
        exact yield_length hlt
    | chunked progress =>
      have h := yields_chunkFeeder.step failure progress b bs later hs
      dsimp only [bodyFeeder, BodyState.feed]
      cases hv : (chunkFeeder.feed progress (b :: bs)).verdict with
      | fault e =>
        rw [hv] at h
        exact h
      | done r =>
        rw [hv] at h
        exact h
      | more =>
        rw [hv] at h
        exact h
    | untilClose copied =>
      dsimp only [bodyFeeder, BodyState.feed]
      refine ⟨trivial, Nat.le_refl _, ?_⟩
      rw [List.drop_length, List.nil_append]
      exact yield_untilClose failure copied (b :: bs) later

/-! ## 2. Copying -/

/-- What a framing makes of the bytes behind a head. -/
def Framing.yield (failure : Option Failure) (f : Framing) (bytes : List UInt8) : Yield Nat :=
  match BodyState.ofFraming f with
  | .none => ⟨[], .ok (0, bytes)⟩
  | some s => s.yield failure bytes

theorem Framing.yield_of_none {failure : Option Failure} {f : Framing} {bytes : List UInt8}
    (h : BodyState.ofFraming f = Option.none) : f.yield failure bytes = ⟨[], .ok (0, bytes)⟩ := by
  rw [Framing.yield, h]

theorem Framing.yield_of_some {failure : Option Failure} {f : Framing} {s : BodyState}
    {bytes : List UInt8} (h : BodyState.ofFraming f = some s) :
    f.yield failure bytes = s.yield failure bytes := by
  rw [Framing.yield, h]

theorem going_ofFraming {f : Framing} {s : BodyState} (h : BodyState.ofFraming f = some s) :
    s.Going := by
  cases f with
  | none => cases h
  | length n =>
    unfold BodyState.ofFraming at h
    dsimp only at h
    split at h
    · cases h
    · rename_i hn
      cases h
      exact Nat.pos_of_ne_zero fun h0 => hn (UInt64.toNat_inj.mp h0)
  | chunked =>
    cases h
    exact fun h => by cases h
  | untilClose =>
    cases h
    exact trivial

/-- A copy ends like this. -/
def Copied.Ends (c : Copied) (failure : Option Failure) (y : Yield Nat) : Prop :=
  match y.result with
  | .ok (n, rest) => c.result = .ok n ∧ c.source.bytes = rest ∧ c.source.failure = failure
  | .error e => c.result = .error e

/-- Copying up to the end of the input, as far as there is room. -/
theorem drain_within (copied : Nat) (source : Source) {sink : Sink}
    (hper : sink.perWrite ≠ some 0) :
    sink.Wrote ((BodyState.yield source.failure (.untilClose copied) source.bytes).within
        sink.room).output (drain copied source sink).sink ∧
      (drain copied source sink).Ends source.failure
        ((BodyState.yield source.failure (.untilClose copied) source.bytes).within sink.room) := by
  fun_induction drain copied source sink with
  | case1 copied source sink e ha =>
    obtain ⟨hb, hf⟩ := Source.bytes_of_available_error ha
    rw [hb, hf, BodyState.yield, Yield.within_nil]
    exact ⟨.refl sink, rfl⟩
  | case2 copied source sink ha =>
    obtain ⟨hb, hf⟩ := Source.bytes_of_available_nil ha
    rw [hb, hf, BodyState.yield, Yield.within_nil]
    exact ⟨.refl sink, rfl, hb, hf⟩
  | case3 copied source sink b bs ha e hw =>
    obtain ⟨later, _, hb⟩ := Source.bytes_of_available ha
    obtain ⟨hroom, rfl⟩ := Sink.write_error hw
    have hshort : Sink.upTo (some 0) (b :: bs) ≠ b :: bs := (List.cons_ne_nil b bs).symm
    rw [hb, yield_untilClose, hroom, Yield.within_behind_of_short hshort]
    exact ⟨.refl sink, rfl⟩
  | case4 copied source sink b bs ha t hw =>
    exact absurd (Sink.of_write hper hw).1 (Nat.lt_irrefl 0)
  | case5 copied source sink b bs ha n t hw ih =>
    obtain ⟨later, _, hb⟩ := Source.bytes_of_available ha
    obtain ⟨_, hle, hfits, hwrote⟩ := Sink.of_write hper hw
    obtain ⟨hlater, hends⟩ := ih (hwrote.perWrite ▸ hper)
    have hlen : ((b :: bs).take (n + 1)).length = n + 1 := by
      rw [List.length_take, Nat.min_eq_left hle]
    rw [Source.bytes_consume_append ha hb hle, Source.failure_consume, hwrote.room]
      at hlater hends
    have hsplit : source.bytes =
        (b :: bs).take (n + 1) ++ ((b :: bs).drop (n + 1) ++ later.flatten) := by
      rw [← List.append_assoc, List.take_append_drop, hb]
    rw [hsplit, yield_untilClose, Yield.within_behind_of_fits hfits, hlen]
    rw [hlen] at hlater hends
    exact ⟨hwrote.trans hlater, hends⟩

/-- A framing without a byte of body does not touch the input, nor the receiver. -/
theorem Framing.copy_of_isNone {f : Framing} (hf : f.isNone = true) (source : Source) (sink : Sink) :
    f.copy source sink = ⟨.ok 0, source, sink⟩ := by
  cases f with
  | none => rfl
  | length n =>
    have hn : n = 0 := by simpa [Framing.isNone] using hf
    subst hn
    rfl
  | chunked | untilClose => cases hf

/-- **Copying a body** from a stream, wherever its segments are cut and whatever a single write takes,
    writes and answers what the bytes say, as far as there is room, and leaves the bytes behind the
    body. -/
theorem Framing.copy_within (f : Framing) (source : Source) {sink : Sink}
    (hper : sink.perWrite ≠ some 0) :
    sink.Wrote ((f.yield source.failure source.bytes).within sink.room).output
        (f.copy source sink).sink ∧
      (f.copy source sink).Ends source.failure
        ((f.yield source.failure source.bytes).within sink.room) := by
  unfold Framing.copy
  by_cases hclose : f = .untilClose
  · subst hclose
    rw [if_pos rfl]
    exact drain_within 0 source hper
  · rw [if_neg hclose]
    unfold Framing.yield
    cases hs : BodyState.ofFraming f with
    | none =>
      rw [Yield.within_nil]
      exact ⟨.refl sink, rfl, rfl, rfl⟩
    | some s =>
      obtain ⟨hwrote, hends⟩ :=
        Feeder.run_within source yields_bodyFeeder (going_ofFraming hs) hper
      refine ⟨hwrote, ?_⟩
      unfold Yield.Ends at hends
      unfold Copied.Ends
      dsimp only
      cases hr : ((BodyState.yield source.failure s source.bytes).within sink.room).result with
      | error e =>
        rw [hr] at hends
        exact hends
      | ok r =>
        rw [hr] at hends
        exact hends

/-- Into a receiver that takes it, a copy writes the whole body. -/
theorem Framing.copy_eq (f : Framing) (source : Source) {sink : Sink}
    (hsink : sink.Takes (f.yield source.failure source.bytes).output.length) :
    sink.Wrote (f.yield source.failure source.bytes).output (f.copy source sink).sink ∧
      (f.copy source sink).Ends source.failure (f.yield source.failure source.bytes) := by
  have hcopy := f.copy_within source hsink.1
  rwa [Yield.within_of_fits (hsink.upTo_eq (Nat.le_refl _))] at hcopy

end Sluice.Http
