/-
  File:      Sluice/Proofs/Extent.lean
  Subject:   How far a body reaches, and that a copy writes all of it and no byte more.

  * `Delimits`: what a framing takes of the bytes behind a head, by rules that know no machine: the
    data, and how the body ends (`BodyEnd`);
  * `delimits_iff`: the rules say one thing of every input, the one that the machine makes of it;
  * **`copy_delimited`**: a copy writes the data as far as there is room, and its answer follows from
    the data, the end and the room, wherever the segments are cut and whatever a single write takes.
-/
import Sluice.Proofs.Bodies
import Sluice.Proofs.Chunked.Language

namespace Sluice.Http

open Sluice.Wire Chunked

/-! ## 1. The rules -/

/-- How a body ends: behind its last byte, with the bytes that follow; before it, since there is no
    more input; or at a byte that no body has in its place. -/
inductive BodyEnd where
  | complete (rest : List UInt8)
  | short (e : MessageError)
  | malformed

/-- **What a framing delimits** in the bytes of an input that ends, or fails, behind them. A length
    takes so many bytes, or all if there are fewer. Up to the end of the input means all bytes. In
    chunks it is the data of a chunked body; of a proper beginning of one; or of the longest
    beginning of one, where the byte behind it fits no body. -/
inductive Delimits (failure : Option Failure) :
    Framing → List UInt8 → List UInt8 → BodyEnd → Prop where
  | none (bytes : List UInt8) : Delimits failure .none bytes [] (.complete bytes)
  | length {n : UInt64} {data : List UInt8} (hlen : data.length = n.toNat) (rest : List UInt8) :
      Delimits failure (.length n) (data ++ rest) data (.complete rest)
  | lengthShort {n : UInt64} {bytes : List UInt8} (hlen : bytes.length < n.toNat) :
      Delimits failure (.length n) bytes bytes (.short (endFault failure .lengthBody))
  | untilClose (bytes : List UInt8) (h : failure = Option.none) :
      Delimits failure .untilClose bytes bytes (.complete [])
  | untilFailure {e : Failure} (bytes : List UInt8) (h : failure = some e) :
      Delimits failure .untilClose bytes bytes (.short (.transport e))
  | chunked {m : Marked} (h : IsBody m) (rest : List UInt8) :
      Delimits failure .chunked (m.bytes ++ rest) m.data (.complete rest)
  | chunkedShort {m n : Marked} (h : IsBody (m ++ n)) (hn : n ≠ []) :
      Delimits failure .chunked m.bytes m.data (.short (endFault failure .chunkedBody))
  | chunkedMalformed {m n : Marked} {b : UInt8} (h : IsBody (m ++ n)) (hn : n ≠ [])
      (hb : ¬ Viable (m.bytes ++ [b])) (rest : List UInt8) :
      Delimits failure .chunked (m.bytes ++ b :: rest) m.data .malformed

/-! ## 2. The rules and the machine -/

variable {failure : Option Failure} {f : Framing} {bytes data : List UInt8} {e : BodyEnd}

/-- How a body ends, by what the machine answers. -/
def BodyEnd.ofResult : Except MessageError (Nat × List UInt8) → BodyEnd
  | .ok (_, rest) => .complete rest
  | .error (.chunk _) => .malformed
  | .error e => .short e

theorem ofResult_endFault (failure : Option Failure) (reading : Reading) :
    BodyEnd.ofResult (.error (endFault failure reading)) = .short (endFault failure reading) := by
  cases failure <;> rfl

theorem yield_chunked (failure : Option Failure) (bytes : List UInt8) :
    Framing.yield failure .chunked bytes =
      (⟨.fresh, 0⟩ : ChunkProgress).yield failure bytes := rfl

theorem yield_ofLength (failure : Option Failure) (n : UInt64) (bytes : List UInt8) :
    Framing.yield failure (.length n) bytes =
      BodyState.yield failure (.length n.toNat n.toNat) bytes := by
  by_cases hn : n = 0
  · rw [Framing.yield_of_none (by rw [BodyState.ofFraming, if_pos hn]), hn]
    rfl
  · exact Framing.yield_of_some (by rw [BodyState.ofFraming, if_neg hn])

/-- What the machine makes of an input has these data and this end. -/
def Framing.Makes (failure : Option Failure) (f : Framing) (bytes data : List UInt8)
    (e : BodyEnd) : Prop :=
  (f.yield failure bytes).output = data ∧ BodyEnd.ofResult (f.yield failure bytes).result = e ∧
    ∀ n rest, (f.yield failure bytes).result = .ok (n, rest) → n = data.length

/-- How a body ends, by how the decoder stops. -/
def BodyEnd.ofStop (failure : Option Failure) : ChunkDecoder.Stop → BodyEnd
  | .finished rest => .complete rest
  | .more => .short (endFault failure .chunkedBody)
  | .fault _ _ => .malformed

/-- What the decoder makes of a string that it reads like this. -/
theorem makes_of_scan {m : Marked} {d : ChunkDecoder} {stop : ChunkDecoder.Stop}
    (h : ChunkDecoder.fresh.scan bytes = ⟨m, d, stop⟩) :
    Framing.Makes failure .chunked bytes m.data (.ofStop failure stop) := by
  unfold Framing.Makes
  rw [yield_chunked]
  unfold ChunkProgress.yield
  dsimp only
  rw [h]
  cases stop with
  | finished rest =>
    refine ⟨rfl, rfl, ?_⟩
    rintro n rest' hr
    cases hr
    exact Nat.zero_add _
  | more => exact ⟨rfl, ofResult_endFault .., nofun⟩
  | fault f rest => exact ⟨rfl, rfl, nofun⟩

/-- **The machine goes by the rules.** -/
theorem makes_of_delimits (h : Delimits failure f bytes data e) : f.Makes failure bytes data e := by
  cases h with
  | none =>
    refine ⟨rfl, rfl, ?_⟩
    rintro n rest hr
    cases hr
    rfl
  | @length n data hlen rest =>
    have hle : n.toNat ≤ (data ++ rest).length := by
      rw [List.length_append]
      omega
    unfold Framing.Makes
    rw [yield_ofLength]
    unfold BodyState.yield
    dsimp only
    rw [if_pos hle, ← hlen, List.take_left, List.drop_left]
    refine ⟨rfl, rfl, ?_⟩
    rintro k rest' hr
    cases hr
    rfl
  | lengthShort hlen =>
    unfold Framing.Makes
    rw [yield_ofLength]
    unfold BodyState.yield
    dsimp only
    rw [if_neg (Nat.not_le_of_lt hlen)]
    exact ⟨rfl, ofResult_endFault .., nofun⟩
  | untilClose _ hf =>
    subst hf
    refine ⟨rfl, rfl, ?_⟩
    rintro n rest hr
    cases hr
    exact Nat.zero_add _
  | untilFailure _ hf =>
    subst hf
    exact ⟨rfl, rfl, nofun⟩
  | chunked hm rest =>
    obtain ⟨d, hscan⟩ := ChunkDecoder.scan_of_isBody hm rest
    exact makes_of_scan hscan
  | chunkedShort hm hn =>
    obtain ⟨d, hscan⟩ := ChunkDecoder.scan_of_beginning hm hn
    exact makes_of_scan hscan
  | chunkedMalformed hm hn hb rest =>
    obtain ⟨d, fault, hscan⟩ := ChunkDecoder.scan_of_malformed hm hn hb rest
    exact makes_of_scan hscan

/-- What was read without reaching the end is a proper beginning of a body. -/
theorem exists_beginning {m : Marked} {d : ChunkDecoder} (h : ChunkDecoder.Path .fresh m d)
    (hd : d.state ≠ .finished) : ∃ n, IsBody (m ++ n) ∧ n ≠ [] := by
  obtain ⟨n, hbody⟩ := ChunkDecoder.isBody_of_path h
  refine ⟨n, hbody, ?_⟩
  rintro rfl
  rw [List.append_nil] at hbody
  obtain ⟨d', hscan⟩ := ChunkDecoder.scan_of_isBody hbody []
  rw [ChunkDecoder.scan_of_path h] at hscan
  have hstop : (d.scan []).stop = .more := by rw [ChunkDecoder.scan, if_neg hd]
  have hread := congrArg ChunkDecoder.Scan.stop hscan
  cases hstop.symm.trans hread

/-- **The rules say something of every input.** In chunks, by how the decoder stops. -/
theorem exists_delimits (failure : Option Failure) (f : Framing) (bytes : List UInt8) :
    ∃ data e, Delimits failure f bytes data e := by
  cases f with
  | none => exact ⟨_, _, .none bytes⟩
  | length n =>
    rcases Nat.lt_or_ge bytes.length n.toNat with hlt | hle
    · exact ⟨_, _, .lengthShort hlt⟩
    · have h : Delimits failure (.length n) (bytes.take n.toNat ++ bytes.drop n.toNat) _ _ :=
        .length (List.length_take_of_le hle) _
      rw [List.take_append_drop] at h
      exact ⟨_, _, h⟩
  | untilClose =>
    cases failure with
    | none => exact ⟨_, _, .untilClose bytes rfl⟩
    | some e => exact ⟨_, _, .untilFailure bytes rfl⟩
  | chunked =>
    have hpath := ChunkDecoder.path_scan .fresh bytes
    have hbytes := ChunkDecoder.bytes_scan .fresh bytes
    revert hpath hbytes
    generalize ChunkDecoder.fresh.scan bytes = scan
    obtain ⟨m, d, stop⟩ := scan
    intro hpath hbytes
    cases stop with
    | finished rest =>
      obtain ⟨rfl, hd⟩ := hbytes
      exact ⟨_, _, .chunked (ChunkDecoder.isBody_of_accepts ⟨d, hpath, hd⟩) rest⟩
    | more =>
      obtain ⟨rfl, hd⟩ := hbytes
      obtain ⟨n, hbody, hn⟩ := exists_beginning hpath hd
      exact ⟨_, _, .chunkedShort hbody hn⟩
    | fault fault rest =>
      obtain ⟨b, rfl, hfault, hd⟩ := hbytes
      obtain ⟨n, hbody, hn⟩ := exists_beginning hpath hd
      exact ⟨_, _, .chunkedMalformed hbody hn
        (ChunkDecoder.not_viable_of_fault hpath hd hfault) rest⟩

/-- **The rules say one thing**, and it is what the machine makes of the input. -/
theorem delimits_iff : Delimits failure f bytes data e ↔ f.Makes failure bytes data e := by
  refine ⟨makes_of_delimits, ?_⟩
  intro ⟨hdata, hend, _⟩
  obtain ⟨data', e', h⟩ := exists_delimits failure f bytes
  obtain ⟨hdata', hend', _⟩ := makes_of_delimits h
  rwa [← hdata, ← hend, hdata', hend']

theorem Delimits.unique {data' : List UInt8} {e' : BodyEnd} (h : Delimits failure f bytes data e)
    (h' : Delimits failure f bytes data' e') : data' = data ∧ e' = e := by
  obtain ⟨hdata, hend, _⟩ := delimits_iff.mp h
  obtain ⟨hdata', hend', _⟩ := delimits_iff.mp h'
  exact ⟨hdata'.symm.trans hdata, hend'.symm.trans hend⟩

/-! ## 3. Copying -/

/-- What a copy answers that is not stopped by the receiver. -/
def BodyEnd.Answered (e : BodyEnd) (length : Nat) (failure : Option Failure) (c : Copied) : Prop :=
  match e with
  | .complete rest => c.result = .ok length ∧ c.source.bytes = rest ∧ c.source.failure = failure
  | .short e => c.result = .error e
  | .malformed => ∃ fault, c.result = .error (.chunk fault)

/-- No end of a body is the failure of a receiver, unless the input fails like that. -/
theorem Delimits.ne_full (h : Delimits failure f bytes data e)
    (hf : failure ≠ some Sink.full) : e ≠ .short (.transport Sink.full) := by
  have hend : ∀ reading, endFault failure reading ≠ .transport Sink.full := by
    intro reading he
    cases failure with
    | none => cases he
    | some e => exact hf (congrArg some (MessageError.transport.inj he))
  cases h with
  | lengthShort => exact fun he => hend _ (BodyEnd.short.inj he)
  | chunkedShort => exact fun he => hend _ (BodyEnd.short.inj he)
  | untilFailure _ hfail =>
    rintro he
    cases he
    exact hf hfail
  | none | length | untilClose | chunked | chunkedMalformed => nofun

section Copy

variable {source : Source} {sink : Sink} {limit : Nat}

/-- With room for the data, the copy answers by the end of the body. -/
theorem answered_of_fits (hroom : sink.room = some limit) (hper : sink.perWrite ≠ some 0)
    (h : Delimits source.failure f source.bytes data e) (hfits : data.length ≤ limit) :
    e.Answered data.length source.failure (f.copy source sink) := by
  obtain ⟨hdata, hend, hlen⟩ := delimits_iff.mp h
  obtain ⟨_, hends⟩ := f.copy_within source hper
  have hup : Sink.upTo sink.room (f.yield source.failure source.bytes).output =
      (f.yield source.failure source.bytes).output := by
    rw [hdata, hroom]
    exact List.take_of_length_le hfits
  rw [Yield.within_of_fits hup] at hends
  unfold Copied.Ends at hends
  subst hend
  cases hr : (f.yield source.failure source.bytes).result with
  | ok r =>
    obtain ⟨n, rest⟩ := r
    rw [hr] at hends
    rw [← hlen n rest hr]
    exact hends
  | error e =>
    rw [hr] at hends
    cases e with
    | chunk fault => exact ⟨fault, hends⟩
    | _ => exact hends

/-- Without room for the data, the receiver stops the copy. -/
theorem full_of_short (hroom : sink.room = some limit) (hper : sink.perWrite ≠ some 0)
    (h : Delimits source.failure f source.bytes data e) (hshort : limit < data.length) :
    (f.copy source sink).result = .error (.transport Sink.full) := by
  obtain ⟨hdata, _, _⟩ := delimits_iff.mp h
  obtain ⟨_, hends⟩ := f.copy_within source hper
  have hup : Sink.upTo sink.room (f.yield source.failure source.bytes).output ≠
      (f.yield source.failure source.bytes).output := by
    rw [hdata, hroom]
    intro heq
    have hlen := congrArg List.length heq
    rw [Sink.upTo, List.length_take] at hlen
    omega
  rw [Yield.within, if_neg hup] at hends
  exact hends

/-- Whatever there is room for of the data is written. -/
theorem written_copy (hroom : sink.room = some limit) (hper : sink.perWrite ≠ some 0)
    (h : Delimits source.failure f source.bytes data e) :
    (f.copy source sink).sink.written.toList = sink.written.toList ++ data.take limit := by
  obtain ⟨hdata, _, _⟩ := delimits_iff.mp h
  obtain ⟨hwrote, _⟩ := f.copy_within source hper
  rw [hwrote.written]
  unfold Yield.within
  split
  · rename_i hup
    rw [← hdata, ← Sink.upTo, ← hroom, hup]
  · dsimp only
    rw [hdata, hroom]
    rfl

/-- **A copy is exact.** The rules delimit some data, with some end, in the bytes of the input, and
    they leave no choice. Wherever the segments of the input are cut and whatever a single write
    takes, the copy writes the first bytes of the data, as many as there is room for. If there is room
    for the data, its answer is that of the end: the number of bytes of a complete body, with the
    bytes behind it unread, or the fault. If there is not, it is the failure of the receiver. -/
theorem Framing.copy_delimited (f : Framing) (source : Source) (sink : Sink) (limit : Nat)
    (hroom : sink.room = some limit) (hper : sink.perWrite ≠ some 0) :
    ∃ data e, Delimits source.failure f source.bytes data e ∧
      (∀ data' e', Delimits source.failure f source.bytes data' e' → data' = data ∧ e' = e) ∧
      (f.copy source sink).sink.written.toList = sink.written.toList ++ data.take limit ∧
      (data.length ≤ limit → e.Answered data.length source.failure (f.copy source sink)) ∧
      (limit < data.length → (f.copy source sink).result = .error (.transport Sink.full)) ∧
      ((∃ n, (f.copy source sink).result = .ok n) ↔
        data.length ≤ limit ∧ ∃ rest, e = .complete rest) ∧
      (source.failure ≠ some Sink.full →
        ((f.copy source sink).result = .error (.transport Sink.full) ↔ limit < data.length)) ∧
      (f.isNone = true → f.copy source sink = ⟨.ok 0, source, sink⟩) := by
  obtain ⟨data, e, h⟩ := exists_delimits source.failure f source.bytes
  have hfits := answered_of_fits hroom hper h
  have hshort := full_of_short hroom hper h
  refine ⟨data, e, h, fun _ _ => h.unique, written_copy hroom hper h, hfits, hshort, ?_, ?_,
    fun hf => f.copy_of_isNone hf source sink⟩
  · constructor
    · rintro ⟨n, hn⟩
      have hle : data.length ≤ limit := by
        refine Nat.le_of_not_lt fun hlt => ?_
        cases hn.symm.trans (hshort hlt)
      refine ⟨hle, ?_⟩
      cases e with
      | complete rest => exact ⟨rest, rfl⟩
      | short e => cases hn.symm.trans (hfits hle)
      | malformed =>
        obtain ⟨fault, hfault⟩ := hfits hle
        cases hn.symm.trans hfault
    · rintro ⟨hle, rest, rfl⟩
      exact ⟨data.length, (hfits hle).1⟩
  · intro hf
    refine ⟨fun hfull => Nat.lt_of_not_le fun hle => ?_, hshort⟩
    have hans := hfits hle
    cases e with
    | complete rest => cases hfull.symm.trans hans.1
    | short e =>
      have he : e = .transport Sink.full := Except.error.inj (Eq.symm hans |>.trans hfull)
      exact h.ne_full hf (congrArg BodyEnd.short he)
    | malformed =>
      obtain ⟨fault, hfault⟩ := hans
      cases hfull.symm.trans hfault

end Copy

/-- Two bytes of a body of three have room, a byte at a time; two more bytes follow. -/
theorem copy_delimited_abc :
    (Sink.ofLimits (some 2) (some 1) none).room = some 2 ∧
    ((Framing.length 3).copy (Source.ofSegments [[97], [98, 99, 71], [69]] none)
      (Sink.ofLimits (some 2) (some 1) none)).result = .error (.transport Sink.full) ∧
    ((Framing.length 3).copy (Source.ofSegments [[97], [98, 99, 71], [69]] none)
      (Sink.ofLimits (some 2) (some 1) none)).sink.written.toList = [97, 98] := by
  have hroom : (Sink.ofLimits (some 2) (some 1) none).room = some 2 := rfl
  have hbytes : (Source.ofSegments [[97], [98, 99, 71], [69]] none).bytes = [97, 98, 99] ++ [71, 69] :=
    Source.bytes_ofSegments ..
  obtain ⟨data, e, _, hunique, hwritten, _, hfull, _⟩ :=
    (Framing.length 3).copy_delimited (Source.ofSegments [[97], [98, 99, 71], [69]] none)
      (Sink.ofLimits (some 2) (some 1) none) 2 hroom (by decide)
  have hdelimits : Delimits none (.length 3) ([97, 98, 99] ++ [71, 69]) [97, 98, 99]
      (.complete [71, 69]) := .length rfl _
  rw [← hbytes] at hdelimits
  obtain ⟨rfl, rfl⟩ := hunique _ _ hdelimits
  exact ⟨hroom, hfull (by decide), hwritten⟩

end Sluice.Http
