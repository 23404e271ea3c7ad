/-
  File:      Sluice/Proofs/Chunked/Turns.lean
  Subject:   A chunk decoder gets on with every turn of its loops.

  Two turns of a decoder would use up nothing: one that expects data and has no bytes at hand, and
  one that expects data of a chunk of which nothing is left. `turn` has both of them, and they are
  shown not to happen.

  * `Round`, `Loop`: a loop whose rounds go on or end it; `exists_loop` says that one with a measure
    ends;
  * `turn`: a round of the loop that decodes what is at hand; `turns` says all that it comes to, and
    `answer_eq` that the loop is `decode`;
  * `front_of_on`, `front_of_ends`: a turn uses up bytes; `chunk_of_ends` says how many are data;
  * `refill`: a round of the loop that decodes a stream; `run_eq_refill` says that the loop is
    `decodeTo`;
  * **`steady_of_reached`**: what is left of a chunk in every state of a decoder, and what a turn
    and a call of it come to.
-/
import Sluice.Proofs.Chunked.Pieces

namespace Sluice.Http

open Sluice.Wire

/-! ## 1. Loops -/

/-- What a round of a loop comes to: another round, or the end of the loop. -/
inductive Round (α β : Type) where
  | on (state : α)
  | ends (result : β)

/-- From a state on, a loop ends with a result after so many rounds. -/
inductive Loop {α β : Type} (round : α → Round α β) : Nat → α → β → Prop where
  | ends {a : α} {r : β} (h : round a = .ends r) : Loop round 1 a r
  | on {n : Nat} {a a' : α} {r : β} (h : round a = .on a') (later : Loop round n a' r) :
      Loop round (n + 1) a r

/-- **A loop with a measure ends**, after no more rounds than the measure and one, with the result
    that no round changes. -/
theorem exists_loop {α β : Type} {round : α → Round α β} (I : α → Prop) (measure : α → Nat)
    (result : α → β) (hends : ∀ {a r}, round a = .ends r → result a = r)
    (hon : ∀ {a a'}, I a → round a = .on a' →
      I a' ∧ measure a' < measure a ∧ result a = result a') {a : α} (ha : I a) :
    ∃ n ≤ measure a + 1, Loop round n a (result a) := by
  generalize hk : measure a = k
  induction k using Nat.strongRecOn generalizing a with
  | ind k ih =>
    cases hround : round a with
    | ends r =>
      rw [hends hround]
      exact ⟨1, Nat.le_add_left 1 k, .ends hround⟩
    | on a' =>
      obtain ⟨ha', hlt, hresult⟩ := hon ha hround
      obtain ⟨n, hn, hloop⟩ := ih _ (hk ▸ hlt) ha' rfl
      rw [hresult]
      exact ⟨n + 1, by omega, .on hround hloop⟩

namespace ChunkDecoder

variable {d e : ChunkDecoder} {src rest data : List UInt8} {item : ChunkItem} {b : UInt8}

/-! ## 2. Turns on what is at hand -/

/-- What a turn comes to: a decoder and the bytes left to it, or what the call comes to. -/
abbrev Turn := Round (ChunkDecoder × List UInt8) (ChunkDecoder × ChunkItem × List UInt8)

/-- A turn on one byte. -/
def turnByte (d : ChunkDecoder) : List UInt8 → Turn
  | [] => .ends (d, .more, [])
  | b :: rest =>
    match d.stepByte b with
    | .error f => .ends (d, .fault f, rest)
    | .ok e => .on (e, rest)

/-- A turn where data is expected. -/
def turnData (d : ChunkDecoder) (src : List UInt8) : Turn :=
  if src = [] then .on (d, src)
  else if d.remaining = 0 then .on (d.goto .dataReturn, src)
  else
    let data := src.take d.remaining.toNat
    .ends (d.takeData data.length, .chunk data, src.drop data.length)

/-- **A turn**, as a call of `decode` makes them one after the other. -/
def turn : ChunkDecoder × List UInt8 → Turn
  | (d, src) =>
    if d.state = .finished then .ends (d, .finished, src)
    else if src = [] then .ends (d, .more, src)
    else if d.state = .data then d.turnData src
    else d.turnByte src

/-- What a turn comes to, case by case. -/
inductive Turns (d : ChunkDecoder) : List UInt8 → Turn → Prop where
  | finished (hd : d.state = .finished) (src : List UInt8) : Turns d src (.ends (d, .finished, src))
  | more (hd : d.state ≠ .finished) : Turns d [] (.ends (d, .more, []))
  | leave (hd : d.state = .data) (hleft : d.remaining = 0) (b : UInt8) (rest : List UInt8) :
      Turns d (b :: rest) (.on (d.goto .dataReturn, b :: rest))
  | chunk (hd : d.state = .data) (hleft : d.remaining ≠ 0) (b : UInt8) (rest : List UInt8) :
      Turns d (b :: rest) (.ends (d.takeData ((b :: rest).take d.remaining.toNat).length,
        .chunk ((b :: rest).take d.remaining.toNat),
        (b :: rest).drop ((b :: rest).take d.remaining.toNat).length))
  | fault {b : UInt8} {f : ChunkFault} (hd : d.state ≠ .finished) (hdata : d.state ≠ .data)
      (hstep : d.stepByte b = .error f) (rest : List UInt8) :
      Turns d (b :: rest) (.ends (d, .fault f, rest))
  | byte {b : UInt8} {e : ChunkDecoder} (hd : d.state ≠ .finished) (hdata : d.state ≠ .data)
      (hstep : d.stepByte b = .ok e) (rest : List UInt8) : Turns d (b :: rest) (.on (e, rest))

theorem turns (d : ChunkDecoder) (src : List UInt8) : Turns d src (turn (d, src)) := by
  unfold turn
  dsimp only
  by_cases hd : d.state = .finished
  · rw [if_pos hd]
    exact .finished hd src
  · rw [if_neg hd]
    cases src with
    | nil =>
      rw [if_pos rfl]
      exact .more hd
    | cons b rest =>
      rw [if_neg (List.cons_ne_nil b rest)]
      by_cases hdata : d.state = .data
      · rw [if_pos hdata, turnData, if_neg (List.cons_ne_nil b rest)]
        by_cases hleft : d.remaining = 0
        · rw [if_pos hleft]
          exact .leave hdata hleft b rest
        · rw [if_neg hleft]
          exact .chunk hdata hleft b rest
      · rw [if_neg hdata, turnByte]
        cases hstep : d.stepByte b with
        | error f => exact .fault hd hdata hstep rest
        | ok e => exact .byte hd hdata hstep rest

/-- What a call of `decode` comes to: the decoder, what came out, and the bytes that are left. -/
def answer (a : ChunkDecoder × List UInt8) : ChunkDecoder × ChunkItem × List UInt8 :=
  ((a.1.decode a.2).decoder, (a.1.decode a.2).item, (a.1.decode a.2).rest)

/-- Outside of data, a call begins with a byte. -/
theorem decode_byte (hd : d.state ≠ .finished) (hdata : d.state ≠ .data) (b : UInt8)
    (rest : List UInt8) : d.decode (b :: rest) =
      match d.stepByte b with
      | .error f => ⟨d, .fault f, 1, rest⟩
      | .ok e => (e.decode rest).behindByte := by
  have hleave : d.leaveData = d := if_neg fun h => hdata h.1
  cases hstep : d.stepByte b with
  | error f => simp only [decode, hd, hdata, hleave, hstep, false_and, if_false]
  | ok e => simp only [decode, hd, hdata, hleave, hstep, false_and, if_false]

/-- A chunk of which nothing is left might as well have been left before. -/
theorem decode_leave (hd : d.state = .data) (hleft : d.remaining = 0) (b : UInt8)
    (rest : List UInt8) : d.decode (b :: rest) = (d.goto .dataReturn).decode (b :: rest) := by
  have hleave : d.leaveData = d.goto .dataReturn := if_pos ⟨hd, hleft⟩
  have hstay : (d.goto .dataReturn).leaveData = d.goto .dataReturn := if_neg (by rintro ⟨⟨⟩, _⟩)
  rw [decode, decode, if_neg (by rw [hd]; nofun), if_neg (fun h => h.2 hleft), hleave, hstay,
    if_neg (by nofun), if_neg (by rintro ⟨⟨⟩, _⟩)]

/-- **A call of `decode` is a loop of turns**: it comes to what its first turn comes to. -/
theorem answer_eq (a : ChunkDecoder × List UInt8) :
    answer a =
      match turn a with
      | .on a' => answer a'
      | .ends r => r := by
  obtain ⟨d, src⟩ := a
  have hturn := turns d src
  generalize turn (d, src) = t at hturn
  unfold answer
  cases hturn with
  | finished hd => rw [decode_finished hd]
  | more hd => rw [decode, if_neg hd]
  | leave hd hleft b rest => rw [decode_leave hd hleft]
  | chunk hd hleft b rest => rw [decode, if_neg (by rw [hd]; nofun), if_pos ⟨hd, hleft⟩]
  | fault hd hdata hstep rest => rw [decode_byte hd hdata, hstep]
  | byte hd hdata hstep rest =>
    rw [decode_byte hd hdata, hstep]
    rfl

theorem answer_of_ends {a : ChunkDecoder × List UInt8} {r : ChunkDecoder × ChunkItem × List UInt8}
    (h : turn a = .ends r) : answer a = r := by
  rw [answer_eq, h]

theorem answer_of_on {a a' : ChunkDecoder × List UInt8} (h : turn a = .on a') :
    answer a = answer a' := by
  rw [answer_eq, h]

/-- **A turn that goes on** has used up a byte, and is one of a decoder that is reached. -/
theorem front_of_on (hd : Reached d) (h : turn (d, src) = .on (e, rest)) :
    (∃ b, src = b :: rest) ∧ Reached e := by
  have hturn := turns d src
  rw [h] at hturn
  cases hturn with
  | leave hdata hleft b rest =>
    have hsound := hd.sound
    rw [Sound, hdata] at hsound
    exact absurd hleft hsound
  | @byte b _ hfin hdata hstep =>
    -- the decoder behind the byte is the one of a call on this byte alone
    have hnext : (d.decode [b]).decoder = e := by
      rw [decode_byte hfin hdata, hstep]
      rfl
    exact ⟨⟨b, rfl⟩, hnext ▸ hd.decode [b]⟩

/-- **A turn that ends a call** has used up bytes, if there were any and the body was not
    complete. -/
theorem front_of_ends (hd : Reached d) (h : turn (d, src) = .ends (e, item, rest)) :
    (src ≠ [] → d.state ≠ .finished → ∃ front, front ≠ [] ∧ src = front ++ rest) ∧ Reached e := by
  have hanswer := answer_of_ends h
  have hdecoder : (d.decode src).decoder = e := congrArg Prod.fst hanswer
  have hrest : (d.decode src).rest = rest := congrArg (fun r => r.2.2) hanswer
  refine ⟨fun hsrc hfin => ?_, hdecoder ▸ hd.decode src⟩
  obtain ⟨b, bs, rfl⟩ := List.exists_cons_of_ne_nil hsrc
  have hpos := used_pos hfin b bs
  refine ⟨(b :: bs).take (d.decode (b :: bs)).used, ?_, ?_⟩
  · rw [ne_eq, List.take_eq_nil_iff, not_or]
    exact ⟨Nat.ne_of_gt hpos, List.cons_ne_nil b bs⟩
  · rw [← hrest, ← drop_used, List.take_append_drop]

/-- **Data that is handed out** is there, is no more than what is left of the chunk, and is missing
    from it afterwards. -/
theorem chunk_of_ends (h : turn (d, src) = .ends (e, .chunk data, rest)) :
    data ≠ [] ∧ src = data ++ rest ∧ data.length ≤ d.remaining.toNat ∧
      e.remaining.toNat + data.length = d.remaining.toNat := by
  have hturn := turns d src
  rw [h] at hturn
  cases hturn with
  | chunk hdata hleft b rest =>
    have hle : ((b :: rest).take d.remaining.toNat).length ≤ d.remaining.toNat :=
      List.length_take_le ..
    have hsub : (d.takeData ((b :: rest).take d.remaining.toNat).length).remaining.toNat = _ :=
      toNat_sub_ofNat hle
    refine ⟨?_, ?_, hle, ?_⟩
    · rw [ne_eq, List.take_eq_nil_iff, not_or]
      exact ⟨fun h0 => hleft (UInt64.toNat_inj.mp h0), List.cons_ne_nil b rest⟩
    · exact (List.prefix_iff_eq_append.mp (List.take_prefix _ (b :: rest))).symm
    · rw [hsub]
      exact Nat.sub_add_cancel hle

/-! ## 3. Turns on a stream -/

/-- What a refill comes to: a decoder with the stream and the receiver, or how the body ended. -/
abbrev Refill := Round (ChunkProgress × Source × Sink) (Outcome ChunkProgress Nat)

/-- What is made of a call on what is at hand: data is written before the bytes are used up, and a
    fault uses up none. -/
def settle (s : ChunkProgress) (source : Source) (sink : Sink) (r : Decoded) : Refill :=
  match r.item with
  | .fault f => .ends ⟨.error (.chunk f), ⟨r.decoder, s.written⟩, source, sink⟩
  | .finished => .ends ⟨.ok s.written, ⟨r.decoder, s.written⟩, source.consume r.used, sink⟩
  | .more => .on (⟨r.decoder, s.written⟩, source.consume r.used, sink)
  | .chunk data =>
    let next : ChunkProgress := ⟨r.decoder, s.written + data.length⟩
    match sink.writeAll data with
    | (some e, sink) => .ends ⟨.error (.transport e), next, source, sink⟩
    | (none, sink) => .on (next, source.consume r.used, sink)

/-- **A refill**, as `decodeTo` makes them one after the other. -/
def refill : ChunkProgress × Source × Sink → Refill
  | (s, source, sink) =>
    match source.available with
    | .error e => .ends ⟨.error (.transport e), s, source, sink⟩
    | .ok bytes =>
      if bytes = [] ∧ ¬ s.decoder.isFinished then
        .ends ⟨.error (.endOfInput .chunkedBody), s, source, sink⟩
      else settle s source sink (s.decoder.decode bytes)

/-- **`decodeTo` is a loop of refills**: it comes to what the first of them comes to. -/
theorem run_eq_refill (s : ChunkProgress) (source : Source) (sink : Sink) :
    chunkFeeder.run s source sink =
      match refill (s, source, sink) with
      | .on (s', source', sink') => chunkFeeder.run s' source' sink'
      | .ends o => o := by
  cases ha : source.available with
  | error e => rw [Feeder.run_of_error ha, refill, ha]
  | ok bytes =>
    cases bytes with
    | nil =>
      rw [Feeder.run_of_end ha, refill, ha]
      dsimp only
      by_cases hfin : s.decoder.isFinished = true
      · have hend : chunkFeeder.atEnd s = .ok s.written := if_pos hfin
        rw [if_neg (fun h => h.2 hfin), decode_finished (beq_iff_eq.mp hfin), settle, hend]
        dsimp only
        rw [Source.consume_zero]
      · have hend : chunkFeeder.atEnd s = .error (.endOfInput .chunkedBody) := if_neg hfin
        rw [if_pos ⟨rfl, hfin⟩, hend]
    | cons b bs =>
      rw [Feeder.run_of_available ha, refill, ha]
      dsimp only
      rw [if_neg (fun h => List.cons_ne_nil b bs h.1), settle]
      simp only [chunkFeeder]
      cases (s.decoder.decode (b :: bs)).item with
      | fault f => simp only [Source.consume_zero]
      | finished => simp only [Sink.writeAll_nil]
      | more => simp only [Sink.writeAll_nil]
      | chunk data =>
        dsimp only
        cases sink.writeAll data with
        | mk failure sink' => cases failure <;> rfl

/-- **A refill that goes on** has used up input, and leaves a decoder that is reached. -/
theorem size_of_refill_on {s s' : ChunkProgress} {source source' : Source} {sink sink' : Sink}
    (hd : Reached s.decoder) (h : refill (s, source, sink) = .on (s', source', sink')) :
    source'.size < source.size ∧ Reached s'.decoder := by
  cases ha : source.available with
  | error e =>
    rw [refill, ha] at h
    cases h
  | ok bytes =>
    rw [refill, ha] at h
    dsimp only at h
    have hreached := hd.decode bytes
    by_cases hfin : s.decoder.state = .finished
    · -- a complete body ends the loop
      rw [if_neg (fun hempty => hempty.2 (beq_iff_eq.mpr hfin)), decode_finished hfin] at h
      cases h
    · have hne : bytes ≠ [] := by
        intro hnil
        rw [if_pos ⟨hnil, mt beq_iff_eq.mp hfin⟩] at h
        cases h
      obtain ⟨b, bs, rfl⟩ := List.exists_cons_of_ne_nil hne
      have hlt := Source.size_consume_lt ha (used_pos hfin b bs)
      rw [if_neg (fun hempty => hne hempty.1), settle] at h
      cases hitem : (s.decoder.decode (b :: bs)).item with
      | fault f =>
        rw [hitem] at h
        cases h
      | finished =>
        rw [hitem] at h
        cases h
      | more =>
        rw [hitem] at h
        cases h
        exact ⟨hlt, hreached⟩
      | chunk data =>
        rw [hitem] at h
        dsimp only at h
        split at h
        · cases h
        · cases h
          exact ⟨hlt, hreached⟩

/-! ## 4. Every decoder that is reached -/

/-- The states outside of the size of a chunk and its data. -/
def idle : List ChunkState :=
  [.sizeStart, .dataReturn, .dataFeed, .trailer, .trailerFeed, .endReturn, .endFeed, .finished]

/-- **What a decoder keeps and comes to**: what is left of its chunk, a turn on what is at hand, a
    call on it, and the body of a stream. -/
structure Steady (d : ChunkDecoder) : Prop where
  data : d.state = .data → 0 < d.remaining
  idle : d.state ∈ idle → d.remaining = 0
  turnOn : ∀ src e rest, turn (d, src) = .on (e, rest) → (∃ b, src = b :: rest) ∧ Reached e
  turnEnds : ∀ src e item rest, turn (d, src) = .ends (e, item, rest) →
    (src ≠ [] → d.state ≠ .finished → ∃ front, front ≠ [] ∧ src = front ++ rest) ∧ Reached e
  chunk : ∀ src e data rest, turn (d, src) = .ends (e, .chunk data, rest) →
    data ≠ [] ∧ src = data ++ rest ∧ data.length ≤ d.remaining.toNat ∧
      e.remaining.toNat + data.length = d.remaining.toNat
  call : ∀ src, ∃ n ≤ src.length + 1, Loop turn n (d, src) (answer (d, src))
  refillOn : ∀ written source sink s source' sink',
    refill (⟨d, written⟩, source, sink) = .on (s, source', sink') →
      source'.size < source.size ∧ Reached s.decoder
  body : ∀ source sink, ∃ n ≤ source.size + 1,
    Loop refill n (⟨d, 0⟩, source, sink) (d.decodeTo source sink)
  finished : d.state = .finished → ∀ src, d.decode src = ⟨d, .finished, 0, src⟩

/-- A call ends, with a turn for every byte at most and one more. -/
theorem exists_loop_turn (hd : Reached d) (src : List UInt8) :
    ∃ n ≤ src.length + 1, Loop turn n (d, src) (answer (d, src)) := by
  refine exists_loop (fun a : ChunkDecoder × List UInt8 => Reached a.1) (fun a => a.2.length) answer
    answer_of_ends (fun {a a'} ha hon => ?_) (show Reached (d, src).1 from hd)
  obtain ⟨⟨b, hb⟩, hreached⟩ := front_of_on ha hon
  refine ⟨hreached, ?_, answer_of_on hon⟩
  rw [hb, List.length_cons]
  exact Nat.lt_succ_self _

/-- A body ends, with a refill for every byte at most and one more. -/
theorem exists_loop_refill (hd : Reached d) (source : Source) (sink : Sink) :
    ∃ n ≤ source.size + 1, Loop refill n (⟨d, 0⟩, source, sink) (d.decodeTo source sink) := by
  refine exists_loop (fun a : ChunkProgress × Source × Sink => Reached a.1.decoder)
    (fun a => a.2.1.size) (fun a => chunkFeeder.run a.1 a.2.1 a.2.2)
    (fun {a r} hends => ?_) (fun {a a'} ha hon => ?_)
    (show Reached ((⟨d, 0⟩, source, sink) : ChunkProgress × Source × Sink).1.decoder from hd)
  · rw [run_eq_refill, hends]
  · obtain ⟨hlt, hreached⟩ := size_of_refill_on ha hon
    exact ⟨hreached, hlt, by rw [run_eq_refill, hon]⟩

/-- **Every decoder that is reached is steady**: whatever it was fed, faults included, something is
    left of a chunk where data is expected and nothing outside of sizes and data; so every turn uses
    up what it should, and every call and every body ends. -/
theorem steady_of_reached (hd : Reached d) : d.Steady where
  data hdata := by
    have hsound := hd.sound
    rw [Sound, hdata] at hsound
    exact UInt64.pos_iff_ne_zero.mpr hsound
  idle hidle := by
    have hsound := hd.sound
    obtain ⟨state, remaining⟩ := d
    change state ∈ ChunkDecoder.idle at hidle
    cases state <;> first | exact hsound | exact absurd hidle (by decide)
  turnOn _ _ _ h := front_of_on hd h
  turnEnds _ _ _ _ h := front_of_ends hd h
  chunk _ _ _ _ h := chunk_of_ends h
  call := exists_loop_turn hd
  refillOn _ _ _ _ _ _ h := size_of_refill_on hd h
  body := exists_loop_refill hd
  finished hfin := decode_finished hfin

/-- In the midst of a chunk of two bytes, a byte before its size having been refused. -/
theorem steady_of_reached_midway :
    let d := ((fresh.decode [0x78]).decoder.decode [0x32, 0x0d, 0x0a, 0x61]).decoder
    Reached d ∧ d = ⟨.data, 1⟩ ∧ d.Steady := by
  intro d
  have hd : Reached d := (Reached.fresh.decode [0x78]).decode [0x32, 0x0d, 0x0a, 0x61]
  exact ⟨hd, by decide, steady_of_reached hd⟩

end ChunkDecoder

end Sluice.Http
