/-
  File:      Sluice/Proofs/Chunked/Scan.lean
  Subject:   A chunk decoder byte by byte.

  * `eat`: one byte, data or not;
  * `Path`: a decoder gets from one state to another over bytes that it marks as data or not;
  * `scan`: all the bytes that a decoder reads of a string, and how it stops;
  * `advances_decode`: a call of `decode` follows a path up to the next data, the end of the body, the
    end of the bytes or a fault;
  * `yields_chunkFeeder`: a decoder fed from a stream does what `scan` does with all its bytes,
    wherever the segments are cut.
-/
import Sluice.Proofs.Chunked.Grammar
import Sluice.Proofs.Feeding

namespace Sluice.Http

open Sluice.Wire Chunked

/-! ## 1. One byte -/

namespace ChunkDecoder

/-- One byte: the decoder behind it, and whether it was data. -/
def eat (d : ChunkDecoder) (b : UInt8) : Except ChunkFault (ChunkDecoder × Bool) :=
  if d.state = .data ∧ d.remaining ≠ 0 then .ok (d.takeData 1, true)
  else (d.leaveData.stepByte b).map (·, false)

/-- How reading stops: behind a complete body, at the end of the bytes, or at a byte that cannot
    follow, with the bytes behind it. -/
inductive Stop where
  | finished (rest : List UInt8)
  | more
  | fault (f : ChunkFault) (rest : List UInt8)
  deriving DecidableEq, Repr

/-- What was read of a string: the bytes with their marks, the decoder behind them, and why no more
    was read. -/
structure Scan where
  read : Marked
  decoder : ChunkDecoder
  stop : Stop
  deriving DecidableEq, Repr

/-- Reads byte by byte. -/
def scan (d : ChunkDecoder) : List UInt8 → Scan
  | [] => ⟨[], d, if d.state = .finished then .finished [] else .more⟩
  | b :: bs =>
    if d.state = .finished then ⟨[], d, .finished (b :: bs)⟩
    else
      match d.eat b with
      | .error f => ⟨[], d, .fault f bs⟩
      | .ok (e, mark) => { e.scan bs with read := (b, mark) :: (e.scan bs).read }

/-! ## 2. Paths -/

/-- From one state to another over marked bytes, none of them behind the end of the body. -/
inductive Path : ChunkDecoder → Marked → ChunkDecoder → Prop where
  | nil (d : ChunkDecoder) : Path d [] d
  | cons {d e f : ChunkDecoder} {b : UInt8} {mark : Bool} {m : Marked}
      (hd : d.state ≠ .finished) (he : d.eat b = .ok (e, mark)) (hm : Path e m f) :
      Path d ((b, mark) :: m) f

variable {d e f : ChunkDecoder} {m n : Marked} {b : UInt8} {rest : List UInt8}

theorem Path.append (h : Path d m e) (h' : Path e n f) : Path d (m ++ n) f := by
  induction h with
  | nil => exact h'
  | cons hd he _ ih => exact .cons hd he (ih h')

theorem Path.single {mark : Bool} (hd : d.state ≠ .finished) (he : d.eat b = .ok (e, mark)) :
    Path d [(b, mark)] e :=
  .cons hd he (.nil e)

/-- **Reading follows the path.** What lies behind it is read from its end on. -/
theorem scan_of_path (h : Path d m e) (rest : List UInt8) :
    d.scan (m.bytes ++ rest) = { e.scan rest with read := m ++ (e.scan rest).read } := by
  induction h with
  | nil => rfl
  | cons hd he _ ih =>
    rw [bytes_cons, List.cons_append, scan, if_neg hd, he]
    dsimp only
    rw [ih]
    rfl

theorem path_scan (d : ChunkDecoder) (bs : List UInt8) :
    Path d (d.scan bs).read (d.scan bs).decoder := by
  induction bs generalizing d with
  | nil => exact .nil d
  | cons b bs ih =>
    unfold scan
    split
    · exact .nil d
    · rename_i hd
      split
      · exact .nil d
      · rename_i e mark he
        exact .cons hd he (ih e)

/-- What a scan read and what it did not read, by the way it stopped. -/
theorem bytes_scan (d : ChunkDecoder) (bs : List UInt8) :
    match (d.scan bs).stop with
    | .finished rest =>
      bs = (d.scan bs).read.bytes ++ rest ∧ (d.scan bs).decoder.state = .finished
    | .more => bs = (d.scan bs).read.bytes ∧ (d.scan bs).decoder.state ≠ .finished
    | .fault f rest =>
      ∃ b, bs = (d.scan bs).read.bytes ++ b :: rest ∧ (d.scan bs).decoder.eat b = .error f ∧
        (d.scan bs).decoder.state ≠ .finished := by
  induction bs generalizing d with
  | nil =>
    simp only [scan]
    by_cases h : d.state = .finished
    · rw [if_pos h]
      exact ⟨rfl, h⟩
    · rw [if_neg h]
      exact ⟨rfl, h⟩
  | cons b bs ih =>
    unfold scan
    by_cases hd : d.state = .finished
    · rw [if_pos hd]
      exact ⟨rfl, hd⟩
    · rw [if_neg hd]
      cases he : d.eat b with
      | error f => exact ⟨b, rfl, he, hd⟩
      | ok r =>
        obtain ⟨e, mark⟩ := r
        have := ih e
        dsimp only
        revert this
        cases (e.scan bs).stop with
        | finished rest => exact fun ⟨h, hs⟩ => ⟨congrArg (b :: ·) h, hs⟩
        | more => exact fun ⟨h, hs⟩ => ⟨congrArg (b :: ·) h, hs⟩
        | fault f rest => exact fun ⟨c, h, hs⟩ => ⟨c, congrArg (b :: ·) h, hs⟩

/-! ## 3. Calls of `decode` -/

/-- What a call of `decode` comes to, said by paths. -/
inductive Advances (d : ChunkDecoder) : List UInt8 → Decoded → Prop where
  | chunk {m : Marked} {e : ChunkDecoder} {rest : List UInt8} (h : Path d m e)
      (hm : m.data ≠ []) (he : e.state ≠ .finished) :
      Advances d (m.bytes ++ rest) ⟨e, .chunk m.data, m.length, rest⟩
  | finished {m : Marked} {e : ChunkDecoder} {rest : List UInt8} (h : Path d m e)
      (hm : m.data = []) (he : e.state = .finished) :
      Advances d (m.bytes ++ rest) ⟨e, .finished, m.length, rest⟩
  | more {m : Marked} {e : ChunkDecoder} (h : Path d m e) (hm : m.data = [])
      (he : e.state ≠ .finished) : Advances d m.bytes ⟨e, .more, m.length, []⟩
  | fault {m : Marked} {e : ChunkDecoder} {b : UInt8} {f : ChunkFault} {rest : List UInt8}
      (h : Path d m e) (hm : m.data = []) (he : e.state ≠ .finished) (hf : e.eat b = .error f) :
      Advances d (m.bytes ++ b :: rest) ⟨e.leaveData, .fault f, m.length + 1, rest⟩

/-- A byte in front that is no data. -/
theorem Advances.behindByte {bs : List UInt8} {r : Decoded} (hd : d.state ≠ .finished)
    (he : d.eat b = .ok (e, false)) (h : Advances e bs r) : Advances d (b :: bs) r.behindByte := by
  cases h with
  | chunk h hm hf => exact .chunk (.cons hd he h) hm hf
  | finished h hm hf => exact .finished (.cons hd he h) hm hf
  | more h hm hf => exact .more (.cons hd he h) hm hf
  | fault h hm hf hb => exact .fault (.cons hd he h) hm hf hb

/-- What is left after `n` bytes of data, as a number. -/
theorem toNat_sub_ofNat {r : UInt64} {n : Nat} (h : n ≤ r.toNat) :
    (r - UInt64.ofNat n).toNat = r.toNat - n := by
  have hn : (UInt64.ofNat n).toNat = n :=
    UInt64.toNat_ofNat_of_lt' (Nat.lt_of_le_of_lt h r.toNat_lt)
  rw [UInt64.toNat_sub_of_le _ _ (by rw [UInt64.le_iff_toNat_le, hn]; exact h), hn]

/-- Data taken byte by byte is data taken at once. -/
theorem takeData_takeData (d : ChunkDecoder) (n : Nat) :
    (d.takeData 1).takeData n = d.takeData (n + 1) := by
  have h : d.remaining - UInt64.ofNat 1 - UInt64.ofNat n = d.remaining - UInt64.ofNat (n + 1) := by
    rw [UInt64.ofNat_add]
    grind
  simp only [takeData, h]

/-- **A run of data** is read one byte after the other. -/
theorem path_content {data : List UInt8} (hd : d.state = .data) (hne : data ≠ [])
    (hlen : data.length ≤ d.remaining.toNat) :
    Path d (content data) (d.takeData data.length) := by
  induction data generalizing d with
  | nil => exact absurd rfl hne
  | cons b bs ih =>
    have hr : d.remaining ≠ 0 := by
      intro h
      rw [h] at hlen
      simp at hlen
    have hfin : d.state ≠ .finished := by
      rw [hd]
      decide
    have he : d.eat b = .ok (d.takeData 1, true) := by rw [eat, if_pos ⟨hd, hr⟩]
    by_cases hbs : bs = []
    · subst hbs
      exact .single hfin he
    · have hpos := List.length_pos_iff.mpr hbs
      have hleft : (d.remaining - UInt64.ofNat 1).toNat = d.remaining.toNat - 1 :=
        toNat_sub_ofNat (by simp only [List.length_cons] at hlen; omega)
      have hne : d.remaining - UInt64.ofNat 1 ≠ 0 := by
        intro h
        rw [h] at hleft
        simp only [List.length_cons, UInt64.toNat_zero] at hlen hleft
        omega
      have hstate : (d.takeData 1).state = .data := by simp only [takeData, if_neg hne]
      have hrem : (d.takeData 1).remaining.toNat = d.remaining.toNat - 1 := hleft
      have := ih hstate hbs (by simp only [List.length_cons] at hlen; omega)
      rw [takeData_takeData] at this
      exact .cons hfin he this

theorem take_append_drop_length (n : Nat) (bs : List UInt8) :
    bs.take n ++ bs.drop (bs.take n).length = bs := by
  rcases Nat.le_total n bs.length with h | h
  · rw [List.length_take_of_le h, List.take_append_drop]
  · rw [List.take_of_length_le h, List.drop_length, List.append_nil]

theorem state_takeData_ne (d : ChunkDecoder) (n : Nat) : (d.takeData n).state ≠ .finished := by
  simp only [takeData]
  split <;> decide

/-- **A call of `decode`** goes on to the next data, the end of the body, the end of the bytes, or a
    fault. -/
theorem advances_decode (hd : d.state ≠ .finished) (bs : List UInt8) :
    Advances d bs (d.decode bs) := by
  induction bs generalizing d with
  | nil =>
    rw [decode, if_neg hd]
    exact .more (.nil d) rfl hd
  | cons b bs ih =>
    rw [decode, if_neg hd]
    by_cases hdata : d.state = .data ∧ d.remaining ≠ 0
    · rw [if_pos hdata]
      have hpos : 0 < d.remaining.toNat := by
        rcases Nat.eq_zero_or_pos d.remaining.toNat with h0 | h0
        · exact absurd (UInt64.toNat_inj.mp h0) hdata.2
        · exact h0
      have hne : (b :: bs).take d.remaining.toNat ≠ [] := by
        simp only [ne_eq, List.take_eq_nil_iff, not_or, reduceCtorEq, not_false_eq_true, and_true]
        omega
      have hp := path_content hdata.1 hne (List.length_take_le ..)
      have hlen : (content ((b :: bs).take d.remaining.toNat)).length =
          ((b :: bs).take d.remaining.toNat).length := List.length_map _
      have h := @Advances.chunk _ _ _ ((b :: bs).drop ((b :: bs).take d.remaining.toNat).length) hp
        (by rwa [data_content]) (d.state_takeData_ne _)
      rw [bytes_content, data_content, hlen, take_append_drop_length] at h
      exact h
    · rw [if_neg hdata]
      cases hs : d.leaveData.stepByte b with
      | error f =>
        exact .fault (.nil d) rfl hd (by rw [eat, if_neg hdata, hs]; rfl)
      | ok e =>
        have he : d.eat b = .ok (e, false) := by rw [eat, if_neg hdata, hs]; rfl
        by_cases hfin : e.state = .finished
        · have h : e.decode bs = ⟨e, .finished, 0, bs⟩ := by
            cases bs <;> simp [decode, hfin]
          dsimp only
          rw [h]
          exact .finished (.single hd he) rfl hfin
        · exact (ih hfin).behindByte hd he

/-- A call that hands out data: the scan goes on behind it, from the bytes that are left. -/
theorem scan_of_chunk {bs data : List UInt8} (hd : d.state ≠ .finished)
    (hi : (d.decode bs).item = .chunk data) :
    (d.decode bs).decoder.state ≠ .finished ∧ (d.decode bs).rest.length < bs.length ∧
      ∃ m : Marked, m.data = data ∧ ∀ later, d.scan (bs ++ later) =
        { (d.decode bs).decoder.scan ((d.decode bs).rest ++ later) with
          read := m ++ ((d.decode bs).decoder.scan ((d.decode bs).rest ++ later)).read } := by
  have h := advances_decode hd bs
  generalize d.decode bs = r at h hi ⊢
  cases h with
  | @chunk m e rest h hm he =>
    cases hi
    have hpos : 0 < List.length m := List.length_pos_iff.mpr fun e => hm (by rw [e, data_nil])
    refine ⟨he, ?_, m, rfl, ?_⟩
    · simp only [List.length_append, length_bytes]
      omega
    · intro later
      rw [List.append_assoc]
      exact scan_of_path h (rest ++ later)
  | finished h hm he => cases hi
  | more h hm he => cases hi
  | fault h hm he hf => cases hi

/-- A call that ends the body. -/
theorem scan_of_finished {bs : List UInt8} (hd : d.state ≠ .finished)
    (hi : (d.decode bs).item = .finished) (later : List UInt8) :
    (d.scan (bs ++ later)).read.data = [] ∧
      (d.scan (bs ++ later)).stop = .finished ((d.decode bs).rest ++ later) := by
  have h := advances_decode hd bs
  generalize d.decode bs = r at h hi ⊢
  cases h with
  | chunk h hm he => cases hi
  | @finished m e rest h hm he =>
    have : e.scan (rest ++ later) = ⟨[], e, .finished (rest ++ later)⟩ := by
      cases rest ++ later <;> simp [scan, he]
    rw [List.append_assoc, scan_of_path h, this]
    exact ⟨by rw [List.append_nil, hm], rfl⟩
  | more h hm he => cases hi
  | fault h hm he hf => cases hi

/-- A call that uses up the bytes: the scan of more bytes goes on behind it. -/
theorem scan_of_more {bs : List UInt8} (hd : d.state ≠ .finished)
    (hi : (d.decode bs).item = .more) :
    (d.decode bs).decoder.state ≠ .finished ∧ (d.decode bs).rest = [] ∧
      ∃ m : Marked, m.data = [] ∧ ∀ later, d.scan (bs ++ later) =
        { (d.decode bs).decoder.scan later with
          read := m ++ ((d.decode bs).decoder.scan later).read } := by
  have h := advances_decode hd bs
  generalize d.decode bs = r at h hi ⊢
  cases h with
  | chunk h hm he => cases hi
  | finished h hm he => cases hi
  | @more m e h hm he => exact ⟨he, rfl, m, hm, scan_of_path h⟩
  | fault h hm he hf => cases hi

/-- A call that faults: the scan faults at the same byte, whatever bytes are behind it. -/
theorem scan_of_fault {bs : List UInt8} {f : ChunkFault} (hd : d.state ≠ .finished)
    (hi : (d.decode bs).item = .fault f) (later : List UInt8) :
    (d.scan (bs ++ later)).read.data = [] ∧
      (d.scan (bs ++ later)).stop = .fault f ((d.decode bs).rest ++ later) := by
  have h := advances_decode hd bs
  generalize d.decode bs = r at h hi ⊢
  cases h with
  | chunk h hm he => cases hi
  | finished h hm he => cases hi
  | more h hm he => cases hi
  | @fault m e b f rest h hm he hf =>
    cases hi
    have hscan : e.scan (b :: (rest ++ later)) = ⟨[], e, .fault f (rest ++ later)⟩ := by
      rw [scan, if_neg he, hf]
    rw [List.append_assoc, List.cons_append, scan_of_path h, hscan]
    exact ⟨by rw [List.append_nil, hm], rfl⟩

/-- A call uses no more than there is, and leaves the rest. -/
theorem used_le (hd : d.state ≠ .finished) (bs : List UInt8) :
    (d.decode bs).used ≤ bs.length := by
  have h := advances_decode hd bs
  generalize d.decode bs = r at h
  cases h <;> simp only [List.length_append, length_bytes, List.length_cons] <;> omega

/-- Data uses up bytes. -/
theorem length_rest_lt {bs data : List UInt8} (hi : (d.decode bs).item = .chunk data) :
    (d.decode bs).rest.length < bs.length := by
  by_cases hd : d.state = .finished
  · have : (d.decode bs).item = .finished := by cases bs <;> simp [decode, hd]
    rw [this] at hi
    cases hi
  · exact (scan_of_chunk hd hi).2.1

/-- Calls of `decode` as long as data comes out: all of the data, and the call behind it. -/
def exhaust (d : ChunkDecoder) (bs : List UInt8) : List UInt8 × Decoded :=
  match _h : (d.decode bs).item with
  | .chunk data =>
    let later := (d.decode bs).decoder.exhaust (d.decode bs).rest
    (data ++ later.1, later.2)
  | .finished | .more | .fault _ => ([], d.decode bs)
termination_by bs.length
decreasing_by exact length_rest_lt _h

/-- The item that a call of `decode` comes to where reading stops. -/
def Stop.item : Stop → ChunkItem
  | .finished _ => .finished
  | .more => .more
  | .fault f _ => .fault f

/-- The bytes behind the place where reading stops. -/
def Stop.unread : Stop → List UInt8
  | .finished rest => rest
  | .more => []
  | .fault _ rest => rest

/-- **Exhausting a string** by calls of `decode` is reading it byte by byte. -/
theorem exhaust_eq (hd : d.state ≠ .finished) (bs : List UInt8) :
    (d.exhaust bs).1 = (d.scan bs).read.data ∧ (d.exhaust bs).2.item = (d.scan bs).stop.item ∧
      (d.exhaust bs).2.rest = (d.scan bs).stop.unread := by
  fun_induction exhaust d bs with
  | case1 d bs data hi later ih =>
    obtain ⟨he, _, m, hm, hscan⟩ := scan_of_chunk hd hi
    obtain ⟨ih1, ih2, ih3⟩ := ih he
    have hs := hscan []
    rw [List.append_nil, List.append_nil] at hs
    rw [hs]
    exact ⟨by rw [data_append, hm, ← ih1], ih2, ih3⟩
  | case2 d bs hi =>
    obtain ⟨hdata, hstop⟩ := scan_of_finished hd hi []
    rw [List.append_nil] at hdata hstop
    rw [hdata, hstop]
    exact ⟨rfl, hi, (List.append_nil _).symm⟩
  | case3 d bs hi =>
    obtain ⟨he, hrest, m, hm, hscan⟩ := scan_of_more hd hi
    have hs := hscan []
    have hstop : (d.decode bs).decoder.scan [] = ⟨[], (d.decode bs).decoder, .more⟩ := by
      rw [scan, if_neg he]
    rw [List.append_nil, hstop] at hs
    rw [hs]
    exact ⟨by rw [List.append_nil, hm], hi, hrest⟩
  | case4 d bs f hi =>
    obtain ⟨hdata, hstop⟩ := scan_of_fault hd hi []
    rw [List.append_nil] at hdata hstop
    rw [hdata, hstop]
    exact ⟨rfl, hi, (List.append_nil _).symm⟩

end ChunkDecoder

/-! ## 4. Decoding from a stream -/

/-- What decoding makes of flat bytes: it writes the data that is read, and ends by how the reading
    stops. -/
def ChunkProgress.yield (failure : Option Failure) (s : ChunkProgress) (bytes : List UInt8) :
    Yield Nat where
  output := (s.decoder.scan bytes).read.data
  result :=
    match (s.decoder.scan bytes).stop with
    | .finished rest => .ok (s.written + (s.decoder.scan bytes).read.data.length, rest)
    | .more => .error (endFault failure .chunkedBody)
    | .fault f _ => .error (.chunk f)

/-- The body is not complete. -/
def ChunkProgress.Going (s : ChunkProgress) : Prop := s.decoder.state ≠ .finished

/-- What a step of the machine does, by the call of `decode` in it. -/
theorem feed_chunkFeeder (s : ChunkProgress) (bytes : List UInt8) :
    match (s.decoder.decode bytes).item with
    | .chunk data => chunkFeeder.feed s bytes =
        ⟨⟨(s.decoder.decode bytes).decoder, s.written + data.length⟩, data,
          (s.decoder.decode bytes).used, .more⟩
    | .finished => chunkFeeder.feed s bytes =
        ⟨⟨(s.decoder.decode bytes).decoder, s.written⟩, [], (s.decoder.decode bytes).used,
          .done s.written⟩
    | .more => chunkFeeder.feed s bytes =
        ⟨⟨(s.decoder.decode bytes).decoder, s.written⟩, [], (s.decoder.decode bytes).used, .more⟩
    | .fault f => chunkFeeder.feed s bytes =
        ⟨⟨(s.decoder.decode bytes).decoder, s.written⟩, [], 0, .fault (.chunk f)⟩ := by
  simp only [chunkFeeder]
  cases (s.decoder.decode bytes).item <;> rfl

/-- A scan that goes on behind marked bytes, as decoding. -/
theorem yield_of_scan {s next : ChunkProgress} {failure : Option Failure}
    {bytes rest : List UInt8} {m : Marked}
    (hscan : s.decoder.scan bytes = { next.decoder.scan rest with
      read := m ++ (next.decoder.scan rest).read })
    (hwritten : next.written = s.written + m.data.length) :
    s.yield failure bytes = (next.yield failure rest).behind m.data := by
  unfold ChunkProgress.yield Yield.behind
  rw [hscan]
  dsimp only
  rw [data_append, List.length_append, hwritten, Nat.add_assoc]

/-- **The machine decodes** what the bytes say, step by step. -/
theorem yields_chunkFeeder :
    chunkFeeder.Yields ChunkProgress.Going ChunkProgress.yield where
  atEnd failure s hs := by
    have hscan : s.decoder.scan [] = ⟨[], s.decoder, .more⟩ := by
      rw [ChunkDecoder.scan, if_neg hs]
    unfold ChunkProgress.yield
    rw [hscan]
    cases failure with
    | some e => rfl
    | none =>
      have hend : chunkFeeder.atEnd s = .error (.endOfInput .chunkedBody) := by
        simp [chunkFeeder, ChunkDecoder.isFinished, show s.decoder.state ≠ .finished from hs]
      rw [hend]
      rfl
  step failure s b bs later hs := by
    have hle := ChunkDecoder.used_le hs (b :: bs)
    have hrest := ChunkDecoder.drop_used s.decoder (b :: bs)
    have hfeed := feed_chunkFeeder s (b :: bs)
    split at hfeed
    · rename_i data hi
      obtain ⟨he, _, m, hm, hscan⟩ := ChunkDecoder.scan_of_chunk hs hi
      rw [hfeed]
      refine ⟨he, hle, ?_⟩
      dsimp only
      rw [hrest, ← hm]
      exact yield_of_scan (hscan later) rfl
    · rename_i hi
      obtain ⟨hdata, hstop⟩ := ChunkDecoder.scan_of_finished hs hi later
      rw [hfeed]
      refine ⟨hle, ?_⟩
      dsimp only
      rw [hrest]
      unfold ChunkProgress.yield
      rw [hstop, hdata]
      rfl
    · rename_i hi
      obtain ⟨he, hnil, m, hm, hscan⟩ := ChunkDecoder.scan_of_more hs hi
      rw [hfeed]
      refine ⟨he, hle, ?_⟩
      dsimp only
      rw [hrest, hnil, List.nil_append, ← hm]
      exact yield_of_scan (hscan later) (by rw [hm]; rfl)
    · rename_i f hi
      obtain ⟨hdata, hstop⟩ := ChunkDecoder.scan_of_fault hs hi later
      rw [hfeed]
      dsimp only
      unfold ChunkProgress.yield
      rw [hstop, hdata]

end Sluice.Http
