/-
  File:      Sluice/Proofs/Chunked/Pieces.lean
  Subject:   A chunk decoder that is fed piece by piece, and goes on after a fault.

  * `Sound`, `Reached`: what every decoder that calls of `decode` lead to keeps;
  * `drain`, `feed`: decoding one piece, and pieces one after the other, until the body is complete,
    a byte is refused, or nothing is left;
  * `reads_drain`, `reads_feed`: both are what `scan` reads of the bytes, however these are cut;
  * `decode_append`, `drain_append`: one call, and one piece, where more bytes follow;
  * `refused_of_feed`: a fault takes up the byte that is refused and nothing else;
  * `endure`: decoding on after every fault with the decoder as it is;
  * **`feed_pieces`**: pieces decode like the whole, and a byte that is refused might as well not be
    there.
-/
import Sluice.Proofs.Chunked.Language

namespace Sluice.Http

open Chunked

namespace ChunkDecoder

variable {d e : ChunkDecoder} {m : Marked} {b : UInt8} {mark : Bool} {p q bs : List UInt8}

/-! ## 1. Decoders that are reached -/

/-- Data is expected only where some is left, and nothing is left outside of sizes and data. -/
def Sound (d : ChunkDecoder) : Prop :=
  match d.state with
  | .data => d.remaining ≠ 0
  | .size | .sizeSpace | .extension | .sizeFeed => True
  | _ => d.remaining = 0

/-- **A decoder that calls of `decode` lead to**, on whatever bytes, faults included. -/
inductive Reached : ChunkDecoder → Prop where
  | fresh : Reached .fresh
  | decode {d : ChunkDecoder} (hd : Reached d) (bs : List UInt8) : Reached (d.decode bs).decoder

theorem sound_takeData (d : ChunkDecoder) (n : Nat) : (d.takeData n).Sound := by
  unfold takeData Sound
  by_cases h : d.remaining - UInt64.ofNat n = 0
  · simp only [h, if_true]
  · simp only [h, if_false, ne_eq, not_false_eq_true]

theorem sound_afterSize (r : UInt64) : (afterSize r).Sound := by
  unfold afterSize Sound
  by_cases h : r = 0
  · simp only [h, if_true]
  · simp only [h, if_false, ne_eq, not_false_eq_true]

/-- A sound decoder has left its data where none is left. -/
theorem leaveData_of_sound (h : d.Sound) : d.leaveData = d := by
  refine if_neg fun hd => ?_
  rw [Sound, hd.1] at h
  exact h hd.2

/-- **One byte** keeps a decoder sound. -/
theorem sound_eat (h : d.Sound) (he : d.eat b = .ok (e, mark)) : e.Sound := by
  obtain ⟨s, r⟩ := d
  cases s with
  | sizeStart =>
    rw [eat_sizeStart] at he
    split at he <;> cases he
    trivial
  | size =>
    rw [eat_size] at he
    repeat' split at he
    all_goals cases he <;> trivial
  | sizeSpace =>
    rw [eat_sizeSpace] at he
    repeat' split at he
    all_goals cases he <;> trivial
  | extension =>
    rw [eat_extension] at he
    repeat' split at he
    all_goals cases he <;> trivial
  | sizeFeed =>
    rw [eat_sizeFeed] at he
    split at he <;> cases he
    exact sound_afterSize r
  | data =>
    rw [eat_data h] at he
    cases he
    exact sound_takeData _ 1
  | dataReturn =>
    rw [eat_dataReturn] at he
    split at he <;> cases he
    exact h
  | dataFeed =>
    rw [eat_dataFeed] at he
    split at he <;> cases he
    exact h
  | trailer =>
    rw [eat_trailer] at he
    split at he <;> cases he <;> exact h
  | trailerFeed =>
    rw [eat_trailerFeed] at he
    split at he <;> cases he
    exact h
  | endReturn =>
    rw [eat_endReturn] at he
    split at he <;> cases he <;> exact h
  | endFeed =>
    rw [eat_endFeed] at he
    split at he <;> cases he
    exact h
  | finished =>
    cases he
    exact h

theorem sound_path (hp : Path d m e) (h : d.Sound) : e.Sound := by
  induction hp with
  | nil => exact h
  | cons _ he _ ih => exact ih (sound_eat h he)

theorem decode_finished (hd : d.state = .finished) (bs : List UInt8) :
    d.decode bs = ⟨d, .finished, 0, bs⟩ := by
  cases bs <;> rw [decode, if_pos hd]

theorem sound_decode (h : d.Sound) (bs : List UInt8) : (d.decode bs).decoder.Sound := by
  by_cases hd : d.state = .finished
  · rw [decode_finished hd]
    exact h
  · have ha := advances_decode hd bs
    generalize d.decode bs = r at ha
    cases ha with
    | chunk hp => exact sound_path hp h
    | finished hp => exact sound_path hp h
    | more hp => exact sound_path hp h
    | fault hp =>
      have he := sound_path hp h
      rwa [← leaveData_of_sound he] at he

theorem Reached.sound (h : Reached d) : d.Sound := by
  induction h with
  | fresh => rfl
  | decode _ bs ih => exact sound_decode ih bs

/-! ## 2. One piece -/

/-- What came of decoding: the data handed out call by call, the decoder, what the last call came to,
    and the pieces that are left, the first one as far as it was not used. -/
structure Fed where
  chunks : List (List UInt8)
  decoder : ChunkDecoder
  item : ChunkItem
  left : List (List UInt8)

/-- The same with data in front. -/
def Fed.behind (r : Fed) (chunks : List (List UInt8)) : Fed :=
  { r with chunks := chunks ++ r.chunks }

/-- One piece, by calls of `decode` as long as data comes out. -/
def drain (d : ChunkDecoder) (p : List UInt8) : Fed :=
  match _h : (d.decode p).item with
  | .chunk data => ((d.decode p).decoder.drain (d.decode p).rest).behind [data]
  | item => ⟨[], (d.decode p).decoder, item, [(d.decode p).rest]⟩
termination_by p.length
decreasing_by exact length_rest_lt _h

/-- A call that hands out data, and the calls behind it. -/
theorem drain_of_chunk {data : List UInt8} (hi : (d.decode p).item = .chunk data) :
    d.drain p = ((d.decode p).decoder.drain (d.decode p).rest).behind [data] := by
  rw [drain]
  split <;> simp_all

/-- The last call. -/
theorem drain_of_last (hi : ∀ data, (d.decode p).item ≠ .chunk data) :
    d.drain p = ⟨[], (d.decode p).decoder, (d.decode p).item, [(d.decode p).rest]⟩ := by
  rw [drain]
  split <;> simp_all

/-- Decoding in calls is reading byte by byte: the same data, decoder, end, and unread bytes. -/
structure Fed.Reads (r : Fed) (s : Scan) : Prop where
  data : r.chunks.flatten = s.read.data
  decoder : r.decoder = s.decoder
  item : r.item = s.stop.item
  left : r.left.flatten = s.stop.unread

/-- The last call reads on to where reading stops. -/
theorem reads_of_last (hs : d.Sound) (hi : ∀ data, (d.decode p).item ≠ .chunk data) :
    Fed.Reads ⟨[], (d.decode p).decoder, (d.decode p).item, [(d.decode p).rest]⟩ (d.scan p) := by
  by_cases hd : d.state = .finished
  · rw [decode_finished hd, scan_finished hd]
    exact ⟨rfl, rfl, rfl, List.append_nil p⟩
  · have ha := advances_decode hd p
    generalize d.decode p = r at ha hi
    cases ha with
    | chunk => exact absurd rfl (hi _)
    | @finished m e rest hp hm he =>
      rw [scan_of_path hp, scan_finished he]
      exact ⟨by rw [List.append_nil, hm]; rfl, rfl, rfl, List.append_nil rest⟩
    | @more m e hp hm he =>
      have hscan := scan_of_path hp []
      rw [List.append_nil, scan, if_neg he] at hscan
      rw [hscan]
      exact ⟨by rw [List.append_nil, hm]; rfl, rfl, rfl, rfl⟩
    | @fault m e b f rest hp hm he hf =>
      have hscan : e.scan (b :: rest) = ⟨[], e, .fault f rest⟩ := by rw [scan, if_neg he, hf]
      rw [scan_of_path hp, hscan]
      exact ⟨by rw [List.append_nil, hm]; rfl, leaveData_of_sound (sound_path hp hs), rfl,
        List.append_nil rest⟩

/-- **A piece that is drained** is read byte by byte. -/
theorem reads_drain (hs : d.Sound) (p : List UInt8) : (d.drain p).Reads (d.scan p) := by
  fun_induction drain d p with
  | case1 d p data hi ih =>
    by_cases hd : d.state = .finished
    · rw [decode_finished hd] at hi
      cases hi
    · obtain ⟨_, _, m, hm, hscan⟩ := scan_of_chunk hd hi
      have hs' := hscan []
      rw [List.append_nil, List.append_nil] at hs'
      have h := ih (sound_decode hs p)
      rw [hs']
      refine ⟨?_, h.decoder, h.item, h.left⟩
      rw [Fed.behind, List.flatten_append, h.data, data_append, hm, List.flatten_singleton]
  | case2 d p hi => exact reads_of_last hs hi

/-- In the midst of the data of a chunk. -/
def Midway (d : ChunkDecoder) : Prop := d.state = .data ∧ d.remaining ≠ 0

/-- Data that ends where the bytes at hand end leaves the decoder in the midst of a chunk, unless it
    was all of the data. -/
theorem midway_takeData (h : p.length < d.remaining.toNat) : (d.takeData p.length).Midway := by
  have hleft : d.remaining - UInt64.ofNat p.length ≠ 0 := by
    intro h0
    have hn := toNat_sub_ofNat (Nat.le_of_lt h)
    rw [h0, UInt64.toNat_zero] at hn
    omega
  exact ⟨if_neg hleft, hleft⟩

/-- What a call comes to if there are more bytes behind those at hand. -/
def goOn (r : Decoded) (q : List UInt8) : Decoded :=
  match r.item with
  | .more => { r.decoder.decode q with used := (r.decoder.decode q).used + r.used }
  | _ => { r with rest := r.rest ++ q }

theorem goOn_of_more {r : Decoded} (h : r.item = .more) (q : List UInt8) : goOn r q =
    { r.decoder.decode q with used := (r.decoder.decode q).used + r.used } := by
  rw [goOn, h]

theorem goOn_of_ne_more {r : Decoded} (h : r.item ≠ .more) (q : List UInt8) :
    goOn r q = { r with rest := r.rest ++ q } := by
  rw [goOn]
  split
  · exact absurd ‹_› h
  · rfl

theorem behindByte_goOn (r : Decoded) (q : List UInt8) :
    goOn r.behindByte q = (goOn r q).behindByte := by
  unfold goOn Decoded.behindByte
  cases r.item <;> rfl

/-- **A call goes on behind the bytes at hand**, unless they end in the midst of data. -/
theorem decode_append (h : (d.decode p).rest ≠ [] ∨ ¬ (d.decode p).decoder.Midway)
    (q : List UInt8) : d.decode (p ++ q) = goOn (d.decode p) q := by
  induction p generalizing d with
  | nil =>
    rw [List.nil_append, decode]
    by_cases hd : d.state = .finished
    · rw [if_pos hd, decode_finished hd]
      rfl
    · rw [if_neg hd]
      rfl
  | cons b bs ih =>
    rw [List.cons_append, decode, decode]
    rw [decode] at h
    by_cases hd : d.state = .finished
    · rw [if_pos hd, if_pos hd]
      rfl
    · rw [if_neg hd] at h
      rw [if_neg hd, if_neg hd]
      by_cases hmid : d.state = .data ∧ d.remaining ≠ 0
      · rw [if_pos hmid] at h
        rw [if_pos hmid, if_pos hmid]
        rcases Nat.lt_or_ge (b :: bs).length d.remaining.toNat with hlt | hge
        · -- the data takes up all bytes, and the chunk is not over
          dsimp only at h
          rw [List.take_of_length_le (Nat.le_of_lt hlt), List.drop_length] at h
          exact absurd (midway_takeData hlt) (h.resolve_left (· rfl))
        · have htake : (b :: (bs ++ q)).take d.remaining.toNat =
              (b :: bs).take d.remaining.toNat := by
            rw [← List.cons_append, List.take_append_of_le_length hge]
          dsimp only
          rw [htake, ← List.cons_append,
            List.drop_append_of_le_length (List.length_take_le' _ _)]
          rfl
      · rw [if_neg hmid] at h
        rw [if_neg hmid, if_neg hmid]
        cases hs : d.leaveData.stepByte b with
        | error f => rfl
        | ok e =>
          rw [hs] at h
          dsimp only at h ⊢
          rw [ih h, behindByte_goOn]

/-- Two calls that come to the same are followed by the same calls. -/
theorem drain_congr (hitem : (d.decode p).item = (e.decode q).item)
    (hdecoder : (d.decode p).decoder = (e.decode q).decoder)
    (hrest : (d.decode p).rest = (e.decode q).rest) : d.drain p = e.drain q := by
  by_cases h : ∃ data, (e.decode q).item = .chunk data
  · obtain ⟨data, hi⟩ := h
    rw [drain_of_chunk hi, drain_of_chunk (hitem.trans hi), hdecoder, hrest]
  · have hi : ∀ data, (e.decode q).item ≠ .chunk data := fun data hi => h ⟨data, hi⟩
    rw [drain_of_last hi, drain_of_last (by rwa [hitem]), hitem, hdecoder, hrest]

theorem Fed.behind_behind (r : Fed) (c c' : List (List UInt8)) :
    (r.behind c).behind c' = r.behind (c' ++ c) := by
  rw [behind, behind, behind, List.append_assoc]

/-- Nothing at hand leaves a decoder as it is. -/
theorem decoder_drain_nil (d : ChunkDecoder) : (d.drain []).decoder = d := by
  have hi : ∀ data, (d.decode []).item ≠ .chunk data := by
    intro data h
    rw [decode] at h
    split at h <;> cases h
  rw [drain_of_last hi, decode]

/-- **Bytes behind a piece** that was used up are decoded as if they came by themselves, unless the
    piece ends in the midst of the data of a chunk. -/
theorem drain_append (hmore : (d.drain p).item = .more) (hmid : ¬ (d.drain p).decoder.Midway)
    (q : List UInt8) :
    d.drain (p ++ q) = ((d.drain p).decoder.drain q).behind (d.drain p).chunks := by
  fun_induction drain d p with
  | case1 d p data hi ih =>
    have hends : (d.decode p).rest ≠ [] ∨ ¬ (d.decode p).decoder.Midway := by
      by_cases hrest : (d.decode p).rest = []
      · rw [hrest] at hmid
        rw [← decoder_drain_nil (d.decode p).decoder]
        exact .inr hmid
      · exact .inl hrest
    have hcall : d.decode (p ++ q) = { d.decode p with rest := (d.decode p).rest ++ q } := by
      rw [decode_append hends, goOn_of_ne_more (by rw [hi]; nofun)]
    have hnext := ih hmore hmid
    rw [drain_of_chunk (by rw [hcall]; exact hi), hcall, hnext, Fed.behind_behind]
    rfl
  | case2 d p hi =>
    have hcall : d.decode (p ++ q) = { (d.decode p).decoder.decode q with
        used := ((d.decode p).decoder.decode q).used + (d.decode p).used } := by
      rw [decode_append (.inr hmid), goOn_of_more hmore]
    have hsame : d.drain (p ++ q) = (d.decode p).decoder.drain q :=
      drain_congr (by rw [hcall]) (by rw [hcall]) (by rw [hcall])
    rw [hsame]
    rfl

/-! ## 3. Pieces -/

/-- Pieces one after the other, until the body is complete, a byte is refused, or they are used up. -/
def feed (d : ChunkDecoder) : List (List UInt8) → Fed
  | [] => ⟨[], d, if d.state = .finished then .finished else .more, []⟩
  | p :: ps =>
    match (d.drain p).item with
    | .more => ((d.drain p).decoder.feed ps).behind (d.drain p).chunks
    | _ => { d.drain p with left := (d.drain p).left ++ ps }

/-- A piece that is used up, and those behind it. -/
theorem feed_of_more (hi : (d.drain p).item = .more) (ps : List (List UInt8)) :
    d.feed (p :: ps) = ((d.drain p).decoder.feed ps).behind (d.drain p).chunks := by
  rw [feed, hi]

/-- A piece in which decoding stops. -/
theorem feed_of_stop (hi : (d.drain p).item ≠ .more) (ps : List (List UInt8)) :
    d.feed (p :: ps) = { d.drain p with left := (d.drain p).left ++ ps } := by
  rw [feed]
  split
  · exact absurd ‹_› hi
  · rfl

/-- What lies behind bytes at hand is read on from where reading them stopped. -/
theorem scan_append (d : ChunkDecoder) (bs rest : List UInt8) :
    d.scan (bs ++ rest) =
      match (d.scan bs).stop with
      | .more => { (d.scan bs).decoder.scan rest with
          read := (d.scan bs).read ++ ((d.scan bs).decoder.scan rest).read }
      | .finished left => { d.scan bs with stop := .finished (left ++ rest) }
      | .fault f left => { d.scan bs with stop := .fault f (left ++ rest) } := by
  have hpath := path_scan d bs
  have hbytes := bytes_scan d bs
  cases hstop : (d.scan bs).stop with
  | more =>
    rw [hstop] at hbytes
    have h := scan_of_path hpath rest
    rwa [← hbytes.1] at h
  | finished left =>
    rw [hstop] at hbytes
    have h := scan_of_path hpath (left ++ rest)
    rwa [← List.append_assoc, ← hbytes.1, scan_finished hbytes.2, List.append_nil] at h
  | fault f left =>
    rw [hstop] at hbytes
    obtain ⟨b, hbs, hf, he⟩ := hbytes
    have hend : (d.scan bs).decoder.scan (b :: (left ++ rest)) =
        ⟨[], (d.scan bs).decoder, .fault f (left ++ rest)⟩ := by rw [scan, if_neg he, hf]
    have h := scan_of_path hpath (b :: (left ++ rest))
    rwa [← List.cons_append, ← List.append_assoc, ← hbs, List.cons_append, hend,
      List.append_nil] at h

/-- **Pieces are read byte by byte**, like all their bytes together. -/
theorem reads_feed (hs : d.Sound) (ps : List (List UInt8)) :
    (d.feed ps).Reads (d.scan ps.flatten) := by
  induction ps generalizing d with
  | nil =>
    rw [feed, List.flatten_nil, scan]
    by_cases hd : d.state = .finished
    · rw [if_pos hd, if_pos hd]
      exact ⟨rfl, rfl, rfl, rfl⟩
    · rw [if_neg hd, if_neg hd]
      exact ⟨rfl, rfl, rfl, rfl⟩
  | cons p ps ih =>
    have hp := reads_drain hs p
    have hitem := hp.item
    rw [List.flatten_cons, scan_append]
    cases hstop : (d.scan p).stop with
    | more =>
      rw [hstop] at hitem
      have hsound := sound_path (path_scan d p) hs
      rw [← hp.decoder] at hsound
      have h := ih hsound
      rw [hp.decoder] at h
      rw [feed_of_more hitem]
      dsimp only
      rw [← hp.decoder] at h ⊢
      refine ⟨?_, h.decoder, h.item, h.left⟩
      rw [Fed.behind, List.flatten_append, data_append, hp.data, h.data]
    | finished left =>
      rw [hstop] at hitem
      rw [feed_of_stop (fun h => by cases hitem.symm.trans h)]
      refine ⟨hp.data, hp.decoder, hitem, ?_⟩
      rw [List.flatten_append, hp.left, hstop]
      rfl
    | fault f left =>
      rw [hstop] at hitem
      rw [feed_of_stop (fun h => by cases hitem.symm.trans h)]
      refine ⟨hp.data, hp.decoder, hitem, ?_⟩
      rw [List.flatten_append, hp.left, hstop]
      rfl

/-! ## 4. Faults -/

variable {f : ChunkFault} {ps before after : List (List UInt8)}

/-- No byte of data is refused. -/
theorem not_midway_of_refused (hf : d.eat b = .error f) : ¬ d.Midway := by
  intro hmid
  have hdata : d.state = .data ∧ d.remaining ≠ 0 := hmid
  rw [eat, if_pos hdata] at hf
  cases hf

/-- A byte that is refused is used up, and nothing else. -/
theorem drain_refused (hs : d.Sound) (hd : d.state ≠ .finished) (hf : d.eat b = .error f)
    (q : List UInt8) : d.drain (b :: q) = ⟨[], d, .fault f, [q]⟩ := by
  have hmid : ¬ (d.state = .data ∧ d.remaining ≠ 0) := not_midway_of_refused hf
  have hstep : d.leaveData.stepByte b = .error f := by
    rw [eat, if_neg hmid] at hf
    cases hb : d.leaveData.stepByte b with
    | error g =>
      rw [hb] at hf
      cases hf
      rfl
    | ok e =>
      rw [hb] at hf
      cases hf
  have hcall : d.decode (b :: q) = ⟨d, .fault f, 1, q⟩ := by
    rw [decode, if_neg hd, if_neg hmid, hstep]
    dsimp only
    rw [leaveData_of_sound hs]
  have hlast : ∀ data, (d.decode (b :: q)).item ≠ .chunk data := by
    intro data hi
    rw [hcall] at hi
    cases hi
  rw [drain_of_last hlast, hcall]

/-- **A fault in a piece**: the bytes before the one that is refused are decoded as if they were all,
    and those behind it are left. -/
theorem refused_of_drain {s : List UInt8} (hs : d.Sound) (hf : (d.drain s).item = .fault f) :
    ∃ p b q, s = p ++ b :: q ∧ (d.drain p).item = .more ∧ (d.drain p).decoder.state ≠ .finished ∧
      (d.drain p).decoder.eat b = .error f ∧
      d.drain s = ⟨(d.drain p).chunks, (d.drain p).decoder, .fault f, [q]⟩ := by
  have hreads := reads_drain hs s
  have hbytes := bytes_scan d s
  have hpath := path_scan d s
  rw [hreads.item] at hf
  cases hstop : (d.scan s).stop with
  | more =>
    rw [hstop] at hf
    cases hf
  | finished rest =>
    rw [hstop] at hf
    cases hf
  | fault g q =>
    rw [hstop] at hf hbytes
    cases hf
    obtain ⟨b, hsplit, hb, hd⟩ := hbytes
    have hsound := sound_path hpath hs
    have hscan := scan_of_path hpath []
    rw [List.append_nil, scan, if_neg hd] at hscan
    have hp := reads_drain hs (d.scan s).read.bytes
    rw [hscan] at hp
    have hdecoder : (d.drain (d.scan s).read.bytes).decoder = (d.scan s).decoder := hp.decoder
    refine ⟨(d.scan s).read.bytes, b, q, hsplit, hp.item, ?_, ?_, ?_⟩
    · rw [hdecoder]
      exact hd
    · rw [hdecoder]
      exact hb
    · have happ := drain_append hp.item
        (by rw [hdecoder]; exact not_midway_of_refused hb) (b :: q)
      rw [← hsplit, hdecoder, drain_refused hsound hd hb] at happ
      rw [happ, hdecoder, Fed.behind, List.append_nil]

/-- Nothing more changes nothing. -/
theorem feed_nil (hd : d.state ≠ .finished) : d.feed [] = ⟨[], d, .more, []⟩ := by
  rw [feed, if_neg hd]

/-- **A fault among pieces** is a fault in one of them, those before it being used up. -/
theorem refused_of_feed (hs : d.Sound) (hf : (d.feed ps).item = .fault f) :
    ∃ before p b q after, ps = before ++ (p ++ b :: q) :: after ∧
      (d.feed ps).left = q :: after ∧
      d.feed (before ++ [p]) = ⟨(d.feed ps).chunks, (d.feed ps).decoder, .more, []⟩ ∧
      (d.feed ps).decoder.eat b = .error f := by
  induction ps generalizing d with
  | nil =>
    rw [feed] at hf
    dsimp only at hf
    split at hf <;> cases hf
  | cons s ps ih =>
    by_cases hmore : (d.drain s).item = .more
    · have hsound : (d.drain s).decoder.Sound := by
        rw [(reads_drain hs s).decoder]
        exact sound_path (path_scan d s) hs
      rw [feed_of_more hmore] at hf ⊢
      obtain ⟨before, p, b, q, after, hps, hleft, hfeed, hb⟩ := ih hsound hf
      refine ⟨s :: before, p, b, q, after, congrArg (s :: ·) hps, hleft, ?_, hb⟩
      rw [List.cons_append, feed_of_more hmore, hfeed]
      rfl
    · rw [feed_of_stop hmore] at hf ⊢
      obtain ⟨p, b, q, rfl, hp, hd, hb, hdrain⟩ := refused_of_drain hs hf
      rw [hdrain]
      refine ⟨[], p, b, q, ps, rfl, rfl, ?_, hb⟩
      rw [List.nil_append, feed_of_more hp, feed_nil hd, Fed.behind, List.append_nil]

/-- A piece that decodes like another one behind some data does so with all pieces behind it. -/
theorem feed_congr {c : List (List UInt8)} (h : d.drain p = (e.drain q).behind c)
    (after : List (List UInt8)) : d.feed (p :: after) = (e.feed (q :: after)).behind c := by
  by_cases hmore : (e.drain q).item = .more
  · rw [feed_of_more hmore, feed_of_more (by rw [h]; exact hmore), h, Fed.behind_behind]
    rfl
  · rw [feed_of_stop hmore, feed_of_stop (by rw [h]; exact hmore), h]
    rfl

/-- **Pieces may be joined** where the first of them does not end in the midst of data. -/
theorem feed_join (hmore : (d.feed (before ++ [p])).item = .more)
    (hmid : ¬ (d.feed (before ++ [p])).decoder.Midway) (q : List UInt8)
    (after : List (List UInt8)) :
    d.feed (before ++ (p ++ q) :: after) =
      ((d.feed (before ++ [p])).decoder.feed (q :: after)).behind
        (d.feed (before ++ [p])).chunks := by
  induction before generalizing d with
  | nil =>
    simp only [List.nil_append] at hmore hmid ⊢
    by_cases hp : (d.drain p).item = .more
    · rw [feed_of_more hp] at hmid ⊢
      have hchunks : (((d.drain p).decoder.feed []).behind (d.drain p).chunks).chunks =
        (d.drain p).chunks := List.append_nil _
      rw [hchunks]
      exact feed_congr (drain_append hp hmid q) after
    · rw [feed_of_stop hp] at hmore
      exact absurd hmore hp
  | cons s before ih =>
    rw [List.cons_append] at hmore hmid ⊢
    by_cases hs : (d.drain s).item = .more
    · rw [feed_of_more hs] at hmore hmid ⊢
      rw [List.cons_append, feed_of_more hs, ih hmore hmid, Fed.behind_behind]
      rfl
    · rw [feed_of_stop hs] at hmore
      exact absurd hmore hs

/-! ## 5. Going on -/

/-- A call that faults uses up a byte. -/
theorem length_rest_lt_of_fault (hi : (d.decode p).item = .fault f) :
    (d.decode p).rest.length < p.length := by
  by_cases hd : d.state = .finished
  · rw [decode_finished hd] at hi
    cases hi
  · cases p with
    | nil =>
      rw [decode, if_neg hd] at hi
      cases hi
    | cons b bs =>
      have hpos := used_pos hd b bs
      rw [← drop_used, List.length_drop]
      exact Nat.sub_lt (Nat.succ_pos _) hpos

theorem length_left_drain_lt (hf : (d.drain p).item = .fault f) :
    (d.drain p).left.flatten.length < p.length := by
  fun_induction drain d p with
  | case1 d p data hi ih => exact Nat.lt_trans (ih hf) (length_rest_lt hi)
  | case2 d p hi =>
    have := length_rest_lt_of_fault hf
    simpa using this

theorem length_left_lt (hf : (d.feed ps).item = .fault f) :
    (d.feed ps).left.flatten.length < ps.flatten.length := by
  induction ps generalizing d with
  | nil =>
    rw [feed] at hf
    dsimp only at hf
    split at hf <;> cases hf
  | cons p ps ih =>
    rw [List.flatten_cons, List.length_append]
    by_cases hmore : (d.drain p).item = .more
    · rw [feed_of_more hmore] at hf ⊢
      exact Nat.lt_of_lt_of_le (ih hf) (Nat.le_add_left ..)
    · rw [feed_of_stop hmore] at hf ⊢
      have := length_left_drain_lt hf
      rw [List.flatten_append, List.length_append]
      omega

/-- What came of decoding on after faults: as before, and all the faults. -/
structure Endured where
  chunks : List (List UInt8)
  faults : List ChunkFault
  decoder : ChunkDecoder
  item : ChunkItem
  left : List (List UInt8)

/-- Pieces one after the other until the body is complete or they are used up, the decoder going on
    as it is after every fault. -/
def endure (d : ChunkDecoder) (ps : List (List UInt8)) : Endured :=
  match _h : (d.feed ps).item with
  | .fault f =>
    let later := (d.feed ps).decoder.endure (d.feed ps).left
    { later with chunks := (d.feed ps).chunks ++ later.chunks, faults := f :: later.faults }
  | item => ⟨(d.feed ps).chunks, [], (d.feed ps).decoder, item, (d.feed ps).left⟩
termination_by ps.flatten.length
decreasing_by exact length_left_lt _h

/-- The same with data in front. -/
def Endured.behind (r : Endured) (chunks : List (List UInt8)) : Endured :=
  { r with chunks := chunks ++ r.chunks }

/-- The same with one more fault before the others. -/
def Endured.faulted (r : Endured) (f : ChunkFault) : Endured :=
  { r with faults := f :: r.faults }

theorem endure_of_fault (hf : (d.feed ps).item = .fault f) :
    d.endure ps =
      (((d.feed ps).decoder.endure (d.feed ps).left).behind (d.feed ps).chunks).faulted f := by
  rw [endure]
  split
  · rename_i g hg
    cases hf.symm.trans hg
    rfl
  · rename_i hno
    exact absurd hf (hno f)

theorem endure_of_stop (hno : ∀ f, (d.feed ps).item ≠ .fault f) :
    d.endure ps =
      ⟨(d.feed ps).chunks, [], (d.feed ps).decoder, (d.feed ps).item, (d.feed ps).left⟩ := by
  rw [endure]
  split
  · exact absurd ‹_› (hno _)
  · rfl

/-- Pieces that decode like others behind some data do so after every fault. -/
theorem endure_congr {qs c : List (List UInt8)} (h : d.feed ps = (e.feed qs).behind c) :
    d.endure ps = (e.endure qs).behind c := by
  by_cases hf : ∃ f, (e.feed qs).item = .fault f
  · obtain ⟨f, hf⟩ := hf
    rw [endure_of_fault hf, endure_of_fault (by rw [h]; exact hf), h]
    simp only [Endured.behind, Endured.faulted, Fed.behind, List.append_assoc]
  · have hno : ∀ f, (e.feed qs).item ≠ .fault f := fun f hi => hf ⟨f, hi⟩
    rw [endure_of_stop hno, endure_of_stop (by rw [h]; exact hno), h]
    rfl

/-- **Pieces decode like the whole, and a fault costs one byte.** However a string is cut, a decoder
    that is fed the pieces hands out the same data, ends as the same decoder, and stops for the same
    reason at the same byte as one that is fed the string.

    Where it faults, the piece at which it is has lost the byte that is refused and those before it; the
    decoder is the one that has read what lies before that byte, and has handed out the same data,
    call by call. If it goes on with what is left, now and after every later fault, then all that
    comes of it is what comes of the pieces without that byte, but for the fault itself. -/
theorem feed_pieces (hd : Reached d) (ps : List (List UInt8)) :
    ((d.feed ps).chunks.flatten = (d.feed [ps.flatten]).chunks.flatten ∧
      (d.feed ps).decoder = (d.feed [ps.flatten]).decoder ∧
      (d.feed ps).item = (d.feed [ps.flatten]).item ∧
      (d.feed ps).left.flatten = (d.feed [ps.flatten]).left.flatten) ∧
    ∀ f, (d.feed ps).item = .fault f → ∃ before p b q after,
      ps = before ++ (p ++ b :: q) :: after ∧ (d.feed ps).left = q :: after ∧
      d.feed (before ++ [p]) = ⟨(d.feed ps).chunks, (d.feed ps).decoder, .more, []⟩ ∧
      d.feed (before ++ (p ++ q) :: after) =
        ((d.feed ps).decoder.feed (d.feed ps).left).behind (d.feed ps).chunks ∧
      d.endure ps = (d.endure (before ++ (p ++ q) :: after)).faulted f := by
  have hs := hd.sound
  refine ⟨?_, ?_⟩
  · have h := reads_feed hs ps
    have hwhole := reads_feed hs [ps.flatten]
    rw [List.flatten_singleton] at hwhole
    exact ⟨h.data.trans hwhole.data.symm, h.decoder.trans hwhole.decoder.symm,
      h.item.trans hwhole.item.symm, h.left.trans hwhole.left.symm⟩
  · intro f hf
    obtain ⟨before, p, b, q, after, hps, hleft, hfeed, hb⟩ := refused_of_feed hs hf
    have hmore : (d.feed (before ++ [p])).item = .more := by rw [hfeed]
    have hmid : ¬ (d.feed (before ++ [p])).decoder.Midway := by
      rw [hfeed]
      exact not_midway_of_refused hb
    have hjoin := feed_join hmore hmid q after
    rw [hfeed, ← hleft] at hjoin
    refine ⟨before, p, b, q, after, hps, hleft, hfeed, hjoin, ?_⟩
    rw [endure_of_fault hf, endure_congr hjoin]

/-- A chunk of two bytes whose second half comes with a byte too many: `2`, `a` in the first piece,
    `b`, `X` and the end of the chunk's line in the second. -/
def crowded : List (List UInt8) :=
  [[0x32, 0x0d, 0x0a, 0x61], [0x62, 0x58, 0x0d, 0x0a]]

/-- The byte too many is refused, and the pieces decode as if it were not there. -/
theorem feed_pieces_crowded : Reached fresh ∧
    (fresh.feed crowded).item = .fault .noReturnAfterData ∧
    ∃ before p b q after, crowded = before ++ (p ++ b :: q) :: after ∧
      (fresh.feed crowded).left = q :: after ∧
      fresh.endure crowded =
        (fresh.endure (before ++ (p ++ q) :: after)).faulted .noReturnAfterData := by
  have hitem : (fresh.feed crowded).item = .fault .noReturnAfterData :=
    (reads_feed Reached.fresh.sound crowded).item.trans (by decide)
  obtain ⟨before, p, b, q, after, hsplit, hleft, -, -, hendure⟩ :=
    (feed_pieces .fresh crowded).2 _ hitem
  exact ⟨.fresh, hitem, before, p, b, q, after, hsplit, hleft, hendure⟩

end ChunkDecoder

end Sluice.Http
