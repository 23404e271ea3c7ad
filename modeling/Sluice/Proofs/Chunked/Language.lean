/-
  File:      Sluice/Proofs/Chunked/Language.lean
  Subject:   The chunk decoder accepts exactly the chunked bodies.

  * section 1: the transitions, state by state;
  * `path_of_isBody`, `isBody_of_accepts`: the paths from a fresh decoder to the end of a body are the
    chunked bodies of the grammar, with their data marked;
  * `exists_accepts`: from every state there is a way to the end, so a decoder that has not faulted has
    read the beginning of a body;
  * **`decodeTo_language`**: decoding from a stream succeeds on the streams that begin with a body,
    asks for more on the beginnings of bodies, and faults on all others at the first byte that no body
    continues, in each case behind all data up to there.
-/
import Sluice.Proofs.Chunked.Scan

namespace Sluice.Http

open Sluice.Wire Chunked

namespace ChunkDecoder

/-! ## 1. Transitions -/

section Transitions

variable {r : UInt64} {b : UInt8}

/-- One digit more, while the number stays below 2 to the 64th. -/
theorem pushDigit_eq (d : ChunkDecoder) {v : Nat} (hv : v < 16) :
    d.pushDigit (UInt64.ofNat v) =
      if 16 * d.remaining.toNat + v < UInt64.size then
        .ok ⟨.size, UInt64.ofNat (16 * d.remaining.toNat + v)⟩
      else .error .sizeOverflow := by
  have h16 : (16 : UInt64).toNat = 16 := rfl
  have hvn : (UInt64.ofNat v).toNat = v :=
    UInt64.toNat_ofNat_of_lt' (Nat.lt_trans hv (by decide))
  unfold pushDigit Radix.mul?
  rw [h16]
  by_cases hm : d.remaining.toNat * 16 < UInt64.size
  · rw [if_pos hm]
    have hmul : (d.remaining * 16).toNat = d.remaining.toNat * 16 := by
      rw [UInt64.toNat_mul, h16, Nat.mod_eq_of_lt hm]
    dsimp only
    rw [Radix.add?, hmul, hvn]
    by_cases ha : d.remaining.toNat * 16 + v < UInt64.size
    · rw [if_pos ha, if_pos (by omega)]
      dsimp only
      congr 2
      rw [← UInt64.toNat_inj, UInt64.toNat_add, hmul, hvn, UInt64.toNat_ofNat', Nat.mul_comm]
    · rw [if_neg ha, if_neg (by omega)]
  · rw [if_neg hm, if_neg (by omega)]

theorem eat_sizeStart : eat ⟨.sizeStart, r⟩ b =
    match hexPlace? b with
    | some v => .ok (⟨.size, UInt64.ofNat v⟩, false)
    | none => .error (.noSize b) := by
  simp only [eat, leaveData, stepByte, reduceCtorEq, false_and, if_false, hexDigit?_eq]
  cases hexPlace? b <;> rfl

theorem eat_size : eat ⟨.size, r⟩ b =
    if b = 9 ∨ b = 32 then .ok (⟨.sizeSpace, r⟩, false)
    else if b = 59 then .ok (⟨.extension, r⟩, false)
    else if b = 13 then .ok (⟨.sizeFeed, r⟩, false)
    else
      match hexPlace? b with
      | some v =>
        if 16 * r.toNat + v < UInt64.size then .ok (⟨.size, UInt64.ofNat (16 * r.toNat + v)⟩, false)
        else .error .sizeOverflow
      | none => .error (.badSizeByte b) := by
  simp only [eat, leaveData, stepByte, reduceCtorEq, false_and, if_false, hexDigit?_eq]
  cases hv : hexPlace? b with
  | none => repeat' split <;> try rfl
  | some v =>
    simp only [Option.map_some, pushDigit_eq _ (hexPlace?_lt hv)]
    repeat' split <;> try rfl

theorem eat_sizeSpace : eat ⟨.sizeSpace, r⟩ b =
    if b = 9 ∨ b = 32 then .ok (⟨.sizeSpace, r⟩, false)
    else if b = 59 then .ok (⟨.extension, r⟩, false)
    else if b = 13 then .ok (⟨.sizeFeed, r⟩, false)
    else .error .badSizeSpace := by
  simp only [eat, leaveData, stepByte, reduceCtorEq, false_and, if_false]
  repeat' split <;> try rfl

theorem eat_extension : eat ⟨.extension, r⟩ b =
    if b = 13 then .ok (⟨.sizeFeed, r⟩, false)
    else if b = 10 then .error .lineFeedInExtension
    else .ok (⟨.extension, r⟩, false) := by
  simp only [eat, leaveData, stepByte, reduceCtorEq, false_and, if_false]
  repeat' split <;> try rfl

/-- Where the decoder is behind a size line. -/
def afterSize (r : UInt64) : ChunkDecoder := ⟨if r = 0 then .endReturn else .data, r⟩

theorem eat_sizeFeed : eat ⟨.sizeFeed, r⟩ b =
    if b = 10 then .ok (afterSize r, false) else .error .noLineFeedAfterSize := by
  simp only [eat, leaveData, stepByte, reduceCtorEq, false_and, if_false]
  split <;> rfl

theorem eat_data (hr : r ≠ 0) : eat ⟨.data, r⟩ b = .ok (takeData ⟨.data, r⟩ 1, true) := by
  rw [eat, if_pos ⟨rfl, hr⟩]

theorem eat_dataReturn : eat ⟨.dataReturn, r⟩ b =
    if b = 13 then .ok (⟨.dataFeed, r⟩, false) else .error .noReturnAfterData := by
  simp only [eat, leaveData, stepByte, reduceCtorEq, false_and, if_false]
  split <;> rfl

theorem eat_dataFeed : eat ⟨.dataFeed, r⟩ b =
    if b = 10 then .ok (⟨.sizeStart, r⟩, false) else .error .noLineFeedAfterData := by
  simp only [eat, leaveData, stepByte, reduceCtorEq, false_and, if_false]
  split <;> rfl

theorem eat_trailer : eat ⟨.trailer, r⟩ b =
    .ok (⟨if b = 13 then .trailerFeed else .trailer, r⟩, false) := by
  simp only [eat, leaveData, stepByte, reduceCtorEq, false_and, if_false]
  rfl

theorem eat_trailerFeed : eat ⟨.trailerFeed, r⟩ b =
    if b = 10 then .ok (⟨.endReturn, r⟩, false) else .error .noLineFeedAfterTrailer := by
  simp only [eat, leaveData, stepByte, reduceCtorEq, false_and, if_false]
  split <;> rfl

theorem eat_endReturn : eat ⟨.endReturn, r⟩ b =
    .ok (⟨if b = 13 then .endFeed else .trailer, r⟩, false) := by
  simp only [eat, leaveData, stepByte, reduceCtorEq, false_and, if_false]
  rfl

theorem eat_endFeed : eat ⟨.endFeed, r⟩ b =
    if b = 10 then .ok (⟨.finished, r⟩, false) else .error .noFinalLineFeed := by
  simp only [eat, leaveData, stepByte, reduceCtorEq, false_and, if_false]
  split <;> rfl

end Transitions

/-! ## 2. Bodies are paths -/

variable {d e : ChunkDecoder} {m n : Marked} {r : UInt64}

/-- Bytes that leave the state as it is. -/
theorem path_loop {bs : List UInt8} (hd : d.state ≠ .finished)
    (h : ∀ b ∈ bs, d.eat b = .ok (d, false)) : Path d (frame bs) d := by
  induction bs with
  | nil => exact .nil d
  | cons b bs ih =>
    have htail := ih fun c hc => h c (List.mem_cons_of_mem b hc)
    exact .cons hd (h b List.mem_cons_self) htail

/-- Reading further digits only makes the number larger. -/
theorem le_foldl_digits (bs : List UInt8) (v : Nat) :
    v ≤ bs.foldl (fun v b => 16 * v + (hexPlace? b).getD 0) v := by
  induction bs generalizing v with
  | nil => exact Nat.le_refl v
  | cons b bs ih =>
    have h : v ≤ 16 * v + (hexPlace? b).getD 0 := by omega
    exact Nat.le_trans h (ih _)

/-- A digit is none of the bytes that end a size. -/
theorem ne_of_hexPlace? {b : UInt8} {v : Nat} (h : hexPlace? b = some v) :
    (b ≠ 9 ∧ b ≠ 32) ∧ b ≠ 59 ∧ b ≠ 13 := by
  refine ⟨⟨?_, ?_⟩, ?_, ?_⟩ <;> rintro rfl <;> cases h

theorem path_digits {bs : List UInt8} {v : Nat} (hbs : ∀ b ∈ bs, (hexPlace? b).isSome)
    (hv : bs.foldl (fun v b => 16 * v + (hexPlace? b).getD 0) v < UInt64.size) :
    Path ⟨.size, UInt64.ofNat v⟩ (frame bs)
      ⟨.size, UInt64.ofNat (bs.foldl (fun v b => 16 * v + (hexPlace? b).getD 0) v)⟩ := by
  induction bs generalizing v with
  | nil => exact .nil _
  | cons b bs ih =>
    obtain ⟨x, hx⟩ := Option.isSome_iff_exists.mp (hbs b List.mem_cons_self)
    obtain ⟨⟨h9, h32⟩, h59, h13⟩ := ne_of_hexPlace? hx
    rw [List.foldl_cons, hx, Option.getD_some] at hv ⊢
    have hlt : 16 * v + x < UInt64.size := Nat.lt_of_le_of_lt (le_foldl_digits bs _) hv
    have hvn : (UInt64.ofNat v).toNat = v :=
      UInt64.toNat_ofNat_of_lt' (Nat.lt_of_le_of_lt (by omega) hlt)
    refine .cons nofun ?_ (ih (fun c hc => hbs c (List.mem_cons_of_mem b hc)) hv)
    rw [eat_size, if_neg (by simp only [h9, h32, or_self, not_false_eq_true]), if_neg h59,
      if_neg h13, hx]
    dsimp only
    rw [hvn, if_pos hlt]

theorem path_sizeFeed : Path ⟨.sizeFeed, r⟩ (frame [10]) (afterSize r) :=
  .single nofun (by rw [eat_sizeFeed, if_pos rfl])

theorem path_extension (text : List UInt8) (h : ∀ b ∈ text, b ≠ 13 ∧ b ≠ 10) :
    Path ⟨.extension, r⟩ (frame (text ++ lineEnd)) (afterSize r) := by
  have hloop : Path ⟨.extension, r⟩ (frame text) ⟨.extension, r⟩ :=
    path_loop nofun fun b hb => by rw [eat_extension, if_neg (h b hb).1, if_neg (h b hb).2]
  rw [frame_append]
  refine hloop.append (.cons nofun ?_ path_sizeFeed)
  rw [eat_extension, if_pos rfl]

/-- What may end a size: an extension or nothing, and the end of the line. -/
theorem path_ending {s : ChunkState} (ext : List UInt8) (hs : s = .size ∨ s = .sizeSpace)
    (h : ext = [] ∨ ∃ text, ext = 59 :: text ∧ ∀ b ∈ text, b ≠ 13 ∧ b ≠ 10) :
    Path ⟨s, r⟩ (frame (ext ++ lineEnd)) (afterSize r) := by
  rcases h with rfl | ⟨text, rfl, htext⟩
  · rcases hs with rfl | rfl
    · exact .cons nofun (by rw [eat_size]; rfl) path_sizeFeed
    · exact .cons nofun (by rw [eat_sizeSpace]; rfl) path_sizeFeed
  · rcases hs with rfl | rfl
    · exact .cons nofun (by rw [eat_size]; rfl) (path_extension text htext)
    · exact .cons nofun (by rw [eat_sizeSpace]; rfl) (path_extension text htext)

theorem path_blanks {blanks ext : List UInt8} (hblanks : ∀ b ∈ blanks, b = 32 ∨ b = 9)
    (h : ext = [] ∨ ∃ text, ext = 59 :: text ∧ ∀ b ∈ text, b ≠ 13 ∧ b ≠ 10) :
    Path ⟨.size, r⟩ (frame (blanks ++ ext ++ lineEnd)) (afterSize r) := by
  rw [List.append_assoc, frame_append]
  cases blanks with
  | nil => exact path_ending ext (.inl rfl) h
  | cons b bs =>
    have hloop : Path ⟨.sizeSpace, r⟩ (frame bs) ⟨.sizeSpace, r⟩ :=
      path_loop nofun fun c hc => by
        rw [eat_sizeSpace, if_pos (hblanks c (List.mem_cons_of_mem b hc)).symm]
    refine .cons nofun ?_ (hloop.append (path_ending ext (.inr rfl) h))
    rw [eat_size, if_pos (hblanks b List.mem_cons_self).symm]

theorem path_of_isSizeLine {size : Nat} {line : List UInt8} (h : IsSizeLine size line) :
    Path ⟨.sizeStart, r⟩ (frame line) (afterSize (UInt64.ofNat size)) := by
  obtain ⟨digits, blanks, ext, rfl, hne, hdigits, rfl, hlt, hblanks, hext⟩ := h
  cases digits with
  | nil => exact absurd rfl hne
  | cons b bs =>
    obtain ⟨x, hx⟩ := Option.isSome_iff_exists.mp (hdigits b List.mem_cons_self)
    have hnumber : hexNumber (b :: bs) =
        bs.foldl (fun v b => 16 * v + (hexPlace? b).getD 0) x := by
      rw [hexNumber, List.foldl_cons, hx, Option.getD_some, Nat.mul_zero, Nat.zero_add]
    rw [hnumber] at hlt ⊢
    have hsize := path_digits (fun c hc => hdigits c (List.mem_cons_of_mem b hc)) hlt
    rw [List.append_assoc, List.append_assoc, ← List.append_assoc blanks, List.cons_append,
      frame_cons, frame_append]
    refine .cons nofun ?_ (hsize.append (path_blanks hblanks hext))
    rw [eat_sizeStart, hx]

theorem afterSize_ofNat {n : Nat} (h0 : n ≠ 0) (hn : n < UInt64.size) :
    afterSize (UInt64.ofNat n) = ⟨.data, UInt64.ofNat n⟩ := by
  have hne : UInt64.ofNat n ≠ 0 := by
    intro h
    have := congrArg UInt64.toNat h
    rw [UInt64.toNat_ofNat_of_lt' hn] at this
    exact h0 this
  rw [afterSize, if_neg hne]

theorem path_lineEnd : Path ⟨.dataReturn, r⟩ (frame lineEnd) ⟨.sizeStart, r⟩ :=
  .cons nofun (by rw [eat_dataReturn, if_pos rfl])
    (.single (by nofun) (by rw [eat_dataFeed, if_pos rfl]))

/-- All data of a chunk, and the line end behind it. -/
theorem path_data {data : List UInt8} (h0 : data ≠ []) (h : data.length = r.toNat) :
    Path ⟨.data, r⟩ (content data ++ frame lineEnd) ⟨.sizeStart, 0⟩ := by
  have hend : takeData ⟨.data, r⟩ data.length = ⟨.dataReturn, 0⟩ := by
    rw [takeData, h, UInt64.ofNat_toNat, UInt64.sub_self, if_pos rfl]
  have hdata := path_content (d := ⟨.data, r⟩) rfl h0 (Nat.le_of_eq h)
  rw [hend] at hdata
  exact hdata.append path_lineEnd

theorem path_of_isChunk (h : IsChunk m) : Path ⟨.sizeStart, r⟩ m ⟨.sizeStart, 0⟩ := by
  obtain ⟨line, data, hline, hne, rfl⟩ := h
  have hlt : data.length < UInt64.size := by
    obtain ⟨_, _, _, _, _, _, _, hlt, _⟩ := hline
    exact hlt
  have hsize := path_of_isSizeLine (r := r) hline
  rw [afterSize_ofNat (mt List.length_eq_zero_iff.mp hne) hlt] at hsize
  have hdata := path_data (r := UInt64.ofNat data.length) hne
    (UInt64.toNat_ofNat_of_lt' hlt).symm
  rw [List.append_assoc]
  exact hsize.append hdata

theorem path_of_isTrailer {t : List UInt8} (h : IsTrailer t) :
    Path ⟨.endReturn, r⟩ (frame t) ⟨.endReturn, r⟩ := by
  obtain ⟨b, text, rfl, hb, htext⟩ := h
  have hloop : Path ⟨.trailer, r⟩ (frame text) ⟨.trailer, r⟩ :=
    path_loop nofun fun c hc => by rw [eat_trailer, if_neg (htext c hc)]
  rw [frame_append, frame_cons]
  refine .cons nofun (by rw [eat_endReturn, if_neg hb]) (hloop.append ?_)
  exact .cons nofun (by rw [eat_trailer, if_pos rfl])
    (.single (by nofun) (by rw [eat_trailerFeed, if_pos rfl]))

theorem path_trailers {trailers : List (List UInt8)} (h : ∀ t ∈ trailers, IsTrailer t) :
    Path ⟨.endReturn, r⟩ (frame trailers.flatten) ⟨.endReturn, r⟩ := by
  induction trailers with
  | nil => exact .nil _
  | cons t ts ih =>
    rw [List.flatten_cons, frame_append]
    exact (path_of_isTrailer (h t List.mem_cons_self)).append
      (ih fun u hu => h u (List.mem_cons_of_mem t hu))

theorem path_end : Path ⟨.endReturn, r⟩ (frame lineEnd) ⟨.finished, r⟩ :=
  .cons nofun (by rw [eat_endReturn, if_pos rfl])
    (.single (by nofun) (by rw [eat_endFeed, if_pos rfl]))

theorem path_chunks {chunks : List Marked} (h : ∀ c ∈ chunks, IsChunk c) :
    ∃ r', Path ⟨.sizeStart, r⟩ chunks.flatten ⟨.sizeStart, r'⟩ := by
  induction chunks generalizing r with
  | nil => exact ⟨r, .nil _⟩
  | cons c cs ih =>
    obtain ⟨r', hrest⟩ := ih (r := 0) fun x hx => h x (List.mem_cons_of_mem c hx)
    exact ⟨r', (path_of_isChunk (h c List.mem_cons_self)).append hrest⟩

/-- From here over these bytes a decoder comes to the end of the body. -/
def Accepts (d : ChunkDecoder) (m : Marked) : Prop := ∃ e, Path d m e ∧ e.state = .finished

/-- **Every chunked body is accepted**, with its data marked as data. -/
theorem accepts_of_isBody (h : IsBody m) : Accepts ⟨.sizeStart, r⟩ m := by
  obtain ⟨chunks, last, trailers, hchunks, hlast, htrailers, rfl⟩ := h
  obtain ⟨r', hpath⟩ := path_chunks (r := r) hchunks
  have hsize : Path ⟨.sizeStart, r'⟩ (frame last) ⟨.endReturn, 0⟩ := path_of_isSizeLine hlast
  rw [frame_append, frame_append]
  exact ⟨⟨.finished, 0⟩,
    hpath.append ((hsize.append (path_trailers htrailers)).append path_end), rfl⟩

/-! ## 3. Paths to the end are bodies -/

theorem accepts_cons {b : UInt8} {mark : Bool} (h : Accepts d ((b, mark) :: m)) :
    ∃ e, d.eat b = .ok (e, mark) ∧ Accepts e m := by
  obtain ⟨f, hpath, hf⟩ := h
  cases hpath with
  | cons hd he hm => exact ⟨_, he, f, hm, hf⟩

theorem Accepts.ne_nil (h : Accepts d m) (hd : d.state ≠ .finished) : m ≠ [] := by
  rintro rfl
  obtain ⟨e, hpath, he⟩ := h
  cases hpath
  exact hd he

theorem Accepts.eq_nil (h : Accepts d m) (hd : d.state = .finished) : m = [] := by
  obtain ⟨e, hpath, _⟩ := h
  cases hpath with
  | nil => rfl
  | cons hne => exact absurd hd hne

/-- Where only one byte is allowed next. -/
theorem accepts_only {c : UInt8} {next : ChunkDecoder} {fault : ChunkFault} (h : Accepts d m)
    (hd : d.state ≠ .finished)
    (heat : ∀ b, d.eat b = if b = c then .ok (next, false) else .error fault) :
    ∃ m', m = frame [c] ++ m' ∧ Accepts next m' := by
  cases m with
  | nil => exact absurd rfl (h.ne_nil hd)
  | cons x m =>
    obtain ⟨b, mark⟩ := x
    obtain ⟨e, he, hm⟩ := accepts_cons h
    rw [heat] at he
    by_cases hb : b = c
    · rw [if_pos hb] at he
      cases he
      exact ⟨m, by rw [hb]; rfl, hm⟩
    · rw [if_neg hb] at he
      cases he

theorem accepts_sizeFeed (h : Accepts ⟨.sizeFeed, r⟩ m) :
    ∃ m', m = frame [10] ++ m' ∧ Accepts (afterSize r) m' :=
  accepts_only h nofun fun _ => eat_sizeFeed

theorem accepts_lineEnd (h : Accepts ⟨.dataReturn, r⟩ m) :
    ∃ m', m = frame lineEnd ++ m' ∧ Accepts ⟨.sizeStart, r⟩ m' := by
  obtain ⟨m₁, rfl, h₁⟩ := accepts_only h nofun fun _ => eat_dataReturn
  obtain ⟨m₂, rfl, h₂⟩ := accepts_only h₁ nofun fun _ => eat_dataFeed
  exact ⟨m₂, rfl, h₂⟩

theorem accepts_extension (h : Accepts ⟨.extension, r⟩ m) :
    ∃ text m', m = frame (text ++ lineEnd) ++ m' ∧ (∀ b ∈ text, b ≠ 13 ∧ b ≠ 10) ∧
      Accepts (afterSize r) m' := by
  induction m with
  | nil => exact absurd rfl (h.ne_nil nofun)
  | cons x m ih =>
    obtain ⟨b, mark⟩ := x
    obtain ⟨e, he, hm⟩ := accepts_cons h
    rw [eat_extension] at he
    by_cases h13 : b = 13
    · rw [if_pos h13] at he
      cases he
      obtain ⟨m', rfl, h'⟩ := accepts_sizeFeed hm
      exact ⟨[], m', by rw [h13]; rfl, nofun, h'⟩
    · rw [if_neg h13] at he
      by_cases h10 : b = 10
      · rw [if_pos h10] at he
        cases he
      · rw [if_neg h10] at he
        cases he
        obtain ⟨text, m', rfl, htext, h'⟩ := ih hm
        exact ⟨b :: text, m', rfl, List.forall_mem_cons.mpr ⟨⟨h13, h10⟩, htext⟩, h'⟩

/-- What follows the digits of a size. -/
def IsSizeEnd (bytes : List UInt8) : Prop :=
  ∃ blanks ext, bytes = blanks ++ ext ++ lineEnd ∧ (∀ b ∈ blanks, b = 32 ∨ b = 9) ∧
    (ext = [] ∨ ∃ text, ext = 59 :: text ∧ ∀ b ∈ text, b ≠ 13 ∧ b ≠ 10)

theorem IsSizeEnd.blank {b : UInt8} {bytes : List UInt8} (hb : b = 9 ∨ b = 32)
    (h : IsSizeEnd bytes) : IsSizeEnd (b :: bytes) := by
  obtain ⟨blanks, ext, rfl, hblanks, hext⟩ := h
  exact ⟨b :: blanks, ext, rfl, List.forall_mem_cons.mpr ⟨hb.symm, hblanks⟩, hext⟩

theorem accepts_semicolon (h : Accepts ⟨.extension, r⟩ m) :
    ∃ bytes m', (59, false) :: m = frame bytes ++ m' ∧ IsSizeEnd bytes ∧
      Accepts (afterSize r) m' := by
  obtain ⟨text, m', rfl, htext, h'⟩ := accepts_extension h
  exact ⟨59 :: (text ++ lineEnd), m', rfl, ⟨[], 59 :: text, rfl, nofun, .inr ⟨text, rfl, htext⟩⟩, h'⟩

theorem accepts_return (h : Accepts ⟨.sizeFeed, r⟩ m) :
    ∃ bytes m', (13, false) :: m = frame bytes ++ m' ∧ IsSizeEnd bytes ∧
      Accepts (afterSize r) m' := by
  obtain ⟨m', rfl, h'⟩ := accepts_sizeFeed h
  exact ⟨lineEnd, m', rfl, ⟨[], [], rfl, nofun, .inl rfl⟩, h'⟩

theorem accepts_sizeSpace (h : Accepts ⟨.sizeSpace, r⟩ m) :
    ∃ bytes m', m = frame bytes ++ m' ∧ IsSizeEnd bytes ∧ Accepts (afterSize r) m' := by
  induction m with
  | nil => exact absurd rfl (h.ne_nil nofun)
  | cons x m ih =>
    obtain ⟨b, mark⟩ := x
    obtain ⟨e, he, hm⟩ := accepts_cons h
    rw [eat_sizeSpace] at he
    split at he
    · rename_i hb
      cases he
      obtain ⟨bytes, m', rfl, hend, h'⟩ := ih hm
      exact ⟨b :: bytes, m', rfl, hend.blank hb, h'⟩
    · split at he
      · rename_i hb
        cases he
        rw [hb]
        exact accepts_semicolon hm
      · split at he
        · rename_i hb
          cases he
          rw [hb]
          exact accepts_return hm
        · cases he

theorem accepts_size {v : Nat} (hv : v < UInt64.size) (h : Accepts ⟨.size, UInt64.ofNat v⟩ m) :
    ∃ digits bytes m', m = frame (digits ++ bytes) ++ m' ∧
      (∀ b ∈ digits, (hexPlace? b).isSome) ∧ IsSizeEnd bytes ∧
      digits.foldl (fun v b => 16 * v + (hexPlace? b).getD 0) v < UInt64.size ∧
      Accepts (afterSize
        (UInt64.ofNat (digits.foldl (fun v b => 16 * v + (hexPlace? b).getD 0) v))) m' := by
  induction m generalizing v with
  | nil => exact absurd rfl (h.ne_nil nofun)
  | cons x m ih =>
    obtain ⟨b, mark⟩ := x
    obtain ⟨e, he, hm⟩ := accepts_cons h
    rw [eat_size] at he
    split at he
    · rename_i hb
      cases he
      obtain ⟨bytes, m', rfl, hend, h'⟩ := accepts_sizeSpace hm
      exact ⟨[], b :: bytes, m', rfl, nofun, hend.blank hb, hv, h'⟩
    · split at he
      · rename_i hb
        cases he
        obtain ⟨bytes, m', heq, hend, h'⟩ := accepts_semicolon hm
        exact ⟨[], bytes, m', by rw [hb]; exact heq, nofun, hend, hv, h'⟩
      · split at he
        · rename_i hb
          cases he
          obtain ⟨bytes, m', heq, hend, h'⟩ := accepts_return hm
          exact ⟨[], bytes, m', by rw [hb]; exact heq, nofun, hend, hv, h'⟩
        · split at he
          · rename_i d hd
            rw [UInt64.toNat_ofNat_of_lt' hv] at he
            split at he
            · rename_i hlt
              cases he
              obtain ⟨digits, bytes, m', rfl, hdigits, hend, hlt', h'⟩ := ih hlt hm
              refine ⟨b :: digits, bytes, m', rfl, ?_, hend, ?_, ?_⟩
              · exact List.forall_mem_cons.mpr ⟨Option.isSome_iff_exists.mpr ⟨d, hd⟩, hdigits⟩
              · rw [List.foldl_cons, hd, Option.getD_some]
                exact hlt'
              · rw [List.foldl_cons, hd, Option.getD_some]
                exact h'
            · cases he
          · cases he

/-- **From the start of a size line** there is a size line. -/
theorem accepts_sizeStart (h : Accepts ⟨.sizeStart, r⟩ m) :
    ∃ size line m', m = frame line ++ m' ∧ IsSizeLine size line ∧
      Accepts (afterSize (UInt64.ofNat size)) m' := by
  cases m with
  | nil => exact absurd rfl (h.ne_nil nofun)
  | cons x m =>
    obtain ⟨b, mark⟩ := x
    obtain ⟨e, he, hm⟩ := accepts_cons h
    rw [eat_sizeStart] at he
    split at he
    · rename_i v hb
      cases he
      have hv : v < UInt64.size := Nat.lt_trans (hexPlace?_lt hb) (by decide)
      obtain ⟨digits, bytes, m', rfl, hdigits, ⟨blanks, ext, rfl, hblanks, hext⟩, hlt, h'⟩ :=
        accepts_size hv hm
      have hnumber : hexNumber (b :: digits) =
          digits.foldl (fun v b => 16 * v + (hexPlace? b).getD 0) v := by
        rw [hexNumber, List.foldl_cons, hb, Option.getD_some, Nat.mul_zero, Nat.zero_add]
      rw [← hnumber] at hlt h'
      refine ⟨hexNumber (b :: digits), b :: (digits ++ (blanks ++ ext ++ lineEnd)), m', rfl, ?_, h'⟩
      refine ⟨b :: digits, blanks, ext, ?_, List.cons_ne_nil _ _, ?_, rfl, hlt, hblanks, hext⟩
      · simp only [List.cons_append, List.append_assoc]
      · exact List.forall_mem_cons.mpr ⟨Option.isSome_iff_exists.mpr ⟨v, hb⟩, hdigits⟩
    · cases he

theorem accepts_data (hr : r ≠ 0) (h : Accepts ⟨.data, r⟩ m) :
    ∃ data m', m = content data ++ frame lineEnd ++ m' ∧ data.length = r.toNat ∧
      Accepts ⟨.sizeStart, 0⟩ m' := by
  induction m generalizing r with
  | nil => exact absurd rfl (h.ne_nil nofun)
  | cons x m ih =>
    obtain ⟨b, mark⟩ := x
    obtain ⟨e, he, hm⟩ := accepts_cons h
    rw [eat_data hr] at he
    cases he
    have hpos : 0 < r.toNat := by
      rcases Nat.eq_zero_or_pos r.toNat with h0 | h0
      · exact absurd (UInt64.toNat_inj.mp h0) hr
      · exact h0
    have hleft : (r - UInt64.ofNat 1).toNat = r.toNat - 1 := toNat_sub_ofNat hpos
    rw [takeData] at hm
    dsimp only at hm
    by_cases h0 : r - UInt64.ofNat 1 = 0
    · rw [if_pos h0, h0] at hm
      obtain ⟨m', rfl, h'⟩ := accepts_lineEnd hm
      rw [h0] at hleft
      exact ⟨[b], m', rfl, show 1 = r.toNat by rw [UInt64.toNat_zero] at hleft; omega, h'⟩
    · rw [if_neg h0] at hm
      obtain ⟨data, m', rfl, hlen, h'⟩ := ih h0 hm
      exact ⟨b :: data, m', rfl, by rw [List.length_cons, hlen, hleft]; omega, h'⟩

/-- **Behind the last size line** there are trailers and an empty line. The three states in which a
    trailer may be are taken together. -/
theorem accepts_trailers :
    (Accepts ⟨.endReturn, r⟩ m →
      ∃ ts : List (List UInt8), (∀ t ∈ ts, IsTrailer t) ∧ m = frame (ts.flatten ++ lineEnd)) ∧
    (Accepts ⟨.trailer, r⟩ m →
      ∃ (text : List UInt8) (ts : List (List UInt8)), (∀ b ∈ text, b ≠ 13) ∧
        (∀ t ∈ ts, IsTrailer t) ∧ m = frame (text ++ lineEnd ++ ts.flatten ++ lineEnd)) ∧
    (Accepts ⟨.trailerFeed, r⟩ m →
      ∃ ts : List (List UInt8), (∀ t ∈ ts, IsTrailer t) ∧
        m = frame ([10] ++ ts.flatten ++ lineEnd)) := by
  induction m with
  | nil =>
    exact ⟨fun h => absurd rfl (h.ne_nil nofun), fun h => absurd rfl (h.ne_nil nofun),
      fun h => absurd rfl (h.ne_nil nofun)⟩
  | cons x m ih =>
    obtain ⟨b, mark⟩ := x
    obtain ⟨ihEnd, ihTrailer, ihFeed⟩ := ih
    refine ⟨?_, ?_, ?_⟩
    · intro h
      obtain ⟨e, he, hm⟩ := accepts_cons h
      rw [eat_endReturn] at he
      cases he
      by_cases hb : b = 13
      · rw [if_pos hb] at hm
        obtain ⟨m', rfl, h'⟩ := accepts_only hm nofun fun _ => eat_endFeed
        rw [h'.eq_nil rfl, hb]
        exact ⟨[], nofun, rfl⟩
      · rw [if_neg hb] at hm
        obtain ⟨text, ts, htext, hts, rfl⟩ := ihTrailer hm
        refine ⟨(b :: text ++ lineEnd) :: ts,
          List.forall_mem_cons.mpr ⟨⟨b, text, rfl, hb, htext⟩, hts⟩, ?_⟩
        simp only [List.flatten_cons, List.cons_append, frame_cons, List.append_assoc]
    · intro h
      obtain ⟨e, he, hm⟩ := accepts_cons h
      rw [eat_trailer] at he
      cases he
      by_cases hb : b = 13
      · rw [if_pos hb] at hm
        obtain ⟨ts, hts, rfl⟩ := ihFeed hm
        exact ⟨[], ts, nofun, hts, by rw [hb]; rfl⟩
      · rw [if_neg hb] at hm
        obtain ⟨text, ts, htext, hts, rfl⟩ := ihTrailer hm
        exact ⟨b :: text, ts, List.forall_mem_cons.mpr ⟨hb, htext⟩, hts, rfl⟩
    · intro h
      obtain ⟨e, he, hm⟩ := accepts_cons h
      rw [eat_trailerFeed] at he
      by_cases hb : b = 10
      · rw [if_pos hb] at he
        cases he
        obtain ⟨ts, hts, rfl⟩ := ihEnd hm
        exact ⟨ts, hts, by rw [hb]; rfl⟩
      · rw [if_neg hb] at he
        cases he

/-- **Only chunked bodies are accepted.** By induction on the number of bytes, a chunk at a time. -/
theorem isBody_of_accepts (h : Accepts ⟨.sizeStart, r⟩ m) : IsBody m := by
  generalize hn : m.length = n
  induction n using Nat.strongRecOn generalizing m r with
  | ind n ih =>
    obtain ⟨size, line, m', rfl, hline, h'⟩ := accepts_sizeStart h
    have hlt : size < UInt64.size := by
      obtain ⟨_, _, _, _, _, _, _, hlt, _⟩ := hline
      exact hlt
    by_cases h0 : size = 0
    · subst h0
      obtain ⟨ts, hts, rfl⟩ := accepts_trailers.1 h'
      refine ⟨[], line, ts, nofun, hline, hts, ?_⟩
      rw [List.flatten_nil, List.nil_append, List.append_assoc, frame_append line]
    · rw [afterSize_ofNat h0 hlt] at h'
      have hne : UInt64.ofNat size ≠ 0 := by
        intro h
        have := congrArg UInt64.toNat h
        rw [UInt64.toNat_ofNat_of_lt' hlt] at this
        exact h0 this
      obtain ⟨data, m'', rfl, hlen, h''⟩ := accepts_data hne h'
      rw [UInt64.toNat_ofNat_of_lt' hlt] at hlen
      have hshort : m''.length < n := by
        rw [← hn]
        simp only [frame, lineEnd, List.length_append, List.length_map, List.length_cons]
        omega
      obtain ⟨chunks, last, ts, hchunks, hlast, hts, rfl⟩ := ih m''.length hshort h'' rfl
      refine ⟨(frame line ++ content data ++ frame lineEnd) :: chunks, last, ts, ?_, hlast, hts, ?_⟩
      · refine List.forall_mem_cons.mpr ⟨⟨line, data, hlen.symm ▸ hline, ?_, rfl⟩, hchunks⟩
        rintro rfl
        exact h0 hlen.symm
      · simp only [List.flatten_cons, List.append_assoc]

/-! ## 4. No dead ends -/

theorem Accepts.behind (hpath : Path d m e) (h : Accepts e n) : Accepts d (m ++ n) := by
  obtain ⟨f, hn, hf⟩ := h
  exact ⟨f, hpath.append hn, hf⟩

/-- What leads to a state with a way to the end has one. -/
theorem exists_accepts_behind (hpath : Path d m e) (h : ∃ n, Accepts e n) : ∃ n, Accepts d n := by
  obtain ⟨n, hn⟩ := h
  exact ⟨m ++ n, .behind hpath hn⟩

theorem exists_accepts_endReturn : ∃ m, Accepts ⟨.endReturn, r⟩ m := ⟨_, _, path_end, rfl⟩

/-- One digit and the end of a line are a size line. -/
theorem isSizeLine_digit {b : UInt8} {n : Nat} (hb : hexPlace? b = some n) :
    IsSizeLine n [b, 13, 10] := by
  refine ⟨[b], [], [], rfl, List.cons_ne_nil _ _, List.forall_mem_singleton.mpr ?_, ?_, ?_, nofun,
    .inl rfl⟩
  · rw [hb]
    rfl
  · rw [hexNumber, List.foldl_cons, List.foldl_nil, hb]
    exact Nat.zero_add n
  · exact Nat.lt_trans (hexPlace?_lt hb) (by decide)

theorem exists_accepts_sizeStart : ∃ m, Accepts ⟨.sizeStart, r⟩ m :=
  exists_accepts_behind (path_of_isSizeLine (isSizeLine_digit (b := 48) rfl))
    exists_accepts_endReturn

theorem exists_accepts_dataReturn : ∃ m, Accepts ⟨.dataReturn, r⟩ m :=
  exists_accepts_behind path_lineEnd exists_accepts_sizeStart

/-- When nothing is left of the data, the decoder goes on as behind it. -/
theorem path_noData : Path ⟨.data, 0⟩ (frame lineEnd) ⟨.sizeStart, 0⟩ :=
  .cons nofun rfl (.single nofun rfl)

theorem exists_accepts_data : ∃ m, Accepts ⟨.data, r⟩ m := by
  by_cases hr : r = 0
  · subst hr
    exact exists_accepts_behind path_noData exists_accepts_sizeStart
  · have hlen : (List.replicate r.toNat (0 : UInt8)).length = r.toNat := List.length_replicate
    have hne : List.replicate r.toNat (0 : UInt8) ≠ [] := by
      intro h
      rw [h] at hlen
      exact hr (UInt64.toNat_inj.mp hlen.symm)
    exact exists_accepts_behind (path_data hne hlen) exists_accepts_sizeStart

theorem exists_accepts_afterSize : ∃ m, Accepts (afterSize r) m := by
  rw [afterSize]
  split
  · exact exists_accepts_endReturn
  · exact exists_accepts_data

/-- **From every state** there is a way to the end of the body. -/
theorem exists_accepts (d : ChunkDecoder) : ∃ m, Accepts d m := by
  obtain ⟨s, r⟩ := d
  have hafter : ∃ m, Accepts (afterSize r) m := exists_accepts_afterSize
  have htrailer : ∃ m, Accepts ⟨.endReturn, r⟩ m := exists_accepts_endReturn
  have hfeed : Path ⟨.trailerFeed, r⟩ (frame [10]) ⟨.endReturn, r⟩ :=
    .single nofun (by rw [eat_trailerFeed, if_pos rfl])
  cases s with
  | sizeStart => exact exists_accepts_sizeStart
  | size => exact exists_accepts_behind (path_ending [] (.inl rfl) (.inl rfl)) hafter
  | sizeSpace => exact exists_accepts_behind (path_ending [] (.inr rfl) (.inl rfl)) hafter
  | extension => exact exists_accepts_behind (path_extension [] nofun) hafter
  | sizeFeed => exact exists_accepts_behind path_sizeFeed hafter
  | data => exact exists_accepts_data
  | dataReturn => exact exists_accepts_dataReturn
  | dataFeed =>
    exact exists_accepts_behind (.single nofun (by rw [eat_dataFeed, if_pos rfl]))
      exists_accepts_sizeStart
  | trailer =>
    exact exists_accepts_behind (.cons nofun (by rw [eat_trailer, if_pos rfl]) hfeed) htrailer
  | trailerFeed => exact exists_accepts_behind hfeed htrailer
  | endReturn => exact htrailer
  | endFeed =>
    exact ⟨_, ⟨.finished, r⟩, .single nofun (by rw [eat_endFeed, if_pos rfl]), rfl⟩
  | finished => exact ⟨[], ⟨.finished, r⟩, .nil _, rfl⟩

/-- What a fresh decoder has read without a fault is the beginning of a body, with its data marked. -/
theorem isBody_of_path (h : Path fresh m e) : ∃ n, IsBody (m ++ n) := by
  obtain ⟨n, hn⟩ := exists_accepts e
  exact ⟨n, isBody_of_accepts (.behind h hn)⟩

/-! ## 5. Decoding from a stream -/

theorem scan_finished (hd : d.state = .finished) (bs : List UInt8) :
    d.scan bs = ⟨[], d, .finished bs⟩ := by
  cases bs <;> rw [scan, if_pos hd]

theorem Path.split (h : Path d (m ++ n) f) : ∃ e, Path d m e ∧ Path e n f := by
  induction m generalizing d with
  | nil => exact ⟨d, .nil d, h⟩
  | cons x m ih =>
    cases h with
    | cons hd he hm =>
      obtain ⟨e, h₁, h₂⟩ := ih hm
      exact ⟨e, .cons hd he h₁, h₂⟩

/-- A string that begins with a body is read up to the end of the body. -/
theorem scan_of_isBody (h : IsBody m) (rest : List UInt8) :
    ∃ e, fresh.scan (m.bytes ++ rest) = ⟨m, e, .finished rest⟩ := by
  obtain ⟨e, hpath, he⟩ := accepts_of_isBody (r := 0) h
  have hscan := scan_of_path hpath rest
  rw [scan_finished he, List.append_nil] at hscan
  exact ⟨e, hscan⟩

/-- Over a proper beginning of a body there is a path, not to the end. -/
theorem path_of_beginning (h : IsBody (m ++ n)) (hn : n ≠ []) :
    ∃ e, Path fresh m e ∧ e.state ≠ .finished := by
  obtain ⟨f, hpath, _⟩ := accepts_of_isBody (r := 0) h
  obtain ⟨e, hm, hrest⟩ := hpath.split
  refine ⟨e, hm, ?_⟩
  intro he
  cases hrest with
  | nil => exact hn rfl
  | cons hne => exact hne he

/-- The beginning of a body is read to its last byte, and more is asked for. -/
theorem scan_of_beginning (h : IsBody (m ++ n)) (hn : n ≠ []) :
    ∃ e, fresh.scan m.bytes = ⟨m, e, .more⟩ := by
  obtain ⟨e, hm, he⟩ := path_of_beginning h hn
  have hscan := scan_of_path hm []
  have hend : e.scan [] = ⟨[], e, .more⟩ := by rw [scan, if_neg he]
  rw [hend, List.append_nil, List.append_nil] at hscan
  exact ⟨e, hscan⟩

/-- The first byte that no body has behind such a beginning is a fault. -/
theorem scan_of_malformed {b : UInt8} (h : IsBody (m ++ n)) (hn : n ≠ [])
    (hb : ¬ Viable (m.bytes ++ [b])) (rest : List UInt8) :
    ∃ e f, fresh.scan (m.bytes ++ b :: rest) = ⟨m, e, .fault f rest⟩ := by
  obtain ⟨e, hm, he⟩ := path_of_beginning h hn
  have hscan := scan_of_path hm (b :: rest)
  cases heat : e.eat b with
  | error f =>
    have hstop : e.scan (b :: rest) = ⟨[], e, .fault f rest⟩ := by rw [scan, if_neg he, heat]
    rw [hstop, List.append_nil] at hscan
    exact ⟨e, f, hscan⟩
  | ok r =>
    obtain ⟨n, hbody⟩ := isBody_of_path (hm.append (.single he heat))
    refine absurd ⟨_, hbody, n.bytes, ?_⟩ hb
    rw [bytes_append, bytes_append]
    rfl

/-- Bodies that begin with what was read have it marked as it was read. -/
theorem take_of_isBody (h : Path fresh m e) (hn : IsBody n) (hmn : m.bytes <+: n.bytes) :
    n.take m.bytes.length = m := by
  obtain ⟨t, ht⟩ := hmn
  obtain ⟨f, hscan⟩ := scan_of_isBody hn []
  rw [List.append_nil, ← ht, scan_of_path h t] at hscan
  have hread : n = m ++ (e.scan t).read := (congrArg Scan.read hscan).symm
  rw [hread, length_bytes, List.take_left]

/-- **At a fault** no body goes on with the byte at which it is. -/
theorem not_viable_of_fault {b : UInt8} {f : ChunkFault} (h : Path fresh m e)
    (he : e.state ≠ .finished) (hf : e.eat b = .error f) : ¬ Viable (m.bytes ++ [b]) := by
  intro h
  rcases h with ⟨n, hn, t, ht⟩
  obtain ⟨e', hscan⟩ := scan_of_isBody hn []
  have hstop : (e.scan (b :: t)).stop = .fault f t := by rw [scan, if_neg he, hf]
  rw [List.append_nil, ← ht, List.append_assoc, scan_of_path h] at hscan
  have := congrArg Scan.stop hscan
  rw [List.cons_append, List.nil_append] at this
  cases hstop.symm.trans this

theorem length_read_le (d : ChunkDecoder) (bs : List UInt8) :
    (d.scan bs).read.length ≤ bs.length := by
  induction bs generalizing d with
  | nil => exact Nat.le_refl 0
  | cons b bs ih =>
    unfold scan
    split
    · exact Nat.zero_le _
    · split
      · exact Nat.zero_le _
      · exact Nat.succ_le_succ (ih _)

/-- What a scan of a string that begins with no body and begins no body comes to. -/
theorem scan_of_not_viable {bs : List UInt8} (hbody : ∀ m rest, IsBody m → bs ≠ m.bytes ++ rest)
    (h : ¬ Viable bs) : ∃ m e b f rest, fresh.scan bs = ⟨m, e, .fault f rest⟩ ∧
      bs = m.bytes ++ b :: rest ∧ Path fresh m e ∧ e.state ≠ .finished ∧ e.eat b = .error f := by
  have hpath := path_scan fresh bs
  have hbytes := bytes_scan fresh bs
  split at hbytes
  · -- a body has been read
    exact absurd hbytes.1
      (hbody _ _ (isBody_of_accepts ⟨_, hpath, hbytes.2⟩))
  · -- the bytes have a continuation
    obtain ⟨n, hn⟩ := isBody_of_path hpath
    refine absurd ⟨_, hn, n.bytes, ?_⟩ h
    rw [bytes_append, ← hbytes.1]
  · rename_i f rest hstop
    obtain ⟨b, hbs, hf, he⟩ := hbytes
    refine ⟨(fresh.scan bs).read, (fresh.scan bs).decoder, b, f, rest, ?_, hbs, hpath, he, hf⟩
    rw [← hstop]

/-- **The decoder accepts exactly the chunked bodies.** Take the bytes of a stream, however they are cut
    into segments, and a sink with room for them.

    If they begin with a body, it is the only one; decoding writes its data, returns the length of the
    data and leaves the bytes behind the body. If they are a proper beginning of a body, decoding asks
    for more, having written the data in it. Otherwise decoding faults at the first byte with which
    the bytes are no longer the beginning of a body, having written the data before that byte. -/
theorem decodeTo_language (source : Source) (sink : Sink)
    (hsink : sink.Takes source.bytes.length) :
    (∀ m rest, IsBody m → source.bytes = m.bytes ++ rest →
      (∀ n rest', IsBody n → source.bytes = n.bytes ++ rest' → n = m ∧ rest' = rest) ∧
      (fresh.decodeTo source sink).result = .ok m.data.length ∧
      (fresh.decodeTo source sink).sink.written.toList = sink.written.toList ++ m.data ∧
      (fresh.decodeTo source sink).source.bytes = rest) ∧
    (∀ m k, IsBody m → k < m.length → source.bytes = Marked.bytes (m.take k) →
      (fresh.exhaust source.bytes).2.item = .more ∧
      (fresh.decodeTo source sink).result = .error (endFault source.failure .chunkedBody) ∧
      (fresh.decodeTo source sink).sink.written.toList =
        sink.written.toList ++ Marked.data (m.take k)) ∧
    ((∀ m rest, IsBody m → source.bytes ≠ m.bytes ++ rest) → ¬ Viable source.bytes →
      ∃ u b v f, source.bytes = u ++ b :: v ∧ Viable u ∧ ¬ Viable (u ++ [b]) ∧
        (fresh.decodeTo source sink).result = .error (.chunk f) ∧
        ∀ m, IsBody m → u <+: m.bytes →
          (fresh.decodeTo source sink).sink.written.toList =
            sink.written.toList ++ Marked.data (m.take u.length)) := by
  have hstart : fresh.state ≠ .finished := nofun
  have hroom : sink.Takes (fresh.scan source.bytes).read.data.length :=
    hsink.mono (Nat.le_trans (length_data_le _) (length_read_le ..))
  obtain ⟨hwritten, hends⟩ : (fresh.decodeTo source sink).sink.written.toList = _ ∧
      Yield.Ends _ _ (fresh.decodeTo source sink) :=
    Feeder.run_of_yields yields_chunkFeeder (s := (⟨fresh, 0⟩ : ChunkProgress)) hstart hroom
  unfold Yield.Ends at hends
  unfold ChunkProgress.yield at hwritten hends
  dsimp only at hwritten hends
  rw [Nat.zero_add] at hends
  refine ⟨?_, ?_, ?_⟩
  · intro m rest hm hbytes
    obtain ⟨e, hscan⟩ := scan_of_isBody hm rest
    rw [← hbytes] at hscan
    rw [hscan] at hwritten hends
    obtain ⟨hresult, hrest, _⟩ := hends
    refine ⟨?_, hresult, hwritten, hrest⟩
    intro n rest' hn hbytes'
    obtain ⟨e', hscan'⟩ := scan_of_isBody hn rest'
    rw [← hbytes', hscan] at hscan'
    cases hscan'
    exact ⟨rfl, rfl⟩
  · intro m k hm hk hbytes
    have hdrop : m.drop k ≠ [] := by
      rw [Ne, List.drop_eq_nil_iff]
      exact Nat.not_le_of_lt hk
    obtain ⟨e, hscan⟩ := scan_of_beginning (m := m.take k) (n := m.drop k)
      (by rwa [List.take_append_drop]) hdrop
    rw [← hbytes] at hscan
    have hitem := (exhaust_eq hstart source.bytes).2.1
    rw [hscan] at hwritten hends hitem
    exact ⟨hitem, hends, hwritten⟩
  · intro hbody hviable
    obtain ⟨m, e, b, f, rest, hscan, hbytes, hpath, he, hf⟩ := scan_of_not_viable hbody hviable
    rw [hscan] at hwritten hends
    obtain ⟨n, hn⟩ := isBody_of_path hpath
    refine ⟨m.bytes, b, rest, f, hbytes, ⟨_, hn, n.bytes, (bytes_append m n).symm⟩,
      not_viable_of_fault hpath he hf, hends, ?_⟩
    intro n hn hprefix
    rw [take_of_isBody hpath hn hprefix]
    exact hwritten

/-- A chunk of three bytes, and the end of the body, cut in the midst of the data; two more bytes
    follow. -/
theorem decodeTo_language_abc :
    Sink.unlimited.Takes (Source.ofSegments
      [[51, 13, 10, 97], [98, 99, 13, 10, 48, 13, 10, 13, 10, 71, 69]] none).bytes.length ∧
    (fresh.decodeTo (Source.ofSegments
      [[51, 13, 10, 97], [98, 99, 13, 10, 48, 13, 10, 13, 10, 71, 69]] none)
        Sink.unlimited).source.bytes = [71, 69] := by
  have hsink := Sink.takes_unlimited (Source.ofSegments
      [[51, 13, 10, 97], [98, 99, 13, 10, 48, 13, 10, 13, 10, 71, 69]] none).bytes.length
  have hline : IsSizeLine 3 [51, 13, 10] := isSizeLine_digit rfl
  have hlast : IsSizeLine 0 [48, 13, 10] := isSizeLine_digit rfl
  have hchunk : IsChunk (frame [51, 13, 10] ++ content [97, 98, 99] ++ frame lineEnd) :=
    ⟨[51, 13, 10], [97, 98, 99], hline, List.cons_ne_nil _ _, rfl⟩
  have hbody : IsBody ((frame [51, 13, 10] ++ content [97, 98, 99] ++ frame lineEnd) ++
      frame ([48, 13, 10] ++ lineEnd)) :=
    ⟨[_], [48, 13, 10], [], List.forall_mem_singleton.mpr hchunk, hlast, nofun, rfl⟩
  refine ⟨hsink, ?_⟩
  exact ((decodeTo_language _ _ hsink).1 _ [71, 69] hbody (by decide)).2.2.2

end ChunkDecoder

end Sluice.Http
