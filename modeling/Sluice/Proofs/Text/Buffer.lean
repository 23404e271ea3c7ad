/-
  File:      Sluice/Proofs/Text/Buffer.lean
  Subject:   A buffer in chunks is one text.

  * `Packed`: all chunks are full but the last, and the size is the number of characters;
  * `Supplies`, `Grown`: growing from a supply of empty chunks, whatever else its state keeps;
  * `grown_push`, `grown_fillFrom`, `grown_appendFrom`, `toText_append`: characters behind the text;
  * `charAt?_eq`: the character at a position is that of the text;
  * **`toText_range`**, **`copyRange_eq`**: a view and a copy of a range are this part of the text;
  * `slice`, `get_eq`, `map_sub`: reading with the bounds checked;
  * `size_chunks`: how many chunks there are.
-/
import Sluice.Buffer.TextView

namespace Sluice

/-- Chunks from the supply are empty, as long as `R` holds of its state and of the number of chunks
    that were taken before. -/
def ChunkSupply.Supplies {σ : Type} (supply : ChunkSupply σ) (R : Nat → σ → Prop) : Prop :=
  ∀ n s, R n s → (supply.take s).1 = #[] ∧ R (n + 1) (supply.take s).2

theorem ChunkSupply.supplies_fresh : ChunkSupply.fresh.Supplies fun _ _ => True :=
  fun _ _ _ => ⟨rfl, trivial⟩

namespace CharBuffer

/-! ## 1. Growing -/

/-- All chunks but the last are full, the last one holds something, and the size counts the
    characters. -/
def Packed (b : CharBuffer) : Prop :=
  (∃ (full : List (Array Char)) (last : Option (Array Char)),
    b.chunks.toList = full ++ last.toList ∧ (∀ c ∈ full, c.size = b.chunkSize) ∧
      ∀ c ∈ last, 0 < c.size ∧ c.size ≤ b.chunkSize) ∧
  b.size = b.toText.length

theorem packed_empty (n : Nat) (h : 0 < n) : (empty n h).Packed :=
  ⟨⟨[], none, rfl, nofun, nofun⟩, rfl⟩

/-- All chunks but the last are full, and the last one has room. -/
def Open (b : CharBuffer) : Prop :=
  (∃ (full : List (Array Char)) (last : Array Char), b.chunks.toList = full ++ [last] ∧
    (∀ c ∈ full, c.size = b.chunkSize) ∧ last.size < b.chunkSize) ∧
  b.size = b.toText.length

variable {σ : Type} {supply : ChunkSupply σ} {R : Nat → σ → Prop} {s : σ} {b : CharBuffer}

theorem back?_eq {full : List (Array Char)} {last : Array Char}
    (h : b.chunks.toList = full ++ [last]) : b.chunks.back? = some last := by
  rw [← Array.getLast?_toList, h, List.getLast?_concat]

/-- A new chunk goes behind full ones. -/
theorem open_push (hb : b.Packed) (hn : b.needsChunk = true) :
    ({ b with chunks := b.chunks.push #[] } : CharBuffer).Open ∧
      ({ b with chunks := b.chunks.push #[] } : CharBuffer).toText = b.toText := by
  obtain ⟨⟨full, last, hchunks, hfull, hlast⟩, hsize⟩ := hb
  have htext : ({ b with chunks := b.chunks.push #[] } : CharBuffer).toText = b.toText := by
    simp only [toText, Array.toList_push, List.flatMap_append, List.flatMap_singleton,
      List.append_nil]
  refine ⟨⟨⟨full ++ last.toList, #[], ?_, ?_, b.chunkSize_pos⟩, hsize.trans ?_⟩, htext⟩
  · rw [Array.toList_push, hchunks]
  · intro x hx
    rcases List.mem_append.mp hx with hx | hx
    · exact hfull x hx
    · -- the last chunk was full
      have hx' : last = some x := by simpa using hx
      have hback : b.chunks.back? = some x := back?_eq (by rw [hchunks, hx', Option.toList_some])
      have hle : b.chunkSize ≤ x.size := by simpa [needsChunk, hback] using hn
      exact Nat.le_antisymm (hlast x hx').2 hle
  · rw [htext]

/-- Where no new chunk is needed, the last one has room. -/
theorem open_of_not_needsChunk (hb : b.Packed) (hn : ¬ b.needsChunk = true) : b.Open := by
  obtain ⟨⟨full, last, hchunks, hfull, hlast⟩, hsize⟩ := hb
  obtain ⟨x, hback⟩ : ∃ x, b.chunks.back? = some x := by
    cases hb : b.chunks.back? with
    | none => exact absurd (by simp [needsChunk, hb]) hn
    | some x => exact ⟨x, rfl⟩
  have hlt : x.size < b.chunkSize := by simpa [needsChunk, hback] using hn
  have hx : last = some x := by
    cases last with
    | some y =>
      have hy : b.chunks.back? = some y := back?_eq hchunks
      rw [← hback, hy]
    | none =>
      rw [← Array.getLast?_toList, hchunks, Option.toList_none, List.append_nil] at hback
      have := hfull x (List.mem_of_getLast? hback)
      omega
  exact ⟨⟨full, x, by rw [hchunks, hx, Option.toList_some], hfull, hlt⟩, hsize⟩

/-- **A chunk to write into.** The text stays what it is. -/
theorem open_writable (hs : supply.Supplies R) (hr : R b.chunks.size s) (hb : b.Packed) :
    (b.writable supply s).1.Open ∧ (b.writable supply s).1.toText = b.toText ∧
      (b.writable supply s).1.chunkSize = b.chunkSize ∧
      R (b.writable supply s).1.chunks.size (b.writable supply s).2 := by
  unfold writable
  by_cases hn : b.needsChunk = true
  · obtain ⟨hempty, hr'⟩ := hs _ s hr
    obtain ⟨hopen, htext⟩ := open_push hb hn
    rw [if_pos hn]
    dsimp only
    rw [hempty]
    refine ⟨hopen, htext, rfl, ?_⟩
    rw [Array.size_push]
    exact hr'
  · rw [if_neg hn]
    exact ⟨open_of_not_needsChunk hb hn, rfl, rfl, hr⟩

/-- There is room in an open buffer. -/
theorem room_pos (hb : b.Open) : 0 < b.room := by
  obtain ⟨⟨full, last, hchunks, _, hlt⟩, _⟩ := hb
  rw [room, back?_eq hchunks, Option.getD_some]
  exact Nat.sub_pos_of_lt hlt

/-- **Characters into the last chunk**, no more than it has room for, stand behind the text. -/
theorem packed_extend (hb : b.Open) {t : Text} (hpos : t ≠ []) (hroom : t.length ≤ b.room) :
    (b.extend t).Packed ∧ (b.extend t).toText = b.toText ++ t ∧
      (b.extend t).chunks.size = b.chunks.size := by
  obtain ⟨⟨full, last, hchunks, hfull, hlt⟩, hsize⟩ := hb
  rw [room, back?_eq hchunks, Option.getD_some] at hroom
  have hmod : (b.extend t).chunks.toList = full ++ [last ++ t.toArray] := by
    have hlen : b.chunks.size - 1 = full.length := by
      rw [← Array.length_toList, hchunks, List.length_append]
      rfl
    rw [extend, Array.toList_modify, hchunks, hlen, List.modify_eq_take_drop, List.take_left,
      List.drop_left]
    rfl
  have htext : (b.extend t).toText = b.toText ++ t := by
    simp only [toText, hmod, hchunks, List.flatMap_append, List.flatMap_singleton,
      Array.toList_append, List.append_assoc]
  have hlast : (last ++ t.toArray).size = last.size + t.length := Array.size_append
  have hsome := List.length_pos_iff.mpr hpos
  refine ⟨⟨⟨full, some (last ++ t.toArray), hmod, hfull, ?_⟩, ?_⟩, htext, Array.size_modify⟩
  · intro y hy
    obtain rfl : last ++ t.toArray = y := Option.some.inj hy
    rw [hlast]
    exact ⟨Nat.add_pos_right _ hsome, Nat.add_le_of_le_sub' (Nat.le_of_lt hlt) hroom⟩
  · rw [htext, List.length_append, ← hsize]
    rfl

/-- A buffer with a text behind what there was in `b`, and the supply after that. -/
structure Grown (R : Nat → σ → Prop) (b : CharBuffer) (t : Text) (r : CharBuffer × σ) : Prop where
  packed : r.1.Packed
  text : r.1.toText = b.toText ++ t
  chunkSize : r.1.chunkSize = b.chunkSize
  supplied : R r.1.chunks.size r.2

/-- **One character more** at the end of the text. -/
theorem grown_push (hs : supply.Supplies R) (hr : R b.chunks.size s) (hb : b.Packed) (c : Char) :
    Grown R b [c] (b.push supply s c) := by
  obtain ⟨hopen, htext, hchunkSize, hr'⟩ := open_writable hs hr hb
  obtain ⟨hpacked, htext', hchunks⟩ := packed_extend hopen (List.cons_ne_nil c []) (room_pos hopen)
  exact ⟨hpacked, htext'.trans (congrArg (· ++ [c]) htext), hchunkSize, hchunks ▸ hr'⟩

/-- **A text more**, as much of it at a time as the last chunk has room for. -/
theorem grown_fillFrom (hs : supply.Supplies R) (hr : R b.chunks.size s) (hb : b.Packed)
    (t : Text) : Grown R b t (b.fillFrom supply s t) := by
  fun_induction fillFrom supply s b t with
  | case1 s b => exact ⟨hb, (List.append_nil _).symm, rfl, hr⟩
  | case2 s b c cs b' s' hw t hroom ih =>
    have hopen := open_writable hs hr hb
    rw [hw] at hopen
    obtain ⟨hopen, htext, hchunkSize, hr'⟩ := hopen
    have hsome : t.take b'.room ≠ [] := by
      rw [Ne, List.take_eq_nil_iff, not_or]
      exact ⟨Nat.ne_of_gt hroom, List.cons_ne_nil c cs⟩
    obtain ⟨hpacked, htext', hchunks⟩ := packed_extend hopen hsome (List.length_take_le _ _)
    have h := ih (hchunks ▸ hr') hpacked
    refine ⟨h.packed, ?_, h.chunkSize.trans hchunkSize, h.supplied⟩
    rw [h.text, htext', List.append_assoc, List.take_append_drop]
    exact congrArg (· ++ t) htext
  | case3 s b c cs b' s' hw hroom =>
    have hopen := (open_writable hs hr hb).1
    rw [hw] at hopen
    exact absurd (room_pos hopen) hroom

/-- **A text more**, character by character. -/
theorem grown_appendFrom (hs : supply.Supplies R) (hr : R b.chunks.size s) (hb : b.Packed)
    (t : Text) : Grown R b t (b.appendFrom supply s t) := by
  induction t generalizing b s with
  | nil => exact ⟨hb, (List.append_nil _).symm, rfl, hr⟩
  | cons c t ih =>
    have hpush := grown_push hs hr hb c
    have h := ih hpush.supplied hpush.packed
    refine ⟨h.packed, ?_, h.chunkSize.trans hpush.chunkSize, h.supplied⟩
    rw [appendFrom, h.text, hpush.text, List.append_assoc, List.singleton_append]

theorem packed_append (hb : b.Packed) (t : Text) : (b.append t).Packed :=
  (grown_appendFrom ChunkSupply.supplies_fresh trivial hb t).packed

/-- **Appending** puts a text behind the text. -/
theorem toText_append (hb : b.Packed) (t : Text) : (b.append t).toText = b.toText ++ t :=
  (grown_appendFrom ChunkSupply.supplies_fresh trivial hb t).text

theorem size_append (hb : b.Packed) (t : Text) : (b.append t).size = b.size + t.length := by
  rw [(packed_append hb t).2, toText_append hb, List.length_append, hb.2]

/-! ## 2. Reading -/

/-- A position in full chunks. -/
theorem getElem?_flatMap {n : Nat} (hn : 0 < n) {full : List (Array Char)}
    {last : Option (Array Char)} (hfull : ∀ c ∈ full, c.size = n) (hlast : ∀ c ∈ last, c.size ≤ n)
    (i : Nat) : ((full ++ last.toList).flatMap Array.toList)[i]? =
      ((full ++ last.toList)[i / n]?).bind (·[i % n]?) := by
  induction full generalizing i with
  | nil =>
    cases last with
    | none => rfl
    | some c =>
      have hc := hlast c rfl
      simp only [Option.toList_some, List.nil_append, List.flatMap_singleton, Array.getElem?_toList]
      rcases Nat.lt_or_ge i n with hi | hi
      · rw [Nat.div_eq_of_lt hi, Nat.mod_eq_of_lt hi]
        rfl
      · have hdiv : 0 < i / n := Nat.div_pos hi hn
        rw [Array.getElem?_eq_none (by omega), List.getElem?_eq_none (show 1 ≤ i / n from hdiv)]
        rfl
  | cons c full ih =>
    have hc : c.toList.length = n := hfull c List.mem_cons_self
    rw [List.cons_append, List.flatMap_cons]
    rcases Nat.lt_or_ge i n with hi | hi
    · rw [List.getElem?_append_left (by omega), Nat.div_eq_of_lt hi, Nat.mod_eq_of_lt hi,
        Array.getElem?_toList]
      rfl
    · have hdiv : i / n = (i - n) / n + 1 := Nat.div_eq_sub_div hn hi
      rw [List.getElem?_append_right (by omega), hc,
        ih (fun d hd => hfull d (List.mem_cons_of_mem c hd)), hdiv, Nat.mod_eq_sub_mod hi]
      rfl

/-- **The character at a position** is that of the text. -/
theorem charAt?_eq (hb : b.Packed) (i : Nat) : b.charAt? i = b.toText[i]? := by
  obtain ⟨⟨full, last, hchunks, hfull, hlast⟩, _⟩ := hb
  have h := getElem?_flatMap b.chunkSize_pos hfull (fun c hc => (hlast c hc).2) i
  rw [← hchunks] at h
  rw [toText, h, charAt?, Array.getElem?_toList]
  cases b.chunks[i / b.chunkSize]? <;> rfl

/-- The characters of a list at consecutive positions. -/
theorem filterMap_range' (t : Text) (start n : Nat) :
    (List.range' start n).filterMap (t[·]?) = (t.drop start).take n := by
  induction n generalizing start with
  | zero => rfl
  | succ n ih =>
    rw [List.range'_succ, List.filterMap_cons, ih]
    cases h : t[start]? with
    | none =>
      have hlen : t.length ≤ start := List.getElem?_eq_none_iff.mp h
      rw [List.drop_eq_nil_of_le hlen, List.drop_eq_nil_of_le (Nat.le_succ_of_le hlen)]
      simp
    | some c =>
      obtain ⟨hlt, hc⟩ := List.getElem?_eq_some_iff.mp h
      rw [List.drop_eq_getElem_cons hlt, hc]
      rfl

/-- **A view of a range** shows this part of the text. -/
theorem toText_range (hb : b.Packed) (start stop : Nat) :
    (TextView.range b start stop).toText = (b.toText.drop start).take (stop - start) := by
  have hchar : b.charAt? = (b.toText[·]?) := funext (charAt?_eq hb)
  rw [TextView.toText, hchar, filterMap_range']

/-- No chunk has more characters than chunks have room for. -/
theorem size_chunk_le (hb : b.Packed) (i : Nat) : ((b.chunks[i]?).getD #[]).size ≤ b.chunkSize := by
  obtain ⟨⟨full, last, hchunks, hfull, hlast⟩, _⟩ := hb
  cases hi : b.chunks[i]? with
  | none => exact Nat.zero_le _
  | some c =>
    have hc : c ∈ b.chunks.toList := Array.mem_toList_iff.mpr (Array.mem_of_getElem? hi)
    rw [hchunks] at hc
    rcases List.mem_append.mp hc with hc | hc
    · exact Nat.le_of_eq (hfull c hc)
    · exact (hlast c (by simpa using hc)).2

/-- The text of a chunk is a part of the text. -/
theorem toList_chunk (hb : b.Packed) (i : Nat) : ((b.chunks[i]?).getD #[]).toList =
    (b.toText.drop (i * b.chunkSize)).take b.chunkSize := by
  have hpos := b.chunkSize_pos
  refine List.ext_getElem? fun j => ?_
  rw [List.getElem?_take, List.getElem?_drop, Array.getElem?_toList]
  by_cases hj : j < b.chunkSize
  · have hdiv : (i * b.chunkSize + j) / b.chunkSize = i := by
      rw [Nat.mul_comm, Nat.mul_add_div hpos, Nat.div_eq_of_lt hj, Nat.add_zero]
    have hmod : (i * b.chunkSize + j) % b.chunkSize = j := by
      rw [Nat.mul_add_mod', Nat.mod_eq_of_lt hj]
    rw [if_pos hj, ← charAt?_eq hb, charAt?, hdiv, hmod]
    cases b.chunks[i]? <;> rfl
  · rw [if_neg hj, Array.getElem?_eq_none]
    exact Nat.le_trans (size_chunk_le hb i) (Nat.le_of_not_lt hj)

/-- What the chunks hold of a range from the chunk at `base` on. -/
theorem copyFrom_eq (hb : b.Packed) {start stop base : Nat} (hbase : base % b.chunkSize = 0)
    (hstart : start < base + b.chunkSize) : b.copyFrom start stop base =
      (b.toText.drop (max start base)).take (stop - max start base) := by
  fun_induction copyFrom b start stop base with
  | case1 base hlt chunk first last ih =>
    have hchunk : chunk.toList = (b.toText.drop base).take b.chunkSize := by
      have h := toList_chunk hb (base / b.chunkSize)
      rwa [Nat.div_mul_cancel (Nat.dvd_of_mod_eq_zero hbase)] at h
    have hpart : (chunk.toList.drop first).take (last - first) =
        (b.toText.drop (max start base)).take (last - first) := by
      rw [hchunk, List.drop_take, List.drop_drop, List.take_take]
      congr 1
      · omega
      · exact congrArg (List.drop · _) (by omega)
    rw [hpart, ih (by rw [Nat.add_mod_right, hbase]) (by omega),
      Nat.max_eq_right (Nat.le_of_lt hstart)]
    rcases Nat.le_total (base + b.chunkSize) stop with hle | hle
    · -- the range goes on behind this chunk
      have hnext : base + b.chunkSize = max start base + (last - first) := by omega
      have hrest : stop - max start base =
          (last - first) + (stop - (max start base + (last - first))) := by omega
      rw [hnext, ← List.drop_drop, hrest, List.take_add]
    · have hnone : stop - (base + b.chunkSize) = 0 := Nat.sub_eq_zero_of_le hle
      have hall : last - first = stop - max start base := by omega
      rw [hnone, List.take_zero, List.append_nil, hall]
  | case2 base hge =>
    have hnone : stop - max start base = 0 := by omega
    rw [hnone, List.take_zero]

/-- **A copy of a range** is this part of the text. -/
theorem copyRange_eq (hb : b.Packed) (start stop : Nat) :
    b.copyRange start stop = (b.toText.drop start).take (stop - start) := by
  have hmod := Nat.mod_lt start b.chunkSize_pos
  have hdiv := Nat.mod_add_div start b.chunkSize
  have hbase : start - start % b.chunkSize = b.chunkSize * (start / b.chunkSize) := by omega
  rw [copyRange, copyFrom_eq hb (by rw [hbase, Nat.mul_mod_right]) (by omega),
    Nat.max_eq_left (Nat.sub_le _ _)]

/-- The part of a text from `start` up to `stop`, or the bounds it breaks. -/
def slice (t : Text) (start stop : Nat) : Except BufferError Text :=
  if start ≤ stop ∧ stop ≤ t.length then .ok ((t.drop start).take (stop - start))
  else .error (.invalidRange start stop t.length)

/-- The character at a position is that of the text, and there is none behind its end. -/
theorem get_eq (hb : b.Packed) (i : Nat) :
    b.get i = (b.toText[i]?).elim (.error (.indexOutOfBounds i b.toText.length)) .ok := by
  rw [get, charAt?_eq hb, hb.2]
  by_cases hi : i < b.toText.length
  · rw [if_pos hi, List.getElem?_eq_getElem hi]
    rfl
  · rw [if_neg hi, List.getElem?_eq_none (Nat.le_of_not_lt hi)]
    rfl

/-- A function of what a view shows, over a part of a buffer, is that function of the slice. -/
theorem map_sub {β : Type} (hb : b.Packed) (f : Text → β) (start stop : Nat) :
    (b.sub start stop).map (fun v => f v.toText) = (slice b.toText start stop).map f := by
  rw [sub, slice, hb.2]
  by_cases hvalid : start ≤ stop ∧ stop ≤ b.toText.length
  · rw [if_pos hvalid, if_pos hvalid]
    exact congrArg (fun t => Except.ok (f t)) (toText_range hb start stop)
  · rw [if_neg hvalid, if_neg hvalid]
    rfl

/-! ## 3. Chunks -/

/-- All chunks but the last are full. -/
theorem size_of_mem_dropLast (hb : b.Packed) {c : Array Char} (hc : c ∈ b.chunks.toList.dropLast) :
    c.size = b.chunkSize := by
  obtain ⟨⟨full, last, hchunks, hfull, _⟩, _⟩ := hb
  rw [hchunks] at hc
  cases last with
  | none =>
    rw [Option.toList_none, List.append_nil] at hc
    exact hfull c ((List.dropLast_sublist full).mem hc)
  | some x =>
    rw [Option.toList_some, List.dropLast_concat] at hc
    exact hfull c hc

theorem length_flatMap_full {n : Nat} {full : List (Array Char)} (hfull : ∀ c ∈ full, c.size = n) :
    (full.flatMap Array.toList).length = n * full.length := by
  induction full with
  | nil => rfl
  | cons c full ih =>
    rw [List.flatMap_cons, List.length_append, ih fun d hd => hfull d (List.mem_cons_of_mem c hd),
      Array.length_toList, hfull c List.mem_cons_self, List.length_cons, Nat.mul_succ, Nat.add_comm]

/-- There are as many chunks as the text needs. -/
theorem size_chunks (hb : b.Packed) :
    b.chunks.size = (b.size + b.chunkSize - 1) / b.chunkSize := by
  obtain ⟨⟨full, last, hchunks, hfull, hlast⟩, hsize⟩ := hb
  have hpos := b.chunkSize_pos
  rw [hsize, toText, ← Array.length_toList, hchunks, List.flatMap_append, List.length_append,
    List.length_append, length_flatMap_full hfull, Nat.add_assoc, Nat.add_sub_assoc (by omega),
    Nat.mul_add_div hpos]
  congr 1
  cases last with
  | none =>
    show 0 = (0 + b.chunkSize - 1) / b.chunkSize
    rw [Nat.div_eq_of_lt (by omega)]
  | some c =>
    obtain ⟨hsome, hle⟩ := hlast c rfl
    have hlength : ((some c).toList.flatMap Array.toList).length = c.size := by
      rw [Option.toList_some, List.flatMap_singleton, Array.length_toList]
    rw [hlength]
    show 1 = (c.size + b.chunkSize - 1) / b.chunkSize
    exact (Nat.div_eq_of_lt_le (by omega) (by omega)).symm

end CharBuffer

end Sluice
