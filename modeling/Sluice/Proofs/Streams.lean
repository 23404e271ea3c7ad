/-
  File:      Sluice/Proofs/Streams.lean
  Subject:   What reading and writing do to the bytes of a stream.

  * `available_cases`: what there is to read;
  * `bytes_consume`: reading takes bytes off the flat view, wherever the segments are cut;
  * `Sink.Wrote`: a receiver with further bytes behind those that were written;
  * **`writeAll_eq`**: writing on writes as many bytes as there is room for, whatever a single write
    takes;
  * `Sink.Takes`, `write_of_takes`: a receiver with room for so many more bytes takes what it is
    given, in order, and has the room that is left afterwards;
  * `Sink.Alike`: receivers that differ in what a single write takes.
-/
import Sluice.Wire.Sink
import Sluice.Wire.Source

namespace Sluice.Wire

/-! ## 1. Reading -/

namespace Source

variable {s : Source} {segment : List UInt8} {n : Nat}

/-- What there is to read now: the next segment, the end of the stream, or its failure. -/
theorem available_cases (s : Source) :
    (∃ segment later, s.segments = segment :: later ∧ s.available = .ok segment) ∨
      (s.bytes = [] ∧ s.failure = none ∧ s.available = .ok []) ∨
      ∃ f, s.bytes = [] ∧ s.failure = some f ∧ s.available = .error f := by
  unfold available bytes
  cases hs : s.segments with
  | cons segment later => exact .inl ⟨segment, later, rfl, rfl⟩
  | nil =>
    cases hf : s.failure with
    | none => exact .inr (.inl ⟨rfl, rfl, rfl⟩)
    | some f => exact .inr (.inr ⟨f, rfl, rfl, rfl⟩)

/-- What can be read now is the front of what is unread. -/
theorem bytes_of_available {b : UInt8} {bs : List UInt8} (h : s.available = .ok (b :: bs)) :
    ∃ later : List (List UInt8), s.segments = (b :: bs) :: later ∧
      s.bytes = (b :: bs) ++ later.flatten := by
  rcases available_cases s with ⟨segment, later, hs, ha⟩ | ⟨_, _, ha⟩ | ⟨f, _, _, ha⟩
  · obtain rfl : segment = b :: bs := Except.ok.inj (ha.symm.trans h)
    exact ⟨later, hs, by rw [bytes, hs, List.flatten_cons]⟩
  · cases ha.symm.trans h
  · cases ha.symm.trans h

/-- **Reading takes bytes off the front**, and leaves the others in order. -/
theorem bytes_consume {b : UInt8} {bs : List UInt8} (h : s.available = .ok (b :: bs))
    (hn : n ≤ (b :: bs).length) : (s.consume n).bytes = s.bytes.drop n := by
  obtain ⟨later, hs, hb⟩ := bytes_of_available h
  rw [hb, List.drop_append_of_le_length hn]
  unfold bytes
  rw [segments_consume, hs]
  dsimp only
  split
  · rename_i hd
    rw [hd, List.nil_append]
  · rw [List.flatten_cons]

theorem bytes_consume_append {b : UInt8} {bs later : List UInt8}
    (h : s.available = .ok (b :: bs)) (hb : s.bytes = (b :: bs) ++ later)
    (hn : n ≤ (b :: bs).length) : (s.consume n).bytes = (b :: bs).drop n ++ later := by
  rw [bytes_consume h hn, hb, List.drop_append_of_le_length hn]

/-- Nothing to read and no failure: nothing is unread. -/
theorem bytes_of_available_nil (h : s.available = .ok []) : s.bytes = [] ∧ s.failure = none := by
  rcases available_cases s with ⟨segment, later, hs, ha⟩ | ⟨hbytes, hf, _⟩ | ⟨f, _, _, ha⟩
  · obtain rfl : segment = [] := Except.ok.inj (ha.symm.trans h)
    exact absurd rfl (s.segments_ne [] (hs ▸ List.mem_cons_self))
  · exact ⟨hbytes, hf⟩
  · cases ha.symm.trans h

/-- Reading fails only where nothing is unread. -/
theorem bytes_of_available_error {f : Failure} (h : s.available = .error f) :
    s.bytes = [] ∧ s.failure = some f := by
  rcases available_cases s with ⟨segment, later, _, ha⟩ | ⟨_, _, ha⟩ | ⟨f', hbytes, hf, ha⟩
  · cases ha.symm.trans h
  · cases ha.symm.trans h
  · obtain rfl : f' = f := Except.error.inj (ha.symm.trans h)
    exact ⟨hbytes, hf⟩

/-- Reading nothing leaves a stream as it is. -/
theorem consume_zero (s : Source) : s.consume 0 = s := by
  refine Source.ext ?_ (failure_consume s 0)
  rw [segments_consume]
  cases hs : s.segments with
  | nil => rfl
  | cons segment later =>
    have hne : segment ≠ [] := s.segments_ne segment (hs ▸ List.mem_cons_self)
    exact if_neg hne

theorem bytes_ofSegments (segments : List (List UInt8)) (failure : Option Failure) :
    (ofSegments segments failure).bytes = segments.flatten := by
  simp only [bytes, ofSegments]
  induction segments with
  | nil => rfl
  | cons segment later ih => cases segment <;> simp [ih]

end Source

/-! ## 2. Writing -/

namespace Sink

variable {s t u : Sink} {bytes more : List UInt8} {most : Option Nat} {m n : Nat}

@[simp] theorem upTo_nil (most : Option Nat) : upTo most [] = [] := by
  cases most with
  | none => rfl
  | some n => exact List.take_nil

/-- What there is room for has room. -/
theorem upTo_upTo (most : Option Nat) (bytes : List UInt8) :
    upTo most (upTo most bytes) = upTo most bytes := by
  cases most with
  | none => rfl
  | some n => rw [upTo, upTo, List.take_take, Nat.min_self]

/-- Where the first bytes have room, the room that is left is for those behind them. -/
theorem upTo_append_of_eq (h : upTo most bytes = bytes) (more : List UInt8) :
    upTo most (bytes ++ more) = bytes ++ upTo (most.map (· - bytes.length)) more := by
  cases most with
  | none => rfl
  | some m =>
    have hle : bytes.length ≤ m := by
      have hlen := congrArg List.length h
      rw [upTo, List.length_take] at hlen
      omega
    simp only [upTo, Option.map_some]
    rw [List.take_append, List.take_of_length_le hle]

/-- All bytes have room if those behind the first ones have the room that is left. -/
theorem upTo_append_eq_iff (h : upTo most bytes = bytes) (more : List UInt8) :
    upTo most (bytes ++ more) = bytes ++ more ↔
      upTo (most.map (· - bytes.length)) more = more := by
  rw [upTo_append_of_eq h]
  exact List.append_right_inj _

/-- Where the first bytes have no room, there is none for those behind them. -/
theorem upTo_append_of_ne (h : upTo most bytes ≠ bytes) (more : List UInt8) :
    upTo most (bytes ++ more) = upTo most bytes ∧ upTo most (bytes ++ more) ≠ bytes ++ more := by
  cases most with
  | none => exact absurd rfl h
  | some m =>
    have hlt : m < bytes.length :=
      Nat.lt_of_not_le fun hle => h (List.take_of_length_le hle)
    refine ⟨List.take_append_of_le_length (Nat.le_of_lt hlt), ?_⟩
    intro hall
    have hlen := congrArg List.length hall
    rw [upTo, List.length_take, List.length_append] at hlen
    omega

/-- The receiver `t` is `s` with further bytes behind those that were written. -/
structure Wrote (s : Sink) (bytes : List UInt8) (t : Sink) : Prop where
  written : t.written.toList = s.written.toList ++ bytes
  limit : t.limit = s.limit
  perWrite : t.perWrite = s.perWrite
  shutdownFailure : t.shutdownFailure = s.shutdownFailure
  closed : t.closed = s.closed

theorem Wrote.refl (s : Sink) : s.Wrote [] s :=
  ⟨(List.append_nil _).symm, rfl, rfl, rfl, rfl⟩

theorem Wrote.trans (h : s.Wrote bytes t) (h' : t.Wrote more u) : s.Wrote (bytes ++ more) u where
  written := by rw [h'.written, h.written, List.append_assoc]
  limit := h'.limit.trans h.limit
  perWrite := h'.perWrite.trans h.perWrite
  shutdownFailure := h'.shutdownFailure.trans h.shutdownFailure
  closed := h'.closed.trans h.closed

theorem Wrote.size (h : s.Wrote bytes t) : t.written.size = s.written.size + bytes.length := by
  rw [← ByteQueue.length_toList, h.written, List.length_append, ByteQueue.length_toList]

/-- What was written takes up room. -/
theorem Wrote.room (h : s.Wrote bytes t) : t.room = s.room.map (· - bytes.length) := by
  unfold Sink.room
  rw [h.limit, h.size, Option.map_map]
  congr 1
  funext limit
  exact Nat.sub_add_eq limit s.written.size bytes.length

/-- One write puts the first bytes behind those that were written, and changes nothing else. -/
theorem wrote_write (h : s.write bytes = .ok (n, t)) : s.Wrote (bytes.take n) t := by
  obtain ⟨hwritten, _⟩ := written_write h
  unfold write at h
  split at h
  · cases h
  · cases h
    exact ⟨hwritten, rfl, rfl, rfl, rfl⟩

/-- A write fails only where there is no room. -/
theorem write_error {f : Failure} (h : s.write bytes = .error f) : s.room = some 0 ∧ f = full := by
  unfold write at h
  split at h
  · cases h
    exact ⟨‹_›, rfl⟩
  · cases h

theorem room_of_write (h : s.write bytes = .ok (n, t)) : s.room ≠ some 0 := by
  intro hroom
  rw [write, if_pos hroom] at h
  cases h

/-- Where there is room, one write takes some bytes that there is room for. -/
theorem write_of_room {b : UInt8} {bs : List UInt8} (hper : s.perWrite ≠ some 0)
    (hroom : s.room ≠ some 0) :
    ∃ k t, s.write (b :: bs) = .ok (k + 1, t) ∧ k + 1 ≤ (b :: bs).length ∧
      upTo s.room ((b :: bs).take (k + 1)) = (b :: bs).take (k + 1) := by
  have hpos : ∀ (most : Option Nat) (l : List UInt8), l ≠ [] → most ≠ some 0 →
      upTo most l ≠ [] := by
    intro most l hl hm
    cases most with
    | none => exact hl
    | some n =>
      intro hnil
      rcases List.take_eq_nil_iff.mp hnil with h0 | h0
      · exact hm (congrArg some h0)
      · exact hl h0
  have htaken := hpos _ _ (hpos _ _ (List.cons_ne_nil b bs) hper) hroom
  obtain ⟨k, hk⟩ := Nat.exists_eq_succ_of_ne_zero (mt List.length_eq_zero_iff.mp htaken)
  have hw : s.write (b :: bs) = .ok (k + 1,
      { s with written := s.written.append (upTo s.room (upTo s.perWrite (b :: bs))) }) := by
    rw [write, if_neg hroom]
    exact congrArg Except.ok (Prod.ext hk rfl)
  have hwritten := (written_write hw).1
  rw [ByteQueue.toList_append, List.append_cancel_left_eq] at hwritten
  refine ⟨k, _, hw, (written_write hw).2, ?_⟩
  rw [← hwritten, upTo_upTo]

/-- One write that is done took some bytes, and there was room for them. -/
theorem of_write {b : UInt8} {bs : List UInt8} (hper : s.perWrite ≠ some 0)
    (hw : s.write (b :: bs) = .ok (n, t)) :
    0 < n ∧ n ≤ (b :: bs).length ∧ upTo s.room ((b :: bs).take n) = (b :: bs).take n ∧
      s.Wrote ((b :: bs).take n) t := by
  obtain ⟨k, t', hw', hle, hfits⟩ := write_of_room hper (room_of_write hw)
  rw [hw] at hw'
  obtain ⟨rfl, rfl⟩ := Prod.mk.inj (Except.ok.inj hw')
  exact ⟨Nat.succ_pos k, hle, hfits, wrote_write hw⟩

/-- **Writing on** puts as many bytes behind the others as there is room for, whatever a single write
    takes; it fails, the receiver being full, if these are not all. -/
theorem writeAll_eq (bytes : List UInt8) (hper : s.perWrite ≠ some 0) :
    s.Wrote (upTo s.room bytes) (s.writeAll bytes).2 ∧
      (s.writeAll bytes).1 = if upTo s.room bytes = bytes then none else some full := by
  fun_induction writeAll s bytes with
  | case1 s =>
    rw [upTo_nil, if_pos rfl]
    exact ⟨.refl s, rfl⟩
  | case2 s b bs f hw =>
    obtain ⟨hroom, rfl⟩ := write_error hw
    rw [hroom, upTo, List.take_zero, if_neg (List.cons_ne_nil b bs).symm]
    exact ⟨.refl s, rfl⟩
  | case3 s b bs t hw =>
    exact absurd (of_write hper hw).1 (Nat.lt_irrefl 0)
  | case4 s b bs k t hw ih =>
    obtain ⟨_, _, hfits, hwrote⟩ := of_write hper hw
    obtain ⟨hlater, hfailure⟩ := ih (by rw [hwrote.perWrite]; exact hper)
    rw [hwrote.room] at hlater hfailure
    have hall : (b :: bs).take (k + 1) ++ bs.drop k = b :: bs :=
      List.take_append_drop (k + 1) (b :: bs)
    refine ⟨?_, ?_⟩
    · rw [← hall, upTo_append_of_eq hfits]
      exact hwrote.trans hlater
    · have hiff := upTo_append_eq_iff hfits (bs.drop k)
      rw [hall] at hiff
      rw [hfailure]
      simp only [hiff]

/-- What writing on has written when it fails. -/
theorem of_writeAll_some {f : Failure} (hper : s.perWrite ≠ some 0)
    (h : s.writeAll bytes = (some f, t)) :
    upTo s.room bytes ≠ bytes ∧ f = full ∧ s.Wrote (upTo s.room bytes) t := by
  obtain ⟨hwrote, hfailure⟩ := writeAll_eq bytes hper
  rw [h] at hwrote hfailure
  split at hfailure
  · cases hfailure
  · rename_i hshort
    cases hfailure
    exact ⟨hshort, rfl, hwrote⟩

/-- What writing on has written when it is done. -/
theorem of_writeAll_none (hper : s.perWrite ≠ some 0) (h : s.writeAll bytes = (none, t)) :
    upTo s.room bytes = bytes ∧ s.Wrote bytes t := by
  obtain ⟨hwrote, hfailure⟩ := writeAll_eq bytes hper
  rw [h] at hwrote hfailure
  split at hfailure
  · rename_i hfits
    rw [hfits] at hwrote
    exact ⟨hfits, hwrote⟩
  · cases hfailure

/-- Room for `n` more bytes, and every write takes some. -/
def Takes (s : Sink) (n : Nat) : Prop :=
  s.perWrite ≠ some 0 ∧ ∀ limit, s.limit = some limit → s.written.size + n ≤ limit

theorem Takes.mono (h : s.Takes n) (hm : m ≤ n) : s.Takes m :=
  ⟨h.1, fun limit hl => Nat.le_trans (Nat.add_le_add_left hm _) (h.2 limit hl)⟩

theorem takes_unlimited (n : Nat) : unlimited.Takes n :=
  ⟨by simp [unlimited, ofLimits], fun limit hl => by cases hl⟩

/-- There is room for what a receiver takes. -/
theorem Takes.upTo_eq (h : s.Takes n) (hn : bytes.length ≤ n) : upTo s.room bytes = bytes := by
  unfold room
  cases hl : s.limit with
  | none => rfl
  | some limit =>
    have hfits := h.2 limit hl
    exact List.take_of_length_le (show bytes.length ≤ limit - s.written.size by omega)

/-- What was written is no longer to be taken. -/
theorem Wrote.takes (h : s.Wrote bytes t) (hs : s.Takes n) (hn : bytes.length ≤ n) :
    t.Takes (n - bytes.length) := by
  refine ⟨h.perWrite ▸ hs.1, ?_⟩
  intro limit hl
  have hfits := hs.2 limit (h.limit ▸ hl)
  have hsize := h.size
  omega

/-- One write puts some bytes behind what is written and changes nothing else. -/
theorem write_of_takes {b : UInt8} {bs : List UInt8} (h : s.Takes n) (hn : (b :: bs).length ≤ n) :
    ∃ k t, s.write (b :: bs) = .ok (k + 1, t) ∧ k + 1 ≤ (b :: bs).length ∧
      s.Wrote ((b :: bs).take (k + 1)) t ∧ t.Takes (n - (k + 1)) := by
  have hroom : s.room ≠ some 0 := by
    intro h0
    have hfits := h.upTo_eq hn
    rw [h0, upTo, List.take_zero] at hfits
    cases hfits
  obtain ⟨k, t, hw, hle, _⟩ := write_of_room h.1 hroom
  have hlen : ((b :: bs).take (k + 1)).length = k + 1 := by
    rw [List.length_take, Nat.min_eq_left hle]
  have htakes := (wrote_write hw).takes h (by omega)
  rw [hlen] at htakes
  exact ⟨k, t, hw, hle, wrote_write hw, htakes⟩

/-- Two receivers that hold the same bytes, have the same room and end alike, whatever a single write
    takes. -/
structure Alike (s t : Sink) : Prop where
  written : s.written.toList = t.written.toList
  limit : s.limit = t.limit
  shutdownFailure : s.shutdownFailure = t.shutdownFailure
  takes_left : s.perWrite ≠ some 0
  takes_right : t.perWrite ≠ some 0

theorem Alike.room (h : s.Alike t) : s.room = t.room := by
  unfold Sink.room
  rw [h.limit, ← ByteQueue.length_toList, h.written, ByteQueue.length_toList]

/-- What is written into both leaves them alike. -/
theorem Alike.wrote {s' t' : Sink} (h : s.Alike t) (hs : s.Wrote bytes s') (ht : t.Wrote bytes t') :
    s'.Alike t' where
  written := by rw [hs.written, ht.written, h.written]
  limit := by rw [hs.limit, ht.limit, h.limit]
  shutdownFailure := by rw [hs.shutdownFailure, ht.shutdownFailure, h.shutdownFailure]
  takes_left := hs.perWrite ▸ h.takes_left
  takes_right := ht.perWrite ▸ h.takes_right

theorem alike_ofLimits {perWrite perWrite' : Option Nat} (limit : Option Nat)
    (shutdownFailure : Option Failure) (h : perWrite ≠ some 0) (h' : perWrite' ≠ some 0) :
    (ofLimits limit perWrite shutdownFailure).Alike (ofLimits limit perWrite' shutdownFailure) :=
  ⟨rfl, rfl, rfl, h, h'⟩

/-- Receivers that are alike end alike. -/
theorem Alike.shutdown (h : s.Alike t) :
    s.shutdown.1 = t.shutdown.1 ∧ s.shutdown.2.Alike t.shutdown.2 := by
  unfold Sink.shutdown
  rw [← h.shutdownFailure]
  cases hs : s.shutdownFailure with
  | some e => exact ⟨rfl, h⟩
  | none => exact ⟨rfl, h.written, h.limit, rfl, h.takes_left, h.takes_right⟩

end Sink

end Sluice.Wire
