/-
  File:      Sluice/Wire/Source.lean
  Subject:   A byte stream that arrives in segments.

  * `Source`: the segments still unread, none of them empty, and what comes after them;
  * `available`, `consume`: what can be read without waiting, and reading some of it;
  * `bytes`: the view, all unread bytes; `size` is their number, and `size_consume_lt` says that
    reading makes it smaller.
-/
import Sluice.Wire.Failure

namespace Sluice.Wire

/-- What is unread of a byte stream, in the segments it arrives in. Behind the last one the input
    ends, or reading fails. -/
@[ext] structure Source where
  segments : List (List UInt8)
  failure : Option Failure
  segments_ne : ∀ s ∈ segments, s ≠ []

namespace Source

/-- A stream of the given segments, of which the empty ones do not count. -/
def ofSegments (segments : List (List UInt8)) (failure : Option Failure) : Source where
  segments := segments.filter (!·.isEmpty)
  failure := failure
  segments_ne := by simp

/-- The unread bytes. -/
def bytes (s : Source) : List UInt8 := s.segments.flatten

/-- The number of unread bytes. -/
def size (s : Source) : Nat := s.bytes.length

/-- The bytes that can be read now: what is left of the first segment. No bytes at all mean the
    end of the input. -/
def available (s : Source) : Except Failure (List UInt8) :=
  match s.segments with
  | segment :: _ => .ok segment
  | [] =>
    match s.failure with
    | some f => .error f
    | none => .ok []

/-- Reads `n` bytes of the first segment. -/
def consume (s : Source) (n : Nat) : Source :=
  match h : s.segments with
  | [] => s
  | segment :: later =>
    if hd : segment.drop n = [] then
      { s with
        segments := later
        segments_ne := fun t ht => s.segments_ne t (by rw [h]; exact List.mem_cons_of_mem _ ht) }
    else
      { s with
        segments := segment.drop n :: later
        segments_ne := by
          intro t ht
          rcases List.mem_cons.mp ht with rfl | ht
          · exact hd
          · exact s.segments_ne t (by rw [h]; exact List.mem_cons_of_mem _ ht) }

theorem segments_consume (s : Source) (n : Nat) :
    (s.consume n).segments =
      match s.segments with
      | [] => []
      | segment :: later =>
        if segment.drop n = [] then later else segment.drop n :: later := by
  obtain ⟨segments, failure, ne⟩ := s
  cases segments with
  | nil => rfl
  | cons segment later =>
    by_cases h : segment.drop n = [] <;> simp only [consume, h, dite_true, dite_false, if_true,
      if_false]

@[simp] theorem failure_consume (s : Source) (n : Nat) : (s.consume n).failure = s.failure := by
  obtain ⟨segments, failure, ne⟩ := s
  cases segments with
  | nil => rfl
  | cons segment later =>
    by_cases h : segment.drop n = [] <;> simp only [consume, h, dite_true, dite_false]

/-- What was not read is unread. -/
theorem size_consume_le (s : Source) (n : Nat) : (s.consume n).size ≤ s.size := by
  unfold size bytes
  rw [segments_consume]
  cases s.segments with
  | nil => simp
  | cons segment later =>
    dsimp only
    split <;> simp

/-- **Reading makes the stream shorter**, whenever there was something to read. -/
theorem size_consume_lt {s : Source} {b : UInt8} {bs : List UInt8} {n : Nat}
    (ha : s.available = .ok (b :: bs)) (hn : 0 < n) : (s.consume n).size < s.size := by
  unfold available at ha
  cases hs : s.segments with
  | nil =>
    rw [hs] at ha
    cases hf : s.failure <;> simp [hf] at ha
  | cons segment later =>
    rw [hs] at ha
    have hseg : segment = b :: bs := by simpa using ha
    unfold consume
    split
    · rename_i h; rw [hs] at h; cases h
    · rename_i segment' later' h
      rw [hs] at h
      obtain ⟨rfl, rfl⟩ := List.cons.inj h
      have hlen : 0 < segment.length := by rw [hseg]; simp
      split <;> simp [size, bytes, hs] <;> omega

end Source

end Sluice.Wire
