/-
  File:      Sluice/Wire/ByteQueue.lean
  Subject:   Bytes that go in at one end and come out at the other.

  * `ByteQueue`: the bytes that come out first, in order, and those that went in since, the latest
    first;
  * `toList`: the view, all bytes in order; `size` is their number;
  * `append`, `split`: putting in and taking out. Both take as long as the bytes they move, a byte
    being moved from one half to the other once.
-/
namespace Sluice.Wire

/-- Bytes in order, in two halves whose lengths are known. -/
structure ByteQueue where
  front : List UInt8
  frontSize : Nat
  back : List UInt8
  backSize : Nat
  frontSize_eq : frontSize = front.length
  backSize_eq : backSize = back.length
  deriving Repr

namespace ByteQueue

/-- All bytes, the first one first. -/
def toList (q : ByteQueue) : List UInt8 := q.front ++ q.back.reverse

/-- How many bytes there are. -/
def size (q : ByteQueue) : Nat := q.frontSize + q.backSize

/-- No bytes. -/
def empty : ByteQueue := ⟨[], 0, [], 0, rfl, rfl⟩

/-- The bytes behind the others. -/
def append (q : ByteQueue) (bytes : List UInt8) : ByteQueue where
  front := q.front
  frontSize := q.frontSize
  back := bytes.reverseAux q.back
  backSize := bytes.length + q.backSize
  frontSize_eq := q.frontSize_eq
  backSize_eq := by simp [List.reverseAux_eq, q.backSize_eq]

/-- The first `n` bytes, or all if there are fewer, and the rest. The halves are joined only where
    the first one does not reach. -/
def split (q : ByteQueue) (n : Nat) : List UInt8 × ByteQueue :=
  if n ≤ q.frontSize then
    (q.front.take n,
      { q with
        front := q.front.drop n
        frontSize := q.frontSize - n
        frontSize_eq := by simp [q.frontSize_eq] })
  else
    let all := q.toList
    (all.take n,
      { front := all.drop n
        frontSize := q.size - n
        back := []
        backSize := 0
        frontSize_eq := by simp [all, toList, size, q.frontSize_eq, q.backSize_eq]
        backSize_eq := rfl })

@[simp] theorem toList_empty : empty.toList = [] := rfl

/-- The size is the length of the view. -/
@[simp] theorem length_toList (q : ByteQueue) : q.toList.length = q.size := by
  simp [toList, size, q.frontSize_eq, q.backSize_eq]

@[simp] theorem toList_append (q : ByteQueue) (bytes : List UInt8) :
    (q.append bytes).toList = q.toList ++ bytes := by
  simp [toList, append, List.reverseAux_eq]

@[simp] theorem size_append (q : ByteQueue) (bytes : List UInt8) :
    (q.append bytes).size = q.size + bytes.length := by
  rw [← length_toList, toList_append, List.length_append, length_toList]

/-- **Splitting** takes the first bytes off, and keeps the others in order. -/
theorem split_eq (q : ByteQueue) (n : Nat) :
    (q.split n).1 = q.toList.take n ∧ (q.split n).2.toList = q.toList.drop n := by
  unfold split
  split
  · rename_i h
    rw [q.frontSize_eq] at h
    refine ⟨?_, ?_⟩
    · rw [toList, List.take_append_of_le_length h]
    · rw [toList, toList, List.drop_append_of_le_length h]
  · exact ⟨rfl, by simp [toList]⟩

end ByteQueue

end Sluice.Wire
