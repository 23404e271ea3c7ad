/-
  File:      Sluice/Pool/Policy.lean
  Subject:   What a pool does with its instances: how one is made, reset and recognised.

  * `Policy`: making, clearing, validating;
  * `Chunk`: a run of elements with the room reserved for it, which grows with them; `Policy.chunks`
    keeps those with room enough;
  * `Policy.zeros`: arrays of one length, filled with zero;
  * `Policy.marked`: instances with an identity, which nothing clears.
-/
import Sluice.Text.Fold

namespace Sluice.Pool

/-- The life of pooled instances: the `n`-th one made, one made ready for the next borrower, and
    the test that an instance has the shape this pool hands out. -/
structure Policy (α : Type) where
  produce : Nat → α
  clear : α → α
  validate : α → Bool

/-- Elements, and how many of them there is room for. -/
structure Chunk (ε : Type) where
  elements : List ε
  capacity : Nat
  deriving DecidableEq, Repr

namespace Chunk

variable {ε : Type}

/-- No elements, with room for `n`. -/
def withCapacity (n : Nat) : Chunk ε := ⟨[], n⟩

/-- The room after growing: what is needed, at least twice what there was, and never less than
    `least`. -/
def grown (least capacity needed : Nat) : Nat := max least (max (2 * capacity) needed)

/-- Bytes behind the others. The room for all of them is made at once, for eight bytes or more. -/
def appendBytes (c : Chunk UInt8) (bytes : List UInt8) : Chunk UInt8 :=
  let needed := c.elements.length + bytes.length
  ⟨c.elements ++ bytes, if needed ≤ c.capacity then c.capacity else grown 8 c.capacity needed⟩

/-- The fewest characters that texts of the encoded length of this one have. -/
def fewest (t : Text) : Nat := (t.foldl (fun n c => n + c.utf8Size) 0 + 3) / 4

/-- The room once a text stands behind `length` characters, one character after the other. One that
    finds no room makes it for itself and for the fewest that are to follow, for four or more. -/
def roomFor (length capacity : Nat) : Text → Nat
  | [] => capacity
  | _ :: cs =>
    roomFor (length + 1)
      (if length < capacity then capacity else grown 4 capacity (length + 1 + fewest cs)) cs

/-- Characters behind the others. -/
def appendText (c : Chunk Char) (t : Text) : Chunk Char :=
  ⟨c.elements ++ t, roomFor c.elements.length c.capacity t⟩

end Chunk

/-- Chunks with room for `size` elements, handed out empty. -/
def Policy.chunks {ε : Type} (size : Nat) : Policy (Chunk ε) where
  produce _ := .withCapacity size
  clear c := { c with elements := [] }
  validate c := size ≤ c.capacity

/-- Arrays of `size` words, handed out filled with zero. -/
def Policy.zeros (size : Nat) : Policy (List UInt32) where
  produce _ := List.replicate size 0
  clear a := List.replicate a.length 0
  validate a := a.length == size

/-- An instance that is told apart by its number, with a mark its borrowers may change. -/
structure Marked where
  id : Nat
  mark : List Char
  deriving DecidableEq, Repr

/-- Numbered instances: any instance is taken back, and nothing is cleared. -/
def Policy.marked : Policy Marked where
  produce n := ⟨n, []⟩
  clear m := m
  validate _ := true

end Sluice.Pool
