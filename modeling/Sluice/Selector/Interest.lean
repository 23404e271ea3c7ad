/-
  File:      Sluice/Selector/Interest.lean
  Subject:   The kinds of readiness an operation waits for, and sets of them.

  * `Interest`: reading, writing, accepting, connecting;
  * `InterestSet`: a set of them; `contains_insert`, `contains_erase` and `contains_eraseAll` say
    what each operation does to membership, and `InterestSet.ext_contains` that nothing else counts;
  * `InterestSet.mask`: the set as a bit mask;
  * `InterestSet.directions`: which directions of a descriptor a set asks the poller to watch.
-/
namespace Sluice.Selector

/-- What an operation waits for. -/
inductive Interest where
  | read
  | write
  | accept
  | connect
  deriving DecidableEq, Repr

namespace Interest

/-- All kinds, in the order they are listed. -/
def all : List Interest := [.read, .write, .accept, .connect]

/-- The name of a kind. -/
def name : Interest → String
  | .read => "Read"
  | .write => "Write"
  | .accept => "Accept"
  | .connect => "Connect"

/-- The bit of a kind. -/
def flag : Interest → Nat
  | .read => 1
  | .write => 2
  | .accept => 4
  | .connect => 8

theorem mem_all (i : Interest) : i ∈ all := by cases i <;> decide

end Interest

/-- A set of kinds. -/
structure InterestSet where
  read : Bool
  write : Bool
  accept : Bool
  connect : Bool
  deriving DecidableEq, Repr

namespace InterestSet

/-- No kind. -/
def empty : InterestSet := ⟨false, false, false, false⟩

/-- The kind is in the set. -/
def contains (s : InterestSet) : Interest → Bool
  | .read => s.read
  | .write => s.write
  | .accept => s.accept
  | .connect => s.connect

/-- The set with a kind in it, or not. -/
def put (s : InterestSet) (present : Bool) : Interest → InterestSet
  | .read => { s with read := present }
  | .write => { s with write := present }
  | .accept => { s with accept := present }
  | .connect => { s with connect := present }

/-- The set with one kind more. -/
def insert (s : InterestSet) (i : Interest) : InterestSet := s.put true i

/-- The set without a kind. -/
def erase (s : InterestSet) (i : Interest) : InterestSet := s.put false i

/-- A single kind. -/
def only (i : Interest) : InterestSet := empty.insert i

/-- The set without the kinds of another. -/
def eraseAll (s t : InterestSet) : InterestSet :=
  ⟨s.read && !t.read, s.write && !t.write, s.accept && !t.accept, s.connect && !t.connect⟩

/-- The kinds that are in both sets. -/
def inter (s t : InterestSet) : InterestSet :=
  ⟨s.read && t.read, s.write && t.write, s.accept && t.accept, s.connect && t.connect⟩

/-- The kinds that are in either set. -/
def union (s t : InterestSet) : InterestSet :=
  ⟨s.read || t.read, s.write || t.write, s.accept || t.accept, s.connect || t.connect⟩

/-- What a descriptor is ready for: reading and accepting when it can be read, writing and
    connecting when it can be written. -/
def ofDirections (readable writable : Bool) : InterestSet := ⟨readable, writable, readable, writable⟩

/-- The set has no kind in it. -/
def isEmpty (s : InterestSet) : Bool := !(s.read || s.write || s.accept || s.connect)

/-- The set of the listed kinds. -/
def ofList (is : List Interest) : InterestSet := is.foldl insert empty

/-- The kinds in the set, in the order of `Interest.all`. -/
def toList (s : InterestSet) : List Interest := Interest.all.filter s.contains

/-- The set as a bit mask. -/
def mask (s : InterestSet) : Nat := s.toList.foldl (fun m i => m ||| i.flag) 0

/-- The set for diagnostics. -/
def summary (s : InterestSet) : String := s!"InterestSet({s.mask})"

/-- The directions a descriptor is watched in, reading and writing: for reading if anything waits
    to read or to accept, for writing if anything waits to write or to connect. Nothing, if nothing
    waits. -/
def directions (s : InterestSet) : Option (Bool × Bool) :=
  if s.isEmpty then none else some (s.read || s.accept, s.write || s.connect)

/-! ## Membership -/

@[simp] theorem contains_empty (j : Interest) : empty.contains j = false := by cases j <;> rfl

@[simp] theorem contains_insert (s : InterestSet) (i j : Interest) :
    (s.insert i).contains j = (decide (j = i) || s.contains j) := by
  cases i <;> cases j <;> simp [insert, put, contains]

@[simp] theorem contains_erase (s : InterestSet) (i j : Interest) :
    (s.erase i).contains j = (decide (j ≠ i) && s.contains j) := by
  cases i <;> cases j <;> simp [erase, put, contains]

@[simp] theorem contains_eraseAll (s t : InterestSet) (j : Interest) :
    (s.eraseAll t).contains j = (s.contains j && !t.contains j) := by
  cases j <;> rfl

@[simp] theorem contains_inter (s t : InterestSet) (j : Interest) :
    (s.inter t).contains j = (s.contains j && t.contains j) := by
  cases j <;> rfl

@[simp] theorem contains_union (s t : InterestSet) (j : Interest) :
    (s.union t).contains j = (s.contains j || t.contains j) := by
  cases j <;> rfl

/-- A set is what it contains. -/
theorem ext_contains {s t : InterestSet} (h : ∀ j, s.contains j = t.contains j) : s = t := by
  have hr := h .read
  have hw := h .write
  have ha := h .accept
  have hc := h .connect
  cases s
  cases t
  simp_all [contains]

end InterestSet

end Sluice.Selector
