/-
  File:      Sluice/Pool/Table.lean
  Subject:   The slot table: where idle instances lie, and the chain that makes a stack of them.

  * `Placed`: an instance at its address;
  * `Table`: slots, the chain through them, and the packed top;
  * `tryPush`: an instance into one of the slots its address allows, on top of the chain;
  * `tryPop`: the instance on top of the chain;
  * `chain`, `idle`: the view, the slots from the top down and what lies in them.
-/
import Sluice.Pool.Geometry

namespace Sluice.Pool

/-- An instance and the address it lives at. -/
structure Placed (α : Type) where
  address : UInt64
  value : α
  deriving DecidableEq, Repr

/-- A slot table. Slot 0 is never used; `next i` is the slot under slot `i` in the chain. -/
structure Table (α : Type) where
  geometry : Geometry
  top : UInt64
  slots : Nat → Option (Placed α)
  next : Nat → Nat

/-- A function changed at one argument. -/
def setAt {β : Type} (f : Nat → β) (i : Nat) (b : β) : Nat → β := fun j => if j = i then b else f j

@[simp] theorem setAt_same {β : Type} (f : Nat → β) (i : Nat) (b : β) : setAt f i b i = b := by
  simp [setAt]

theorem setAt_ne {β : Type} (f : Nat → β) {i j : Nat} (b : β) (h : j ≠ i) : setAt f i b j = f j := by
  simp [setAt, h]

namespace Table

variable {α : Type}

/-- The table with nothing in it. -/
def empty (g : Geometry) : Table α := ⟨g, 0, fun _ => none, fun _ => 0⟩

/-! ## 1. The chain -/

/-- Slot `i` becomes the top of the chain. -/
def pushTop (t : Table α) (i : Nat) : Table α :=
  { t with next := setAt t.next i (Top.slot t.top), top := Top.pack (Top.nextVersion t.top) i }

/-- The top of the chain comes off; nothing if the chain is empty. -/
def popTop (t : Table α) : Option (Nat × Table α) :=
  if t.top = 0 then none
  else
    let i := Top.slot t.top
    if i = 0 then none
    else some (i, { t with top := Top.pack (Top.nextVersion t.top) (t.next i) })

/-- The chain is apart from what lies in the slots. -/
theorem slots_popTop {t u : Table α} {i : Nat} (h : t.popTop = some (i, u)) : u.slots = t.slots := by
  unfold popTop at h
  split at h
  · cases h
  · dsimp only at h
    split at h <;> cases h
    rfl

/-! ## 2. Instances -/

/-- The first free slot among the next `n` ones from `i` downwards. -/
def freeSlot? (t : Table α) : Nat → Nat → Option Nat
  | 0, _ => none
  | n + 1, i => if (t.slots i).isNone then some i else t.freeSlot? n (t.geometry.below i)

/-- Keeps an instance, if one of the slots tried for its address is free. -/
def tryPush (t : Table α) (a : Placed α) : Option (Table α) :=
  match t.freeSlot? attempts (t.geometry.slotOf a.address) with
  | none => none
  | some i => some ({ t with slots := setAt t.slots i (some a) }.pushTop i)

/-- Takes the instance on top of the chain out of its slot. -/
def tryPop (t : Table α) : Option (Placed α) × Table α :=
  match t.popTop with
  | none => (none, t)
  | some (i, t) => (t.slots i, { t with slots := setAt t.slots i none })

/-! ## 3. The view -/

/-- The slots of the chain from `i` down, at most `n` of them. -/
def chainFrom (t : Table α) : Nat → Nat → List Nat
  | 0, _ => []
  | n + 1, i => if i = 0 then [] else i :: t.chainFrom n (t.next i)

/-- The slots of the chain from the top down. -/
def chain (t : Table α) : List Nat := t.chainFrom t.geometry.maxIndex (Top.slot t.top)

/-- The idle instances, the one that is borrowed next coming first. -/
def idle (t : Table α) : List (Placed α) := t.chain.filterMap t.slots

end Table

end Sluice.Pool
