/-
  File:      Sluice/Pool/Basic.lean
  Subject:   A pool: a slot table under a policy, with an account of what became of instances.

  * `Pool`, `Pool.ofCapacity`: the pool of a capacity and a policy;
  * `borrow`: the most recently kept instance, cleared, or a new one;
  * `recycle`: an instance kept, if its shape is right and a slot is free, and destroyed if not;
  * `dispose`: every idle instance destroyed;
  * `Tally`: how many instances were produced, cleared and destroyed;
  * `Valid`: what is idle has the shape of the policy, so what is borrowed has it, too.
-/
import Sluice.Pool.Policy
import Sluice.Pool.Table

namespace Sluice

namespace Pool

/-- What a pool did so far. -/
structure Tally where
  produced : Nat
  cleared : Nat
  destroyed : Nat
  deriving DecidableEq, Repr

end Pool

/-- A pool of instances of `α`. -/
structure Pool (α : Type) where
  policy : Pool.Policy α
  table : Pool.Table α
  tally : Pool.Tally

namespace Pool

variable {α : Type}

/-- An empty pool, if the capacity allows one. -/
def ofCapacity (capacity : Nat) (policy : Policy α) : Except PoolError (Pool α) :=
  (Geometry.ofCapacity capacity).map fun g => ⟨policy, .empty g, ⟨0, 0, 0⟩⟩

/-- The number of instances the pool is meant to keep. -/
def capacity (p : Pool α) : Nat := p.table.geometry.capacity

/-- The pool for diagnostics. -/
def summary (p : Pool α) : String :=
  s!"LockFreePool \x7b capacity: {p.capacity}, slots: {p.table.geometry.maxIndex}, .. \x7d"

/-- An instance for the caller: the top of the idle ones, cleared, or a new one, which is placed
    at `address`. -/
def borrow (p : Pool α) (address : UInt64) : Placed α × Pool α :=
  match p.table.tryPop with
  | (some a, t) =>
    (⟨a.address, p.policy.clear a.value⟩,
      { p with table := t, tally := { p.tally with cleared := p.tally.cleared + 1 } })
  | (none, t) =>
    let n := p.tally.produced + 1
    (⟨address, p.policy.produce n⟩,
      { p with table := t, tally := { p.tally with produced := n } })

/-- An instance that is not kept. -/
def destroy (p : Pool α) : Pool α :=
  { p with tally := { p.tally with destroyed := p.tally.destroyed + 1 } }

/-- Takes an instance back: kept if it has the right shape and finds a free slot. -/
def recycle (p : Pool α) (a : Placed α) : Pool α :=
  if p.policy.validate a.value then
    match p.table.tryPush a with
    | some t => { p with table := t }
    | none => p.destroy
  else p.destroy

/-- Destroys up to `n` idle instances, from the top of the chain on. -/
def disposeFrom (p : Pool α) : Nat → Pool α
  | 0 => p
  | n + 1 =>
    match p.table.tryPop with
    | (none, t) => { p with table := t }
    | (some _, t) => ({ p with table := t }.destroy).disposeFrom n

/-- Destroys every idle instance. A table holds at most one instance a slot, which bounds the
    number of steps. -/
def dispose (p : Pool α) : Pool α := p.disposeFrom p.table.geometry.maxIndex

/-- The idle instances, the next one to be borrowed first. -/
def idle (p : Pool α) : List (Placed α) := p.table.idle

/-- Every idle instance has the shape of the policy. -/
def Valid (p : Pool α) : Prop :=
  ∀ i a, p.table.slots i = some a → p.policy.validate a.value = true

/-- An empty pool has the policy it was made for, and nothing idle. -/
theorem valid_ofCapacity {capacity : Nat} {policy : Policy α} {p : Pool α}
    (h : ofCapacity capacity policy = .ok p) : p.policy = policy ∧ p.Valid := by
  unfold ofCapacity at h
  cases hg : Geometry.ofCapacity capacity with
  | error e => rw [hg] at h; cases h
  | ok g =>
    rw [hg] at h
    cases h
    exact ⟨rfl, fun i a ha => by cases ha⟩

/-- **What is borrowed has the shape of the policy**, if making and clearing give that shape. -/
theorem validate_borrow {p : Pool α} (hp : p.Valid)
    (hproduce : ∀ n, p.policy.validate (p.policy.produce n) = true)
    (hclear : ∀ a, p.policy.validate a = true → p.policy.validate (p.policy.clear a) = true)
    (address : UInt64) : p.policy.validate (p.borrow address).1.value = true := by
  unfold borrow
  split
  · rename_i a t hpop
    apply hclear
    unfold Table.tryPop at hpop
    split at hpop
    · cases hpop
    · rename_i i t' ht
      obtain ⟨hslot, _⟩ := Prod.mk.inj hpop
      rw [Table.slots_popTop ht] at hslot
      exact hp i a hslot
  · exact hproduce _

end Pool

end Sluice
