/-
  File:      Sluice/Proofs/Pool/Erasure.lean
  Subject:   What becomes of instances does not depend on what their borrowers left in them.

  The values in a ledger may be replaced by something coarser, as long as a policy for these does the
  same with them.

  * `Policy.Erases`: a policy for coarser values;
  * `Table.map`, `Pool.map`, `Ledger.map`: the same state with the values replaced;
  * `map_tryPush`, `map_tryPop`, `map_recycle`, `map_dispose`, `map_step`: no operation looks at more;
  * **`map_run`**: neither does a sequence of uses.
-/
import Sluice.Proofs.Pool.Ledger

namespace Sluice.Pool

variable {α β : Type} {f : α → β} {policy : Policy α} {policy' : Policy β}

/-- A policy for coarser values, which does with them what another one does. -/
structure Policy.Erases (f : α → β) (policy : Policy α) (policy' : Policy β) : Prop where
  produce : ∀ n, f (policy.produce n) = policy'.produce n
  clear : ∀ a, f (policy.clear a) = policy'.clear (f a)
  validate : ∀ a, policy.validate a = policy'.validate (f a)

/-- Another value in the same place. -/
def Placed.map (f : α → β) (a : Placed α) : Placed β := ⟨a.address, f a.value⟩

/-- Another value with the same origin. -/
def Traced.map (f : α → β) (a : Traced α) : Traced β := ⟨a.origin, a.kept, f a.value⟩

/-- A use with another value in the instance that is given back. -/
def Use.map (f : α → β) : Use α → Use β
  | .borrow => .borrow
  | .recycle k value => .recycle k (f value)
  | .bring value => .bring (f value)
  | .dispose => .dispose

theorem erases_traced (h : policy.Erases f policy') :
    policy.traced.Erases (Traced.map f) policy'.traced where
  produce n := congrArg (Traced.mk _ _) (h.produce n)
  clear a := congrArg (Traced.mk _ _) (h.clear a.value)
  validate a := h.validate a.value

/-! ## 1. Tables -/

namespace Table

/-- A table with the values replaced. -/
def map (f : α → β) (t : Table α) : Table β :=
  ⟨t.geometry, t.top, fun i => (t.slots i).map (Placed.map f), t.next⟩

variable {t : Table α} {a : Placed α}

/-- Something else in one slot. -/
theorem map_put (t : Table α) (i : Nat) (b : Option (Placed α)) :
    ({ t with slots := setAt t.slots i b } : Table α).map f =
      { t.map f with slots := setAt (t.map f).slots i (b.map (Placed.map f)) } := by
  have hslots : (fun j => (setAt t.slots i b j).map (Placed.map f)) =
      setAt (t.map f).slots i (b.map (Placed.map f)) := by
    funext j
    by_cases hj : j = i
    · rw [hj, setAt_same, setAt_same]
    · rw [setAt_ne _ _ hj, setAt_ne _ _ hj]
      rfl
  rw [map, hslots]
  rfl

theorem map_freeSlot? (n i : Nat) : (t.map f).freeSlot? n i = t.freeSlot? n i := by
  induction n generalizing i with
  | zero => rfl
  | succ n ih =>
    rw [freeSlot?, freeSlot?, ih, map, Option.isNone_map]

theorem map_tryPush : (t.map f).tryPush (a.map f) = (t.tryPush a).map (map f) := by
  have hfree : (t.map f).freeSlot? attempts ((t.map f).geometry.slotOf (a.map f).address) =
      t.freeSlot? attempts (t.geometry.slotOf a.address) := map_freeSlot? ..
  unfold tryPush
  rw [hfree]
  cases t.freeSlot? attempts (t.geometry.slotOf a.address) with
  | none => rfl
  | some i => exact congrArg (fun u => some (u.pushTop i)) (map_put t i (some a)).symm

theorem map_popTop : (t.map f).popTop = t.popTop.map fun p => (p.1, p.2.map f) := by
  rw [popTop_eq, popTop_eq]
  show (if Top.slot t.top = 0 then _ else _) = _
  split <;> rfl

theorem map_tryPop :
    (t.map f).tryPop = (t.tryPop.1.map (Placed.map f), t.tryPop.2.map f) := by
  unfold tryPop
  rw [map_popTop]
  cases t.popTop with
  | none => rfl
  | some p => exact congrArg (_, ·) (map_put p.2 p.1 none).symm

/-- What comes out of a table, with the values replaced. -/
theorem map_drain (n : Nat) : (t.map f).drain n = (t.drain n).map (Placed.map f) := by
  induction n generalizing t with
  | zero => rfl
  | succ n ih =>
    rw [drain, drain, map_tryPop]
    rcases t.tryPop with ⟨_ | a, u⟩
    · rfl
    · exact congrArg (a.map f :: ·) ih

end Table

/-! ## 2. Pools -/

/-- A pool with the values replaced, and a policy for these. -/
def map (f : α → β) (policy' : Policy β) (p : Pool α) : Pool β :=
  ⟨policy', p.table.map f, p.tally⟩

section Pool

variable {p : Pool α}

theorem map_borrow (h : p.policy.Erases f policy') (address : UInt64) :
    (p.map f policy').borrow address =
      ((p.borrow address).1.map f, (p.borrow address).2.map f policy') := by
  unfold borrow
  simp only [map, Table.map_tryPop]
  rcases p.table.tryPop with ⟨_ | a, t⟩
  · simp only [Option.map_none, Placed.map, h.produce]
  · simp only [Option.map_some, Placed.map, h.clear]

theorem map_recycle (h : p.policy.Erases f policy') (a : Placed α) :
    (p.map f policy').recycle (a.map f) = (p.recycle a).map f policy' := by
  have hvalid : policy'.validate (a.map f).value = p.policy.validate a.value :=
    (h.validate a.value).symm
  unfold recycle
  simp only [map, hvalid, Table.map_tryPush]
  split
  · cases p.table.tryPush a <;> rfl
  · rfl

theorem map_disposeFrom (n : Nat) :
    (p.map f policy').disposeFrom n = (p.disposeFrom n).map f policy' := by
  induction n generalizing p with
  | zero => rfl
  | succ n ih =>
    rw [disposeFrom, disposeFrom, map, Table.map_tryPop]
    rcases p.table.tryPop with ⟨_ | a, t⟩
    · rfl
    · exact ih (p := ({ p with table := t } : Pool α).destroy)

end Pool

/-! ## 3. Ledgers -/

namespace Ledger

/-- A ledger with the values replaced, and a policy for these. -/
def map (f : α → β) (policy' : Policy β) (l : Ledger α) : Ledger β :=
  ⟨l.pool.map (Traced.map f) policy'.traced, l.borrowed.map (Placed.map (Traced.map f)), l.brought,
    l.destroyed, l.time⟩

variable {g : Geometry} {place : Origin → UInt64} {l : Ledger α}

theorem origins_map (a : List (Placed (Traced α))) :
    origins (a.map (Placed.map (Traced.map f))) = origins a := by
  rw [origins, origins, List.map_map]
  rfl

theorem map_give (h : policy.Erases f policy') (hpolicy : l.pool.policy = policy.traced) (k : Nat)
    (value : α) : (l.map f policy').give k (f value) = (l.give k value).map f policy' := by
  have herases : l.pool.policy.Erases (Traced.map f) policy'.traced :=
    hpolicy ▸ erases_traced h
  unfold give
  rw [map, List.getElem?_map]
  cases l.borrowed[k]? with
  | none => rfl
  | some a =>
    have hrecycle := Pool.map_recycle herases ⟨a.address, ⟨a.value.origin, l.time, value⟩⟩
    simp only [Placed.map, Traced.map] at hrecycle
    simp only [Option.map_some, Placed.map, Traced.map, hrecycle, List.eraseIdx_map]
    rfl

theorem map_step (h : policy.Erases f policy') (hpolicy : l.pool.policy = policy.traced)
    (u : Use α) : (l.map f policy').step place (u.map f) = (l.step place u).map f policy' := by
  have herases : l.pool.policy.Erases (Traced.map f) policy'.traced :=
    hpolicy ▸ erases_traced h
  cases u with
  | borrow =>
    have hborrow : (l.pool.map (Traced.map f) policy'.traced).borrow
        (place (.made ((l.pool.map (Traced.map f) policy'.traced).tally.produced + 1))) = _ :=
      Pool.map_borrow herases (place (.made (l.pool.tally.produced + 1)))
    simp only [step, use, Use.map, map, hborrow]
    rfl
  | recycle k value =>
    exact map_give (l := { l with time := l.time + 1 }) h hpolicy k value
  | bring value =>
    exact map_give (l := ({ l with time := l.time + 1 } : Ledger α).enter place value) h hpolicy 0
      value
  | dispose =>
    have hdispose : (l.pool.map (Traced.map f) policy'.traced).dispose = _ :=
      Pool.map_disposeFrom l.pool.table.geometry.maxIndex
    have hdrain : (l.pool.table.map (Traced.map f)).drain
        (l.pool.table.map (Traced.map f)).geometry.maxIndex = _ :=
      Table.map_drain l.pool.table.geometry.maxIndex
    simp only [step, use, Use.map, map, hdispose]
    simp only [Pool.map, hdrain, origins_map]
    rfl

/-- **What becomes of instances does not depend on more** than the coarser values show. -/
theorem map_run (h : policy.Erases f policy') (hsound : l.Sound policy g place)
    (uses : List (Use α)) :
    (l.map f policy').run place (uses.map (Use.map f)) = (l.run place uses).map f policy' := by
  induction uses generalizing l with
  | nil => rfl
  | cons u uses ih =>
    show ((l.map f policy').step place (u.map f)).run place (uses.map (Use.map f)) = _
    rw [map_step h hsound.policy_eq]
    exact ih (sound_step hsound u)

end Ledger

end Sluice.Pool
