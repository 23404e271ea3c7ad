/-
  File:      Sluice/Proofs/Pool/Idle.lean
  Subject:   A pool is a stack of idle instances, with as much room as its table has slots.

  * `sound_ofCapacity`: a new pool has nothing idle, and four slots or more for each instance;
  * **`borrow_cases`**: the topmost idle instance, cleared, or a new one where nothing is idle;
  * `Takes`, **`recycle_cases`**: an instance on top of the idle ones, or destroyed;
  * `dispose_eq`: the idle instances are destroyed, each of them once.
-/
import Sluice.Pool.Basic
import Sluice.Proofs.Pool.Chain

namespace Sluice.Pool

variable {α : Type} {p : Pool α} {policy : Policy α} {capacity n : Nat}

@[simp] theorem idle_mk (policy : Policy α) (t : Table α) (tally : Tally) :
    (⟨policy, t, tally⟩ : Pool α).idle = t.idle := rfl

/-- **A new pool.** Nothing is idle, and the table is made for the capacity. -/
theorem sound_ofCapacity (h : ofCapacity capacity policy = .ok p) :
    (p.table.Sound ∧ p.policy = policy ∧ p.tally = ⟨0, 0, 0⟩ ∧ p.idle = []) ∧
      p.capacity = capacity ∧ 4 * capacity ≤ p.table.geometry.maxIndex ∧
      p.table.geometry.maxIndex < 8 * capacity := by
  unfold ofCapacity at h
  cases hg : Geometry.ofCapacity capacity with
  | error e =>
    rw [hg] at h
    cases h
  | ok g =>
    rw [hg] at h
    cases h
    obtain ⟨⟨k, hsized⟩, hcapacity, hlow, hhigh⟩ := Geometry.sized_ofCapacity hg
    obtain ⟨hsound, hidle⟩ := Table.sound_empty hsized
    exact ⟨⟨hsound, rfl, rfl, hidle⟩, hcapacity, hlow, hhigh⟩

/-! ## 1. Borrowing -/

/-- **What a borrower gets**: the topmost idle instance, cleared, and a new one only where nothing
    is idle. -/
theorem borrow_cases (h : p.table.Sound) (address : UInt64) :
    (p.idle = [] ∧ p.borrow address = (⟨address, p.policy.produce (p.tally.produced + 1)⟩,
        { p with tally := { p.tally with produced := p.tally.produced + 1 } })) ∨
      ∃ a t, p.idle = a :: t.idle ∧ t.Sound ∧ t.geometry = p.table.geometry ∧
        p.borrow address = (⟨a.address, p.policy.clear a.value⟩,
          { p with table := t, tally := { p.tally with cleared := p.tally.cleared + 1 } }) := by
  unfold borrow
  rcases Table.tryPop_cases h with ⟨hp, hidle⟩ | ⟨a, t, hp, hsound, hgeometry, hidle⟩
  · exact .inl ⟨hidle, by rw [hp]⟩
  · exact .inr ⟨a, t, hidle, hsound, hgeometry, by rw [hp]⟩

/-! ## 2. Recycling -/

/-- A pool takes an instance: it has the right shape, and a slot that is tried for it is free. -/
def Takes (p : Pool α) (a : Placed α) : Prop :=
  p.policy.validate a.value = true ∧
    (p.table.freeSlot? attempts (p.table.geometry.slotOf a.address)).isSome = true

/-- **What becomes of an instance given back**: it comes on top of the idle ones if the pool takes
    it, and is destroyed if not. -/
theorem recycle_cases (h : p.table.Sound) (a : Placed α) :
    (¬ p.Takes a ∧ p.recycle a = p.destroy) ∨
      ∃ t, p.Takes a ∧ p.recycle a = { p with table := t } ∧ t.Sound ∧
        t.geometry = p.table.geometry ∧ t.idle = a :: p.idle := by
  unfold recycle Takes
  cases hvalid : p.policy.validate a.value with
  | false => exact .inl ⟨fun hboth => Bool.false_ne_true hboth.1, if_neg Bool.false_ne_true⟩
  | true =>
    rw [if_pos rfl]
    rcases Table.tryPush_cases h a with ⟨hfree, hp⟩ | ⟨i, t, hfree, hp, hsound, hgeometry, hidle⟩ <;>
      rw [hfree, hp]
    · exact .inl ⟨fun hboth => Bool.false_ne_true hboth.2, rfl⟩
    · exact .inr ⟨t, ⟨rfl, rfl⟩, rfl, hsound, hgeometry, hidle⟩

/-! ## 3. Disposing -/

/-- One instance after the other comes out of the table, and is destroyed. -/
theorem disposeFrom_eq (h : p.table.Sound) (hn : p.idle.length ≤ n) :
    ∃ t : Table α, t.Sound ∧ t.geometry = p.table.geometry ∧ t.idle = [] ∧
      p.disposeFrom n = ⟨p.policy, t, { p.tally with
        destroyed := p.tally.destroyed + (p.table.drain n).length }⟩ := by
  induction n generalizing p with
  | zero =>
    exact ⟨p.table, h, rfl, List.length_eq_zero_iff.mp (Nat.le_zero.mp hn), rfl⟩
  | succ n ih =>
    rw [disposeFrom, Table.drain]
    rcases Table.tryPop_cases h with ⟨hp, hidle⟩ | ⟨a, u, hp, hsound, hgeometry, hidle⟩
    · rw [hp]
      exact ⟨p.table, h, rfl, hidle, rfl⟩
    · rw [hp]
      have hn' : u.idle.length ≤ n := by
        unfold idle at hn
        rw [hidle, List.length_cons] at hn
        exact Nat.le_of_succ_le_succ hn
      obtain ⟨t, hsound', hgeometry', hidle', hd⟩ :=
        ih (p := (⟨p.policy, u, p.tally⟩ : Pool α).destroy) hsound hn'
      refine ⟨t, hsound', hgeometry'.trans hgeometry, hidle', hd.trans ?_⟩
      rw [List.length_cons, Nat.add_comm _ 1, ← Nat.add_assoc]
      rfl

/-- What comes out of the table until nothing does, is what was idle. -/
theorem drain_eq_idle (h : p.table.Sound) : p.table.drain p.table.geometry.maxIndex = p.idle :=
  Table.drain_eq h (Table.length_idle_le h)

/-- **The idle instances are destroyed**, each of them once, and none is left. -/
theorem dispose_eq (h : p.table.Sound) :
    ∃ t : Table α, t.Sound ∧ t.geometry = p.table.geometry ∧ t.idle = [] ∧
      p.dispose = ⟨p.policy, t, { p.tally with
        destroyed := p.tally.destroyed + p.idle.length }⟩ := by
  obtain ⟨t, hsound, hgeometry, hidle, hd⟩ := disposeFrom_eq h (Table.length_idle_le h)
  rw [drain_eq_idle h] at hd
  exact ⟨t, hsound, hgeometry, hidle, hd⟩

end Sluice.Pool
