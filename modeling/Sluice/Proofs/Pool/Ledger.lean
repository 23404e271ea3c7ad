/-
  File:      Sluice/Proofs/Pool/Ledger.lean
  Subject:   What became of every instance, over any sequence of uses of a pool.

  Instances are traced: each one knows where it came from and when the pool kept it last. A ledger
  has the pool, what its borrowers hold, and what was destroyed.

  * `Policy.traced`: a policy for traced instances, which treats their values as the policy does;
  * `Use`, `Ledger.step`, `Ledger.run`: borrowing, giving back, bringing in from elsewhere, disposing;
  * `Ledger.Sound`: each instance that came into being is borrowed, idle or destroyed, and is that
    once; what is idle lies in the order in which it was kept, the latest on top;
  * `borrow_cases`, `give_cases`, `dispose_eq`: what a use does to a ledger;
  * `sound_step`, `sound_run`: `Sound` holds after each use, and after any number of them;
  * `Balanced`, **`balanced_run`**: what that says of the chain, of the next use, and of counts;
  * **`idle_le_slots`**: how many instances are kept, and what becomes of the others.
-/
import Mathlib.Data.List.Nodup
import Mathlib.Data.List.Perm.Basic
import Sluice.Proofs.Pool.Idle

namespace Sluice.Pool

/-! ## 1. Traced instances -/

/-- Where an instance comes from: made by the pool or brought to it, as the `n`-th one. -/
inductive Origin where
  | made (n : Nat)
  | brought (n : Nat)
  deriving DecidableEq, Repr

/-- An instance with its origin, and with the time at which it was given to the pool last. -/
structure Traced (α : Type) where
  origin : Origin
  kept : Nat
  value : α
  deriving DecidableEq, Repr

/-- A policy for traced instances. No instance becomes another one when it is cleared. -/
def Policy.traced {α : Type} (policy : Policy α) : Policy (Traced α) where
  produce n := ⟨.made n, 0, policy.produce n⟩
  clear a := { a with value := policy.clear a.value }
  validate a := policy.validate a.value

/-- The origins of some instances. -/
def origins {α : Type} (l : List (Placed (Traced α))) : List Origin := l.map (·.value.origin)

@[simp] theorem origins_nil {α : Type} : origins ([] : List (Placed (Traced α))) = [] := rfl

@[simp] theorem origins_cons {α : Type} (a : Placed (Traced α)) (l : List (Placed (Traced α))) :
    origins (a :: l) = a.value.origin :: origins l := rfl

theorem length_origins {α : Type} (l : List (Placed (Traced α))) : (origins l).length = l.length :=
  List.length_map _

/-- The origins of all instances, so many made and so many brought. -/
def entered (made brought : Nat) : List Origin :=
  (List.range' 1 made).map .made ++ (List.range' 1 brought).map .brought

theorem entered_made (made brought : Nat) :
    (entered (made + 1) brought).Perm (.made (made + 1) :: entered made brought) := by
  rw [entered, List.range'_1_concat, List.map_append, List.append_assoc, Nat.add_comm made 1]
  exact List.perm_middle

theorem entered_brought (made brought : Nat) :
    (entered made (brought + 1)).Perm (.brought (brought + 1) :: entered made brought) := by
  rw [entered, List.range'_1_concat, List.map_append, ← List.append_assoc, Nat.add_comm brought 1]
  exact List.perm_append_comm

theorem length_entered (made brought : Nat) : (entered made brought).length = made + brought := by
  rw [entered, List.length_append, List.length_map, List.length_map, List.length_range',
    List.length_range']

theorem nodup_entered (made brought : Nat) : (entered made brought).Nodup := by
  have hnumbers (n : Nat) : (List.range' 1 n).Nodup := List.nodup_range' 1
  refine ((hnumbers made).map fun _ _ => Origin.made.inj).append
    ((hnumbers brought).map fun _ _ => Origin.brought.inj) ?_
  intro o hmade hbrought
  obtain ⟨m, _, rfl⟩ := List.mem_map.mp hmade
  obtain ⟨n, _, hn⟩ := List.mem_map.mp hbrought
  cases hn

/-! ## 2. The ledger -/

/-- What is done with a pool. The instance given back is the `k`-th of those that are borrowed, and
    its borrower may have left any value in it. -/
inductive Use (α : Type) where
  | borrow
  | recycle (k : Nat) (value : α)
  | bring (value : α)
  | dispose

/-- A pool, what is borrowed from it, how many instances were brought to it, which ones were
    destroyed, and how many uses there were. -/
structure Ledger (α : Type) where
  pool : Pool (Traced α)
  borrowed : List (Placed (Traced α))
  brought : Nat
  destroyed : List Origin
  time : Nat

namespace Ledger

variable {α : Type}

/-- A pool nobody used. -/
def opened (pool : Pool (Traced α)) : Ledger α := ⟨pool, [], 0, [], 0⟩

/-- Somebody has an instance that the pool did not make. -/
def enter (place : Origin → UInt64) (l : Ledger α) (value : α) : Ledger α :=
  let n := l.brought + 1
  { l with
    brought := n
    borrowed := ⟨place (.brought n), ⟨.brought n, 0, value⟩⟩ :: l.borrowed }

/-- The `k`-th of the borrowed instances is given to the pool, with some value in it. It is gone if
    the pool destroyed one. -/
def give (l : Ledger α) (k : Nat) (value : α) : Ledger α :=
  match l.borrowed[k]? with
  | none => l
  | some a =>
    let pool := l.pool.recycle ⟨a.address, ⟨a.value.origin, l.time, value⟩⟩
    { l with
      pool
      borrowed := l.borrowed.eraseIdx k
      destroyed :=
        if l.pool.tally.destroyed < pool.tally.destroyed then a.value.origin :: l.destroyed
        else l.destroyed }

/-- One use, where `place` says at which address each instance lives. -/
def use (place : Origin → UInt64) (l : Ledger α) : Use α → Ledger α
  | .borrow =>
    let r := l.pool.borrow (place (.made (l.pool.tally.produced + 1)))
    { l with pool := r.2, borrowed := r.1 :: l.borrowed }
  | .recycle k value => l.give k value
  | .bring value => (l.enter place value).give 0 value
  | .dispose =>
    { l with
      pool := l.pool.dispose
      destroyed := origins (l.pool.table.drain l.pool.table.geometry.maxIndex) ++ l.destroyed }

/-- One use after another, each at a time of its own. -/
def step (place : Origin → UInt64) (l : Ledger α) (u : Use α) : Ledger α :=
  { l with time := l.time + 1 }.use place u

/-- A sequence of uses. -/
def run (place : Origin → UInt64) (l : Ledger α) (uses : List (Use α)) : Ledger α :=
  uses.foldl (step place) l

/-- **What holds of a ledger.** Each instance that came into being is borrowed, idle or destroyed,
    and is that once. What is idle lies in the order in which it was kept, the latest on top. Every
    instance that is not destroyed is where it was placed. -/
structure Sound (policy : Policy α) (g : Geometry) (place : Origin → UInt64) (l : Ledger α) :
    Prop where
  policy_eq : l.pool.policy = policy.traced
  geometry_eq : l.pool.table.geometry = g
  table : l.pool.table.Sound
  conserved : (origins l.borrowed ++ origins l.pool.idle ++ l.destroyed).Perm
    (entered l.pool.tally.produced l.brought)
  counted : l.destroyed.length = l.pool.tally.destroyed
  recent : l.pool.idle.Pairwise fun a b => b.value.kept < a.value.kept
  past : ∀ a ∈ l.pool.idle, a.value.kept ≤ l.time
  placed : ∀ a ∈ l.borrowed ++ l.pool.idle, a.address = place a.value.origin

/-! ## 3. What a use does -/

variable {policy : Policy α} {g : Geometry} {place : Origin → UInt64} {l : Ledger α} {k : Nat}

/-- **Borrowing**: the topmost idle instance, cleared, or a new one where nothing is idle. -/
theorem borrow_cases (h : l.Sound policy g place) :
    (l.pool.idle = [] ∧ l.use place .borrow =
      let n := l.pool.tally.produced + 1
      { l with
        pool := ⟨policy.traced, l.pool.table, { l.pool.tally with produced := n }⟩
        borrowed := ⟨place (.made n), ⟨.made n, 0, policy.produce n⟩⟩ :: l.borrowed }) ∨
      ∃ a t, l.pool.idle = a :: t.idle ∧ t.Sound ∧ t.geometry = g ∧ l.use place .borrow =
        { l with
          pool := ⟨policy.traced, t, { l.pool.tally with cleared := l.pool.tally.cleared + 1 }⟩
          borrowed := ⟨a.address, { a.value with value := policy.clear a.value.value }⟩ ::
            l.borrowed } := by
  rw [use]
  rcases Pool.borrow_cases h.table (place (.made (l.pool.tally.produced + 1))) with
    ⟨hidle, hb⟩ | ⟨a, t, hidle, htable, hgeometry, hb⟩ <;> rw [hb, h.policy_eq]
  · exact .inl ⟨hidle, rfl⟩
  · exact .inr ⟨a, t, hidle, htable, hgeometry.trans h.geometry_eq, rfl⟩

/-- Nothing is given back where nothing is held. -/
theorem give_eq_self (hk : ¬ k < l.borrowed.length) (value : α) : l.give k value = l := by
  rw [give, List.getElem?_eq_none (Nat.le_of_not_lt hk)]

/-- **Giving back**: the instance comes on top of the idle ones, with the time at which it was
    given, or is destroyed if the pool does not take it. -/
theorem give_cases (h : l.Sound policy g place) (hk : k < l.borrowed.length) (value : α) :
    let a : Placed (Traced α) :=
      ⟨l.borrowed[k].address, ⟨l.borrowed[k].value.origin, l.time, value⟩⟩
    (¬ l.pool.Takes a ∧ l.give k value =
      { l with
        pool := l.pool.destroy
        borrowed := l.borrowed.eraseIdx k
        destroyed := a.value.origin :: l.destroyed }) ∨
      ∃ t : Table (Traced α), l.pool.Takes a ∧ t.Sound ∧ t.geometry = g ∧
        t.idle = a :: l.pool.idle ∧ l.give k value =
          { l with
            pool := { l.pool with table := t }
            borrowed := l.borrowed.eraseIdx k } := by
  intro a
  rw [give, List.getElem?_eq_getElem hk]
  rcases Pool.recycle_cases h.table a with
    ⟨hnot, hp⟩ | ⟨t, htakes, hp, htable, hgeometry, hidle⟩ <;> simp only [a] at hp <;>
    simp only [hp]
  · have hgone : l.pool.tally.destroyed < l.pool.destroy.tally.destroyed := Nat.lt_succ_self _
    rw [if_pos hgone]
    exact .inl ⟨hnot, rfl⟩
  · rw [if_neg (Nat.lt_irrefl _)]
    exact .inr ⟨t, htakes, htable, hgeometry.trans h.geometry_eq, hidle, rfl⟩

/-- **Disposing**: what is idle is destroyed. -/
theorem dispose_eq (h : l.Sound policy g place) :
    ∃ t : Table (Traced α), t.Sound ∧ t.geometry = g ∧ t.idle = [] ∧ l.use place .dispose =
      { l with
        pool := ⟨l.pool.policy, t, { l.pool.tally with
          destroyed := l.pool.tally.destroyed + l.pool.idle.length }⟩
        destroyed := origins l.pool.idle ++ l.destroyed } := by
  obtain ⟨t, htable, hgeometry, hidle, hd⟩ := Pool.dispose_eq h.table
  refine ⟨t, htable, hgeometry.trans h.geometry_eq, hidle, ?_⟩
  rw [use, Pool.drain_eq_idle h.table, hd]

/-! ## 4. Each use keeps it -/

theorem sound_opened {capacity : Nat} {pool : Pool (Traced α)}
    (h : Pool.ofCapacity capacity policy.traced = .ok pool) :
    (opened pool).Sound policy pool.table.geometry place := by
  obtain ⟨⟨htable, hpolicy, htally, hidle⟩, _⟩ := Pool.sound_ofCapacity h
  refine ⟨hpolicy, rfl, htable, ?_, ?_, ?_, ?_, ?_⟩ <;> simp only [opened, hidle, htally]
  · exact .refl _
  · rfl
  · exact .nil
  · exact nofun
  · exact nofun

/-- Time passes. -/
theorem sound_later (h : l.Sound policy g place) :
    ({ l with time := l.time + 1 } : Ledger α).Sound policy g place :=
  ⟨h.policy_eq, h.geometry_eq, h.table, h.conserved, h.counted, h.recent,
    fun a ha => Nat.le_succ_of_le (h.past a ha), h.placed⟩

theorem sound_borrow (h : l.Sound policy g place) : (l.use place .borrow).Sound policy g place := by
  rcases borrow_cases h with ⟨hidle, hb⟩ | ⟨a, t, hidle, htable, hgeometry, hb⟩ <;> rw [hb]
  · exact ⟨rfl, h.geometry_eq, h.table, (h.conserved.cons _).trans (entered_made _ _).symm,
      h.counted, h.recent, h.past, List.forall_mem_cons.mpr ⟨rfl, h.placed⟩⟩
  · have hconserved := h.conserved
    have hrecent := h.recent
    have hpast := h.past
    have hplaced := h.placed
    rw [hidle] at hconserved hrecent hpast hplaced
    obtain ⟨hborrowed, hkept⟩ := List.forall_mem_append.mp hplaced
    obtain ⟨ha, hkept⟩ := List.forall_mem_cons.mp hkept
    exact ⟨rfl, hgeometry, htable,
      (List.perm_middle.symm.append_right _).trans hconserved, h.counted,
      (List.pairwise_cons.mp hrecent).2, (List.forall_mem_cons.mp hpast).2,
      List.forall_mem_append.mpr ⟨List.forall_mem_cons.mpr ⟨ha, hborrowed⟩, hkept⟩⟩

/-- An instance from elsewhere counts as borrowed until it is given to the pool. -/
theorem sound_enter (h : l.Sound policy g place) (value : α) :
    (l.enter place value).Sound policy g place :=
  ⟨h.policy_eq, h.geometry_eq, h.table, (h.conserved.cons _).trans (entered_brought _ _).symm,
    h.counted, h.recent, h.past, List.forall_mem_cons.mpr ⟨rfl, h.placed⟩⟩

theorem sound_give (h : l.Sound policy g place) (hpast : ∀ a ∈ l.pool.idle, a.value.kept < l.time)
    (k : Nat) (value : α) : (l.give k value).Sound policy g place := by
  by_cases hk : k < l.borrowed.length
  · -- Seen first among the borrowed ones, the instance moves over to the idle or destroyed ones.
    have hperm := (List.getElem_cons_eraseIdx_perm hk).symm.map (·.value.origin)
    have hconserved := ((hperm.append_right _).append_right _).symm.trans h.conserved
    obtain ⟨hborrowed, hkept⟩ := List.forall_mem_append.mp h.placed
    have haddress := hborrowed _ (List.getElem_mem hk)
    have hborrowed : ∀ a ∈ l.borrowed.eraseIdx k, a.address = place a.value.origin :=
      fun a ha => hborrowed a (List.mem_of_mem_eraseIdx ha)
    rcases give_cases h hk value with ⟨_, hg⟩ | ⟨t, _, htable, hgeometry, hidle, hg⟩ <;> rw [hg]
    · exact ⟨h.policy_eq, h.geometry_eq, h.table, List.perm_middle.trans hconserved,
        congrArg Nat.succ h.counted, h.recent, h.past,
        List.forall_mem_append.mpr ⟨hborrowed, hkept⟩⟩
    · refine ⟨h.policy_eq, hgeometry, htable, ?_, h.counted, ?_, ?_, ?_⟩ <;>
        rw [Pool.idle_mk, hidle]
      · exact (List.perm_middle.append_right _).trans hconserved
      · exact List.pairwise_cons.mpr ⟨hpast, h.recent⟩
      · exact List.forall_mem_cons.mpr ⟨Nat.le_refl _, h.past⟩
      · exact List.forall_mem_append.mpr
          ⟨hborrowed, List.forall_mem_cons.mpr ⟨haddress, hkept⟩⟩
  · rw [give_eq_self hk]
    exact h

theorem sound_dispose (h : l.Sound policy g place) :
    (l.use place .dispose).Sound policy g place := by
  obtain ⟨t, htable, hgeometry, hidle, hd⟩ := dispose_eq h
  rw [hd]
  refine ⟨h.policy_eq, hgeometry, htable, ?_, ?_, ?_, ?_, ?_⟩
  · -- What was idle has become what is destroyed.
    simpa only [Pool.idle_mk, hidle, origins_nil, List.append_nil, ← List.append_assoc]
      using h.conserved
  · simp only [List.length_append, length_origins, h.counted, Nat.add_comm]
  · simp only [Pool.idle_mk, hidle, List.Pairwise.nil]
  · simp only [Pool.idle_mk, hidle, List.not_mem_nil, false_implies, implies_true]
  · simpa only [Pool.idle_mk, hidle, List.append_nil] using (List.forall_mem_append.mp h.placed).1

/-- **Each use keeps what holds of a ledger.** -/
theorem sound_step (h : l.Sound policy g place) (u : Use α) :
    (l.step place u).Sound policy g place := by
  have hlater := sound_later h
  have hpast : ∀ a ∈ l.pool.idle, a.value.kept < l.time + 1 :=
    fun a ha => Nat.lt_succ_of_le (h.past a ha)
  cases u with
  | borrow => exact sound_borrow hlater
  | recycle k value => exact sound_give hlater hpast k value
  | bring value => exact sound_give (sound_enter hlater value) hpast 0 value
  | dispose => exact sound_dispose hlater

/-- **So does any sequence of uses.** -/
theorem sound_run (h : l.Sound policy g place) (uses : List (Use α)) :
    (l.run place uses).Sound policy g place := by
  induction uses generalizing l with
  | nil => exact h
  | cons u uses ih => exact ih (sound_step h u)

/-! ## 5. Where the instances are -/

/-- The `k`-th of the borrowed instances as the next use gives it back. -/
def given (l : Ledger α) (hk : k < l.borrowed.length) (value : α) : Placed (Traced α) :=
  ⟨l.borrowed[k].address, ⟨l.borrowed[k].value.origin, l.time + 1, value⟩⟩

/-- **What a ledger shows**, in a pool whose table is `g`, and of the use that follows. -/
structure Balanced (policy : Policy α) (g : Geometry) (place : Origin → UInt64) (l : Ledger α) :
    Prop where
  /-- From the slot in the top word the next slots are those of the chain, and then slot 0. -/
  linked : Linked l.pool.table.next (Top.slot l.pool.table.top) l.pool.table.chain
  /-- The chain meets no slot twice. -/
  nodup : l.pool.table.chain.Nodup
  /-- It meets each slot that holds an instance, and no empty one. -/
  occupied : ∀ i, i ∈ l.pool.table.chain ↔ (l.pool.table.slots i).isSome = true
  /-- It stays within the table. -/
  inside : ∀ i ∈ l.pool.table.chain, 1 ≤ i ∧ i ≤ g.maxIndex
  /-- A slot that comes off the chain holds an instance. -/
  filled : ∀ i t, l.pool.table.popTop = some (i, t) → (t.slots i).isSome = true
  /-- A borrower gets the instance that was kept last of those that are idle, cleared. One is made
      only where nothing is idle. -/
  borrow : (∃ a rest, l.pool.idle = a :: rest ∧ (∀ b ∈ rest, b.value.kept < a.value.kept) ∧
      (l.step place .borrow).borrowed =
        ⟨a.address, { a.value with value := policy.clear a.value.value }⟩ :: l.borrowed ∧
      (l.step place .borrow).pool.idle = rest ∧
      (l.step place .borrow).pool.tally.produced = l.pool.tally.produced) ∨
    (l.pool.idle = [] ∧ ∃ n, n = l.pool.tally.produced + 1 ∧
      (l.step place .borrow).borrowed =
        ⟨place (.made n), ⟨.made n, 0, policy.produce n⟩⟩ :: l.borrowed ∧
      (l.step place .borrow).pool.idle = [] ∧
      (l.step place .borrow).pool.tally.produced = n)
  /-- What a borrower gets is not held by anybody else. -/
  fresh : ∃ a, (l.step place .borrow).borrowed = a :: l.borrowed ∧
    a.value.origin ∉ origins l.borrowed
  /-- An instance given back is kept on top of the idle ones if the pool takes it, and destroyed if
      not. -/
  recycle : ∀ k (hk : k < l.borrowed.length) value,
    (l.pool.Takes (l.given hk value) →
      (l.step place (.recycle k value)).pool.idle = l.given hk value :: l.pool.idle ∧
      (l.step place (.recycle k value)).destroyed = l.destroyed) ∧
    (¬ l.pool.Takes (l.given hk value) →
      (l.step place (.recycle k value)).pool.idle = l.pool.idle ∧
      (l.step place (.recycle k value)).destroyed = l.borrowed[k].value.origin :: l.destroyed)
  /-- Disposing destroys what is idle, each instance once, and leaves nothing idle. -/
  dispose : (l.step place .dispose).pool.idle = [] ∧
    (l.step place .dispose).destroyed = origins l.pool.idle ++ l.destroyed ∧
    (l.step place .dispose).pool.tally.destroyed = l.pool.tally.destroyed + l.pool.idle.length
  /-- What was made or brought in is borrowed, idle or destroyed. -/
  conserved : (origins l.borrowed ++ origins l.pool.idle ++ l.destroyed).Perm
    (entered l.pool.tally.produced l.brought)
  /-- It is so in one place only, and once. -/
  apart : (origins l.borrowed ++ origins l.pool.idle ++ l.destroyed).Nodup
  /-- The counts agree. -/
  count : l.pool.tally.produced + l.brought =
    l.borrowed.length + l.pool.idle.length + l.pool.tally.destroyed

theorem apart_of_sound (h : l.Sound policy g place) :
    (origins l.borrowed ++ origins l.pool.idle ++ l.destroyed).Nodup :=
  h.conserved.nodup_iff.mpr (nodup_entered _ _)

theorem count_of_sound (h : l.Sound policy g place) : l.pool.tally.produced + l.brought =
    l.borrowed.length + l.pool.idle.length + l.pool.tally.destroyed := by
  have hlength := h.conserved.length_eq
  rw [List.length_append, List.length_append, length_origins, length_origins, h.counted,
    length_entered] at hlength
  exact hlength.symm

/-- What is borrowed next is not among what is borrowed. -/
theorem fresh_of_sound (h : l.Sound policy g place) : ∃ a,
    (l.step place .borrow).borrowed = a :: l.borrowed ∧ a.value.origin ∉ origins l.borrowed := by
  obtain ⟨a, ha⟩ : ∃ a, (l.step place .borrow).borrowed = a :: l.borrowed := by
    rw [step]
    rcases borrow_cases (sound_later h) with ⟨_, hb⟩ | ⟨a, t, _, _, _, hb⟩ <;>
      exact ⟨_, congrArg borrowed hb⟩
  have hapart := apart_of_sound (sound_step h .borrow)
  rw [ha, origins_cons, List.cons_append, List.cons_append, List.nodup_cons] at hapart
  exact ⟨a, ha, fun hmem => hapart.1 (List.mem_append_left _ (List.mem_append_left _ hmem))⟩

/-- What becomes of an instance that is given back next. -/
theorem recycle_of_sound (h : l.Sound policy g place) (hk : k < l.borrowed.length) (value : α) :
    let r := l.step place (.recycle k value)
    (l.pool.Takes (l.given hk value) ∧ l.pool.idle.length < g.maxIndex ∧
        r.pool.idle = l.given hk value :: l.pool.idle ∧ r.destroyed = l.destroyed) ∨
      (¬ l.pool.Takes (l.given hk value) ∧ r.pool.idle = l.pool.idle ∧
        r.destroyed = l.borrowed[k].value.origin :: l.destroyed ∧
        r.pool.tally.destroyed = l.pool.tally.destroyed + 1) := by
  intro r
  have hr : r = ({ l with time := l.time + 1 } : Ledger α).give k value := rfl
  clear_value r
  rcases give_cases (sound_later h) hk value with
    ⟨hnot, hg⟩ | ⟨t, htakes, htable, hgeometry, hidle, hg⟩ <;> rw [hr, hg]
  · exact .inr ⟨hnot, rfl, rfl, rfl⟩
  · have hroom := hgeometry ▸ Table.length_idle_le htable
    rw [hidle, List.length_cons] at hroom
    exact .inl ⟨htakes, hroom, hidle, rfl⟩

theorem balanced_of_sound (h : l.Sound policy g place) : l.Balanced policy g place where
  linked := h.table.linked
  nodup := h.table.nodup
  occupied := h.table.occupied
  inside := h.geometry_eq ▸ h.table.inside
  filled := fun _ _ hp => (Table.slot_of_popTop h.table hp).1
  borrow := by
    rw [step]
    rcases borrow_cases (sound_later h) with ⟨hidle, hb⟩ | ⟨a, t, hidle, _, _, hb⟩ <;> rw [hb]
    · exact .inr ⟨hidle, _, rfl, rfl, hidle, rfl⟩
    · have hrecent := h.recent
      rw [show l.pool.idle = a :: t.idle from hidle] at hrecent
      exact .inl ⟨a, t.idle, hidle, (List.pairwise_cons.mp hrecent).1, rfl, rfl, rfl⟩
  fresh := fresh_of_sound h
  recycle := by
    intro k hk value
    rcases recycle_of_sound h hk value with ⟨htakes, _, hidle, hd⟩ | ⟨hnot, hidle, hd, _⟩
    · exact ⟨fun _ => ⟨hidle, hd⟩, fun hnot => absurd htakes hnot⟩
    · exact ⟨fun htakes => absurd htakes hnot, fun _ => ⟨hidle, hd⟩⟩
  dispose := by
    obtain ⟨t, _, _, hidle, hd⟩ := dispose_eq (sound_later h)
    rw [step, hd]
    exact ⟨hidle, rfl, rfl⟩
  conserved := h.conserved
  apart := apart_of_sound h
  count := count_of_sound h

/-! A pool for one instance, which is made twice. Both instances are given back, the older one
    first. -/

/-- Sixteen bytes for each instance. -/
def inARow : Origin → UInt64
  | .made n => 16 * UInt64.ofNat n
  | .brought n => 4096 + 16 * UInt64.ofNat n

def forOne : Pool (Traced Marked) := ⟨Policy.marked.traced, .empty ⟨1, 4, 30⟩, ⟨0, 0, 0⟩⟩

theorem forOne_eq : Pool.ofCapacity 1 Policy.marked.traced = .ok forOne := rfl

def pair : List (Use Marked) := [.borrow, .borrow, .recycle 1 ⟨1, []⟩, .recycle 0 ⟨2, []⟩]

variable {capacity : Nat} {pool : Pool (Traced α)}

/-- **Every instance is borrowed, idle or destroyed**, after any sequence of uses of a pool, at
    whatever addresses the instances live, and whatever the borrowers left in them. The chain is the
    stack of what is idle. -/
theorem balanced_run (h : Pool.ofCapacity capacity policy.traced = .ok pool)
    (place : Origin → UInt64) (uses : List (Use α)) :
    ((opened pool).run place uses).Balanced policy pool.table.geometry place :=
  balanced_of_sound (sound_run (sound_opened h) uses)

theorem balanced_pair : Pool.ofCapacity 1 Policy.marked.traced = .ok forOne ∧
    ((opened forOne).run inARow pair).Balanced Policy.marked forOne.table.geometry inARow :=
  ⟨forOne_eq, balanced_run forOne_eq inARow pair⟩

/-- **No more instances are idle than the table has slots**, which are four or more for each one of
    the capacity, and less than eight. An instance given back is kept if the pool takes it, which it
    does not where every slot is taken, and destroyed if not. -/
theorem idle_le_slots (h : Pool.ofCapacity capacity policy.traced = .ok pool)
    (place : Origin → UInt64) (uses : List (Use α)) :
    let l := (opened pool).run place uses
    let slots := pool.table.geometry.maxIndex
    (l.pool.idle.length ≤ slots ∧ 4 * capacity ≤ slots ∧ slots < 8 * capacity) ∧
      ∀ k (hk : k < l.borrowed.length) value,
        let r := l.step place (.recycle k value)
        (l.pool.Takes (l.given hk value) ∧ l.pool.idle.length < slots ∧
          r.pool.idle = l.given hk value :: l.pool.idle ∧ r.destroyed = l.destroyed) ∨
        (¬ l.pool.Takes (l.given hk value) ∧ r.pool.idle = l.pool.idle ∧
          r.destroyed = l.borrowed[k].value.origin :: l.destroyed ∧
          r.pool.tally.destroyed = l.pool.tally.destroyed + 1) := by
  obtain ⟨_, _, hlow, hhigh⟩ := Pool.sound_ofCapacity h
  have hsound : ((opened pool).run place uses).Sound policy pool.table.geometry place :=
    sound_run (sound_opened h) uses
  have hle := Table.length_idle_le hsound.table
  rw [hsound.geometry_eq] at hle
  exact ⟨⟨hle, hlow, hhigh⟩, fun k hk value => recycle_of_sound hsound hk value⟩

theorem pair_le_slots : Pool.ofCapacity 1 Policy.marked.traced = .ok forOne ∧
    let l := (opened forOne).run inARow (pair.take 3)
    let r := l.step inARow (.recycle 0 ⟨2, []⟩)
    l.pool.idle.length ≤ 4 ∧ 0 < l.borrowed.length ∧
      (r.destroyed = l.destroyed ∨ r.pool.tally.destroyed = l.pool.tally.destroyed + 1) := by
  have hheld : 0 < ((opened forOne).run inARow (pair.take 3)).borrowed.length := by decide +kernel
  obtain ⟨⟨hle, _⟩, hrecycle⟩ := idle_le_slots forOne_eq inARow (pair.take 3)
  refine ⟨forOne_eq, hle, hheld, ?_⟩
  rcases hrecycle 0 hheld ⟨2, []⟩ with ⟨_, _, _, hkept⟩ | ⟨_, _, _, hgone⟩
  · exact .inl hkept
  · exact .inr hgone

/-- A pool for one instance keeps two. -/
theorem pair_idle_for_one : Pool.ofCapacity 1 Policy.marked.traced = .ok forOne ∧
    ((opened forOne).run inARow pair).pool.capacity = 1 ∧
    ((opened forOne).run inARow pair).pool.idle.length = 2 :=
  ⟨forOne_eq, rfl, by decide +kernel⟩

end Ledger

end Sluice.Pool
