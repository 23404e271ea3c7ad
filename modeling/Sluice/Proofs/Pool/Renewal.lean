/-
  File:      Sluice/Proofs/Pool/Renewal.lean
  Subject:   A borrowed instance is as good as a new one, whatever others left in it.

  Instances are checked when they are given back and cleared when they are borrowed. What ties the two
  together is that everything idle in between has the right shape.

  * `Policy.Renews`: new instances are fresh, and clearing makes fresh what has the right shape;
    `renews_chunks`, `renews_zeros`: the policies for chunks and for arrays of zeros do so;
  * `Ledger.Fit`, `fit_step`, `fit_run`: what is idle has the right shape, after any uses;
  * `destroyed_run`, `lost_run`: what was destroyed is in nobody's hands any more;
  * `Policy.shapes`: of a value it is only known whether it has the right shape;
  * `Renewing`, **`renewing_of_renews`**: what that says of a pool;
  * **`renewing_chunks_zeros`**: pools of chunks of anything, and of arrays of zeros.
-/
import Sluice.Proofs.Pool.Erasure

namespace Sluice.Pool

/-! ## 1. Policies -/

/-- New instances are fresh, and so are cleared ones that had the right shape. What is cleared keeps
    its shape, and new instances have it. -/
structure Policy.Renews {α : Type} (policy : Policy α) (fresh : α → Prop) : Prop where
  fresh_produce : ∀ n, fresh (policy.produce n)
  fresh_clear : ∀ a, policy.validate a = true → fresh (policy.clear a)
  validate_produce : ∀ n, policy.validate (policy.produce n) = true
  validate_clear : ∀ a, policy.validate (policy.clear a) = policy.validate a

/-- A chunk without elements, with room for `size` of them. -/
def Chunk.IsEmpty {ε : Type} (size : Nat) (c : Chunk ε) : Prop :=
  c.elements = [] ∧ size ≤ c.capacity

theorem renews_chunks {ε : Type} (size : Nat) :
    (Policy.chunks size : Policy (Chunk ε)).Renews (Chunk.IsEmpty size) where
  fresh_produce _ := ⟨rfl, Nat.le_refl _⟩
  fresh_clear _ h := ⟨rfl, of_decide_eq_true h⟩
  validate_produce _ := decide_eq_true (Nat.le_refl _)
  validate_clear _ := rfl

theorem renews_zeros (size : Nat) : (Policy.zeros size).Renews (· = List.replicate size 0) where
  fresh_produce _ := rfl
  fresh_clear _ h := congrArg (List.replicate · 0) (beq_iff_eq.mp h)
  validate_produce _ := beq_iff_eq.mpr List.length_replicate
  validate_clear _ := congrArg (· == size) List.length_replicate

/-! ## 2. What is idle -/

namespace Ledger

variable {α : Type} {policy : Policy α} {g : Geometry} {place : Origin → UInt64} {l : Ledger α}
  {fresh : α → Prop} {o : Origin} {k : Nat} {value : α}

/-- **What is idle has the right shape.** -/
def Fit (policy : Policy α) (l : Ledger α) : Prop :=
  ∀ a ∈ l.pool.idle, policy.validate a.value.value = true

theorem fit_opened {capacity : Nat} {pool : Pool (Traced α)}
    (h : Pool.ofCapacity capacity policy.traced = .ok pool) : (opened pool).Fit policy := by
  obtain ⟨⟨_, _, _, hidle⟩, _⟩ := Pool.sound_ofCapacity h
  intro a ha
  rw [opened, hidle] at ha
  cases ha

/-- Only what has the right shape is kept. -/
theorem fit_give (h : l.Sound policy g place) (hfit : l.Fit policy) (k : Nat) (value : α) :
    (l.give k value).Fit policy := by
  by_cases hk : k < l.borrowed.length
  · rcases give_cases h hk value with ⟨_, hg⟩ | ⟨t, htakes, _, _, hidle, hg⟩ <;> rw [hg]
    · exact hfit
    · have hvalid : policy.validate value = true := by
        have := htakes.1
        rwa [h.policy_eq] at this
      rw [Fit, Pool.idle_mk, hidle]
      exact List.forall_mem_cons.mpr ⟨hvalid, hfit⟩
  · rw [give_eq_self hk]
    exact hfit

theorem fit_step (h : l.Sound policy g place) (hfit : l.Fit policy) (u : Use α) :
    (l.step place u).Fit policy := by
  have hlater := sound_later h
  cases u with
  | borrow =>
    rw [step]
    rcases borrow_cases hlater with ⟨_, hb⟩ | ⟨a, t, hidle, _, _, hb⟩ <;> rw [hb]
    · exact hfit
    · have hall : ∀ b ∈ a :: t.idle, policy.validate b.value.value = true := hidle ▸ hfit
      exact (List.forall_mem_cons.mp hall).2
  | recycle k value => exact fit_give hlater hfit k value
  | bring value => exact fit_give (sound_enter hlater value) hfit 0 value
  | dispose =>
    obtain ⟨t, _, _, hidle, hd⟩ := dispose_eq hlater
    rw [step, hd, Fit, Pool.idle_mk, hidle]
    exact fun _ hmem => absurd hmem List.not_mem_nil

theorem fit_run (h : l.Sound policy g place) (hfit : l.Fit policy) (uses : List (Use α)) :
    (l.run place uses).Fit policy := by
  induction uses generalizing l with
  | nil => exact hfit
  | cons u uses ih => exact ih (sound_step h u) (fit_step h hfit u)

/-- **What is borrowed next is fresh.** -/
theorem fresh_of_fit (h : l.Sound policy g place) (hfit : l.Fit policy)
    (hrenews : policy.Renews fresh) :
    ∃ a, (l.step place .borrow).borrowed = a :: l.borrowed ∧ fresh a.value.value := by
  rw [step]
  rcases borrow_cases (sound_later h) with ⟨_, hb⟩ | ⟨a, t, hidle, _, _, hb⟩ <;> rw [hb]
  · exact ⟨_, rfl, hrenews.fresh_produce _⟩
  · have hall : ∀ b ∈ a :: t.idle, policy.validate b.value.value = true := hidle ▸ hfit
    exact ⟨_, rfl, hrenews.fresh_clear _ (List.forall_mem_cons.mp hall).1⟩

/-! ## 3. What is destroyed -/

theorem destroyed_give (ho : o ∈ l.destroyed) (k : Nat) (value : α) :
    o ∈ (l.give k value).destroyed := by
  unfold give
  split
  · exact ho
  · dsimp only
    split
    · exact List.mem_cons_of_mem _ ho
    · exact ho

theorem destroyed_step (ho : o ∈ l.destroyed) (u : Use α) : o ∈ (l.step place u).destroyed := by
  cases u with
  | borrow => exact ho
  | recycle k value => exact destroyed_give (l := { l with time := l.time + 1 }) ho k value
  | bring value =>
    exact destroyed_give (l := ({ l with time := l.time + 1 } : Ledger α).enter place value) ho 0
      value
  | dispose => exact List.mem_append_right _ ho

/-- What was destroyed stays so. -/
theorem destroyed_run (ho : o ∈ l.destroyed) (uses : List (Use α)) :
    o ∈ (l.run place uses).destroyed := by
  induction uses generalizing l with
  | nil => exact ho
  | cons u uses ih => exact ih (destroyed_step ho u)

/-- **Nobody holds what was destroyed**, and nobody will be given it. -/
theorem lost_run (h : l.Sound policy g place) (ho : o ∈ l.destroyed) (later : List (Use α)) :
    let r := l.run place later
    o ∈ r.destroyed ∧ o ∉ origins r.borrowed ++ origins r.pool.idle := by
  intro r
  have hr : o ∈ r.destroyed := destroyed_run ho later
  refine ⟨hr, fun hmem => ?_⟩
  exact (List.nodup_append.mp (apart_of_sound (sound_run h later))).2.2 o hmem o hr rfl

/-- What has another shape is not taken. -/
theorem destroyed_of_give (h : l.Sound policy g place) (hk : k < l.borrowed.length)
    (hinvalid : policy.validate value = false) :
    l.borrowed[k].value.origin ∈ (l.give k value).destroyed := by
  rcases give_cases h hk value with ⟨_, hg⟩ | ⟨t, htakes, _⟩
  · rw [hg]
    exact List.mem_cons_self
  · have hvalid := htakes.1
    rw [h.policy_eq] at hvalid
    exact absurd (hinvalid.symm.trans hvalid) Bool.false_ne_true

end Ledger

/-! ## 4. Shapes -/

/-- Of a value it is only known whether it has the right shape, which it keeps. -/
def Policy.shapes : Policy Bool where
  produce _ := true
  clear a := a
  validate a := a

theorem erases_shapes {α : Type} {policy : Policy α} {fresh : α → Prop}
    (h : policy.Renews fresh) : policy.Erases policy.validate .shapes where
  produce := h.validate_produce
  clear := h.validate_clear
  validate _ := rfl

/-! ## 5. Pools -/

/-- **A pool renews its instances**: after any uses, by borrowers who left anything in them. -/
structure Renewing {α : Type} (policy : Policy α) (fresh : α → Prop) (pool : Pool (Traced α)) :
    Prop where
  /-- The next borrower gets a fresh instance. -/
  borrowed : ∀ place uses,
    let l := (Ledger.opened pool).run place uses
    ∃ a, (l.step place .borrow).borrowed = a :: l.borrowed ∧ fresh a.value.value
  /-- An instance that is given back in another shape is destroyed, and nobody ever gets it again. -/
  lost : ∀ place uses k value later, policy.validate value = false →
    let l := (Ledger.opened pool).run place uses
    ∀ hk : k < l.borrowed.length,
      let r := (l.step place (.recycle k value)).run place later
      l.borrowed[k].value.origin ∈ r.destroyed ∧
        l.borrowed[k].value.origin ∉ origins r.borrowed ++ origins r.pool.idle
  /-- Nor does anybody get one of another shape that comes from elsewhere. -/
  refused : ∀ place uses value later, policy.validate value = false →
    let l := (Ledger.opened pool).run place uses
    let r := (l.step place (.bring value)).run place later
    .brought (l.brought + 1) ∈ r.destroyed ∧
      .brought (l.brought + 1) ∉ origins r.borrowed ++ origins r.pool.idle
  /-- Which instance goes to whom, where it lives and what is destroyed does not depend on what was
      left in the instances, but for their shapes. -/
  apart : ∀ place uses uses',
    uses.map (Use.map policy.validate) = uses'.map (Use.map policy.validate) →
      ((Ledger.opened pool).run place uses).map policy.validate .shapes =
        ((Ledger.opened pool).run place uses').map policy.validate .shapes

/-- **Renewing policies make renewing pools.** -/
theorem renewing_of_renews {α : Type} {policy : Policy α} {fresh : α → Prop} {capacity : Nat}
    {pool : Pool (Traced α)} (hrenews : policy.Renews fresh)
    (h : Pool.ofCapacity capacity policy.traced = .ok pool) : Renewing policy fresh pool := by
  have hopened : ∀ place, (Ledger.opened pool).Sound policy pool.table.geometry place := fun _ =>
    Ledger.sound_opened h
  have hrun := fun place uses => Ledger.sound_run (hopened place) uses
  constructor
  case borrowed =>
    intro place uses
    exact Ledger.fresh_of_fit (hrun place uses)
      (Ledger.fit_run (hopened place) (Ledger.fit_opened h) uses) hrenews
  case lost =>
    intro place uses k value later hinvalid l hk
    exact Ledger.lost_run (Ledger.sound_step (hrun place uses) (.recycle k value))
      (Ledger.destroyed_of_give (Ledger.sound_later (hrun place uses)) hk hinvalid) later
  case refused =>
    intro place uses value later hinvalid l
    have hentered := Ledger.sound_enter (Ledger.sound_later (hrun place uses)) value
    exact Ledger.lost_run (Ledger.sound_step (hrun place uses) (.bring value))
      (Ledger.destroyed_of_give (k := 0) hentered (Nat.succ_pos _) hinvalid) later
  case apart =>
    intro place uses uses' hsame
    have herases := erases_shapes hrenews
    rw [← Ledger.map_run herases (hopened place), ← Ledger.map_run herases (hopened place), hsame]

/-- **Pools of chunks and of arrays** hand out what is as good as new: chunks without elements and with
    room for `size` of them, and arrays of `size` zeros, for every capacity. -/
theorem renewing_chunks_zeros (capacity size : Nat) :
    (∀ (ε : Type) (pool : Pool (Traced (Chunk ε))),
      Pool.ofCapacity capacity (Policy.chunks size).traced = .ok pool →
        Renewing (Policy.chunks size) (Chunk.IsEmpty size) pool) ∧
    ∀ pool : Pool (Traced (List UInt32)),
      Pool.ofCapacity capacity (Policy.zeros size).traced = .ok pool →
        Renewing (Policy.zeros size) (· = List.replicate size 0) pool :=
  ⟨fun _ _ h => renewing_of_renews (renews_chunks size) h,
    fun _ h => renewing_of_renews (renews_zeros size) h⟩

/-- A pool for one instance, with nothing in it. -/
def vacant {α : Type} (policy : Policy α) : Pool (Traced α) :=
  ⟨policy.traced, .empty ⟨1, 4, 30⟩, ⟨0, 0, 0⟩⟩

theorem vacant_eq {α : Type} (policy : Policy α) :
    Pool.ofCapacity 1 policy.traced = .ok (vacant policy) := rfl

/-- A chunk is given back with something in it. -/
def soiled : List (Use (Chunk Char)) := [.borrow, .recycle 0 ⟨['a'], 2⟩]

/-- What was in the chunk is gone for the next borrower; and an array of another length, given back to
    a pool of arrays, is gone for everybody. -/
theorem renewing_soiled :
    Pool.ofCapacity 1 (Policy.chunks 2).traced = .ok (vacant (Policy.chunks 2 : Policy (Chunk Char))) ∧
    Pool.ofCapacity 1 (Policy.zeros 2).traced = .ok (vacant (Policy.zeros 2)) ∧
    (∃ a, (((Ledger.opened (vacant (Policy.chunks 2))).run Ledger.inARow soiled).step Ledger.inARow
      .borrow).borrowed = [a] ∧ a.value.value.IsEmpty 2) ∧
    (Policy.zeros 2).validate [1, 2, 3] = false ∧
    .made 1 ∈ ((Ledger.opened (vacant (Policy.zeros 2))).run Ledger.inARow
      [.borrow, .recycle 0 [1, 2, 3]]).destroyed := by
  obtain ⟨hchunks, harrays⟩ := renewing_chunks_zeros 1 2
  have hchunk := hchunks Char _ (vacant_eq _)
  have harray := harrays _ (vacant_eq _)
  obtain ⟨a, ha, hempty⟩ := hchunk.borrowed Ledger.inARow soiled
  have hnone : ((Ledger.opened (vacant (Policy.chunks 2))).run Ledger.inARow soiled).borrowed = [] := by
    decide +kernel
  refine ⟨vacant_eq _, vacant_eq _, ⟨a, ?_, hempty⟩, rfl, ?_⟩
  · rw [ha, hnone]
  · exact (harray.lost Ledger.inARow [.borrow] 0 [1, 2, 3] [] rfl (by decide +kernel)).1

end Sluice.Pool
