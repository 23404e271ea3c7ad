/-
  File:      Sluice/Proofs/Pool/Versions.lean
  Subject:   The version in the top word counts pushes and pops, and every index stays in the table.

  A slot that has come off the chain may come onto it again, so the slot on top alone does not show
  whether anything happened to the chain. The version beside it does, until it has gone round once.

  * `top_pushTop`, `top_popTop`: the top word after a push and after a pop, of any table;
  * `Stamped`: a table whose version is so much later than the one of another table;
  * `stamped_of_push`, `stamped_of_pop`: an instance put in or taken out makes the version one more;
  * `Later`, **`stamped_of_later`**: so many of them make it that much more, modulo 2 to the 32nd;
  * **`dvd_of_top_eq`**: a top word comes back after a multiple of 2 to the 32nd of them, and not before;
  * `Ranged`, **`ranged_ofCapacity`**: the numbers of the table for a capacity, and those of its top word.
-/
import Sluice.Proofs.Pool.Probing
import Sluice.Proofs.Pool.Sizing

namespace Sluice.Pool

namespace Table

variable {α : Type} {t u v : Table α} {a : Placed α} {i m n : Nat}

/-! ## 1. One push, one pop -/

/-- **After a push** the slot is on top, the one that was on top is next to it, and the version is one
    more. -/
theorem top_pushTop (t : Table α) (hi : i < UInt32.size) :
    Top.slot (t.pushTop i).top = i ∧ (t.pushTop i).next i = Top.slot t.top ∧
      Top.version (t.pushTop i).top = (Top.version t.top + 1) % UInt32.size := by
  obtain ⟨hslot, hversion⟩ := Top.pack_nextVersion t.top hi
  exact ⟨hslot, setAt_same .., hversion⟩

/-- **After a pop** the slot that was next to the one on top is there, and the version is one more. -/
theorem top_popTop (h : t.popTop = some (i, u)) (hnext : t.next i < UInt32.size) :
    Top.slot t.top = i ∧ Top.slot u.top = t.next i ∧
      Top.version u.top = (Top.version t.top + 1) % UInt32.size := by
  rw [popTop_eq] at h
  split at h
  · cases h
  · obtain ⟨rfl, rfl⟩ := Prod.mk.inj (Option.some.inj h)
    exact ⟨rfl, Top.pack_nextVersion t.top hnext⟩

/-! ## 2. Any number of them -/

/-- A sound table of the same size, whose version is so much later. -/
structure Stamped (t : Table α) (n : Nat) (u : Table α) : Prop where
  sound : u.Sound
  geometry : u.geometry = t.geometry
  version : Top.version u.top = (Top.version t.top + n) % UInt32.size

theorem stamped_zero (h : t.Sound) : t.Stamped 0 t :=
  ⟨h, rfl, (Nat.mod_eq_of_lt (Top.version_lt _)).symm⟩

theorem Stamped.trans (hu : t.Stamped m u) (hv : u.Stamped n v) : t.Stamped (m + n) v := by
  refine ⟨hv.sound, hv.geometry.trans hu.geometry, ?_⟩
  rw [hv.version, hu.version, Nat.mod_add_mod, Nat.add_assoc]

/-- An instance that is put in makes the version one more. -/
theorem stamped_of_push (h : t.Sound) (hpush : t.tryPush a = some u) : t.Stamped 1 u := by
  obtain ⟨k, hsized⟩ := h.sized
  rcases tryPush_cases h a with ⟨_, hp⟩ | ⟨i, u', hslot, hp, hsound, hgeometry, _⟩
  · cases hp.symm.trans hpush
  · cases hp.symm.trans hpush
    refine ⟨hsound, hgeometry, ?_⟩
    have hi := (freeSlot?_eq_some hsized (Geometry.slotOf_inside hsized _) hslot).2
    unfold tryPush at hp
    rw [hslot] at hp
    cases hp
    exact (top_pushTop _ (Geometry.lt_size_of_inside hsized hi)).2.2

/-- So does one that is taken out. -/
theorem stamped_of_pop (h : t.Sound) (hpop : t.tryPop = (some a, u)) : t.Stamped 1 u := by
  rcases tryPop_cases h with ⟨hp, _⟩ | ⟨a', u', hp, hsound, hgeometry, _⟩
  · cases hp.symm.trans hpop
  · cases hp.symm.trans hpop
    refine ⟨hsound, hgeometry, ?_⟩
    unfold tryPop at hp
    cases htop : t.popTop with
    | none =>
      rw [htop] at hp
      cases hp
    | some p =>
      obtain ⟨i, v⟩ := p
      rw [htop] at hp
      obtain ⟨_, rfl⟩ := Prod.mk.inj hp
      obtain ⟨_, l, hchain⟩ := slot_of_popTop h htop
      exact (top_popTop htop (next_lt_size h hchain)).2.2

/-- A table that so many instances, put in and taken out, made of another one. An instance that finds no
    free slot leaves a table as it is. -/
inductive Later {α : Type} (t : Table α) : Nat → Table α → Prop where
  | same : Later t 0 t
  | push {n : Nat} {u v : Table α} {a : Placed α} :
      Later t n u → u.tryPush a = some v → Later t (n + 1) v
  | pop {n : Nat} {u v : Table α} {a : Placed α} :
      Later t n u → u.tryPop = (some a, v) → Later t (n + 1) v

/-- **The version counts** what is put in and taken out, modulo 2 to the 32nd. -/
theorem stamped_of_later (h : t.Sound) (hlater : t.Later n u) : t.Stamped n u := by
  induction hlater with
  | same => exact stamped_zero h
  | push _ hpush ih => exact ih.trans (stamped_of_push ih.sound hpush)
  | pop _ hpop ih => exact ih.trans (stamped_of_pop ih.sound hpop)

/-- **A top word comes back** only after a multiple of 2 to the 32nd of pushes and pops. -/
theorem dvd_of_top_eq (h : t.Sound) (hlater : t.Later n u) (htop : u.top = t.top) :
    UInt32.size ∣ n := by
  have hversion := (stamped_of_later h hlater).version
  have hlt := Top.version_lt t.top
  have hsize : UInt32.size = 4294967296 := rfl
  rw [htop] at hversion
  rw [hsize] at hversion hlt ⊢
  -- the same version again, so what was added to it is 0 in the modulus
  omega

/-- The slot on top is one of the table, if there is one. -/
theorem slot_top (h : t.Sound) : Top.slot t.top = 0 ∨ t.geometry.Inside (Top.slot t.top) := by
  have hlinked := h.linked
  have hinside := h.inside
  cases hchain : t.chain with
  | nil =>
    rw [hchain] at hlinked
    exact .inl hlinked
  | cons i l =>
    rw [hchain] at hlinked hinside
    exact .inr (hlinked.1 ▸ hinside i List.mem_cons_self)

end Table

/-! ## 3. Pools -/

/-- **The numbers of a table** that nothing was put into yet. -/
structure Ranged {α : Type} (t : Table α) : Prop where
  /-- Nothing overflows when it is sized with words of 32 bits or more. -/
  words : ∀ w, 32 ≤ w →
    Geometry.ofWord? (BitVec.ofNat w t.geometry.capacity) = some t.geometry
  /-- Its last slot is a power of two. -/
  power : ∃ k, t.geometry.maxIndex = 2 ^ k
  /-- It is the least one that is not below the slots for the capacity. -/
  least : ∀ k, t.geometry.capacity * slotsPerInstance ≤ 2 ^ k → t.geometry.maxIndex ≤ 2 ^ k
  /-- There are four slots or more for each instance, and less than eight. -/
  slots : 4 * t.geometry.capacity ≤ t.geometry.maxIndex ∧
    t.geometry.maxIndex < 8 * t.geometry.capacity
  /-- A word of 32 bits holds the last slot. -/
  narrow : t.geometry.maxIndex < 2 ^ 32
  /-- A hash is shifted by less than its width, and leaves two bits or more. -/
  shift : 1 ≤ t.geometry.shift ∧ t.geometry.shift ≤ 30
  /-- The first slot tried is one of the table, whatever the address. -/
  first : ∀ address, 1 ≤ t.geometry.slotOf address ∧
    t.geometry.slotOf address ≤ t.geometry.maxIndex
  /-- So is the slot any number of steps further down. -/
  below : ∀ address m, 1 ≤ t.geometry.below^[m] (t.geometry.slotOf address) ∧
    t.geometry.below^[m] (t.geometry.slotOf address) ≤ t.geometry.maxIndex
  /-- A version and a slot share a word without touching each other, and come out of it. -/
  packed : ∀ v i, v < 2 ^ 32 → i ≤ t.geometry.maxIndex →
    Top.pack v i = UInt64.ofNat v <<< 32 ||| UInt64.ofNat i ∧
      Top.version (Top.pack v i) = v ∧ Top.slot (Top.pack v i) = i
  /-- A push onto any chain makes the version one more and keeps both slots. -/
  push : ∀ (u : Table α) i, i ≤ t.geometry.maxIndex →
    Top.slot (u.pushTop i).top = i ∧ (u.pushTop i).next i = Top.slot u.top ∧
      Top.version (u.pushTop i).top = (Top.version u.top + 1) % 2 ^ 32
  /-- So does a pop off any chain whose slots are words of 32 bits. -/
  pop : ∀ (u v : Table α) i, u.popTop = some (i, v) → u.next i < 2 ^ 32 →
    Top.slot u.top = i ∧ Top.slot v.top = u.next i ∧
      Top.version v.top = (Top.version u.top + 1) % 2 ^ 32
  /-- After any pushes and pops the version is their number, and the slot on top is one of the table
      or 0. -/
  counted : ∀ n u, t.Later n u → Top.version u.top = n % 2 ^ 32 ∧
    (Top.slot u.top = 0 ∨ 1 ≤ Top.slot u.top ∧ Top.slot u.top ≤ t.geometry.maxIndex)
  /-- A top word comes back only after a multiple of 2 to the 32nd of them. -/
  recurring : ∀ m n u v, t.Later m u → u.Later n v → v.top = u.top → 2 ^ 32 ∣ n

/-- **The index arithmetic of a pool stays in range**, for every capacity that is allowed. -/
theorem ranged_ofCapacity {α : Type} (policy : Policy α) {capacity : Nat} (hlow : 1 ≤ capacity)
    (hhigh : capacity ≤ maxCapacity) :
    ∃ p : Pool α, Pool.ofCapacity capacity policy = .ok p ∧ p.capacity = capacity ∧
      Ranged p.table := by
  obtain ⟨g, hg⟩ : ∃ g, Geometry.ofCapacity capacity = .ok g :=
    ⟨_, Geometry.ofCapacity_eq_ok_iff.mpr ⟨⟨hlow, hhigh⟩, rfl⟩⟩
  have hp : Pool.ofCapacity capacity policy = .ok ⟨policy, .empty g, ⟨0, 0, 0⟩⟩ := by
    rw [Pool.ofCapacity, hg]
    rfl
  obtain ⟨⟨k, hsized⟩, rfl, hslots⟩ := Geometry.sized_ofCapacity hg
  obtain ⟨hsound, -⟩ := Table.sound_empty (α := α) hsized
  have hlast : g.Inside g.maxIndex := ⟨hsized.maxIndex ▸ Nat.one_le_two_pow, Nat.le_refl _⟩
  have hnarrow : g.maxIndex < UInt32.size := Geometry.lt_size_of_inside hsized hlast
  refine ⟨_, hp, rfl, ?_⟩
  constructor
  case words => exact fun w hw => Geometry.ofWord?_eq hg hw
  case power => exact ⟨k, hsized.maxIndex⟩
  case least => exact fun k hk => Geometry.maxIndex_le hg hk
  case slots => exact hslots
  case narrow => exact hnarrow
  case shift => exact Geometry.shift_range hsized
  case first => exact fun address => Geometry.slotOf_inside hsized address
  case below =>
    exact fun address m =>
      Geometry.inside_iterate_below hsized (Geometry.slotOf_inside hsized address)
  case packed =>
    intro v i hv hi
    have hi := hi.trans_lt hnarrow
    exact ⟨Top.pack_eq_or hv hi, Top.version_pack hv hi, Top.slot_pack hv hi⟩
  case push => exact fun u i hi => Table.top_pushTop u (hi.trans_lt hnarrow)
  case pop => exact fun u v i hpop hnext => Table.top_popTop hpop hnext
  case counted =>
    intro n u hlater
    have hstamped := Table.stamped_of_later hsound hlater
    have hversion := hstamped.version
    have hslot := Table.slot_top hstamped.sound
    rw [show Top.version (Table.empty g : Table α).top = 0 from Top.version_zero,
      Nat.zero_add] at hversion
    rw [hstamped.geometry] at hslot
    exact ⟨hversion, hslot⟩
  case recurring =>
    intro m n u v hu hv htop
    exact Table.dvd_of_top_eq (Table.stamped_of_later hsound hu).sound hv htop

/-- A pool of the greatest capacity. -/
def largest : Pool Marked :=
  ⟨Policy.marked, .empty ⟨536870911, 2147483648, 1⟩, ⟨0, 0, 0⟩⟩

theorem ranged_largest : 1 ≤ maxCapacity ∧
    Pool.ofCapacity maxCapacity Policy.marked = .ok largest ∧ largest.capacity = maxCapacity ∧
    Ranged largest.table := by
  have hlow : 1 ≤ maxCapacity := by decide
  have heq : Pool.ofCapacity maxCapacity Policy.marked = .ok largest := rfl
  obtain ⟨p, hp, hcapacity, hranged⟩ :=
    ranged_ofCapacity Policy.marked hlow (Nat.le_refl maxCapacity)
  obtain rfl : largest = p := Except.ok.inj (heq.symm.trans hp)
  exact ⟨hlow, heq, hcapacity, hranged⟩

end Sluice.Pool
