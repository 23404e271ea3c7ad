/-
  File:      Sluice/Proofs/Pool/Probing.lean
  Subject:   Which slots are tried for an instance, and when one of them is free.

  The slots are tried downwards from the one of the hash, and the last slot comes after the first.
  A table of four slots has fewer of them than there are attempts, so they are tried twice.

  * `iterate_below`, `iterate_below_maxIndex`: the slot some steps further down, and once around;
  * `Geometry.probes`: the slots tried for an address, without those that are tried again;
  * **`nodup_probes`**, `inside_probes`: they are different slots of the table;
  * `freeSlot?_eq_none_iff`: no slot is found where all of them are taken;
  * `exists_free_of_few`: where few instances are idle, one of them is free;
  * **`takes_of_few`**, **`recycle_eq_destroy_iff`**: what that makes of an instance given back.
-/
import Mathlib.Data.List.Iterate
import Mathlib.Dynamics.PeriodicPts.Defs
import Sluice.Proofs.Pool.Idle

namespace Sluice.Pool

/-! ## 1. The slots -/

namespace Geometry

variable {g : Geometry} {i j k m n : Nat}

/-- The slot `m` steps further down, less than once around the table. -/
theorem iterate_below (hi : g.Inside i) (hm : m < g.maxIndex) :
    g.below^[m] i = if m < i then i - m else g.maxIndex + i - m := by
  obtain ⟨hlow, hhigh⟩ := hi
  induction m with
  | zero => rw [Function.iterate_zero_apply, if_pos (by omega), Nat.sub_zero]
  | succ m ih =>
    rw [Function.iterate_succ_apply', ih (Nat.lt_of_succ_lt hm), below]
    split <;> split <;> split <;> omega

/-- Once around the table. -/
theorem iterate_below_maxIndex (hi : g.Inside i) : g.below^[g.maxIndex] i = i := by
  obtain ⟨hlow, hhigh⟩ := id hi
  obtain ⟨m, hm⟩ : ∃ m, g.maxIndex = m + 1 := ⟨g.maxIndex - 1, by omega⟩
  have hlast := iterate_below hi (show m < g.maxIndex by omega)
  rw [hm, Function.iterate_succ_apply', hlast, below]
  split <;> split <;> omega

theorem inside_iterate_below (h : g.Sized k) (hi : g.Inside i) : g.Inside (g.below^[m] i) := by
  induction m with
  | zero => exact hi
  | succ m ih =>
    rw [Function.iterate_succ_apply']
    exact below_inside h ih

/-- Less than once around, no slot comes twice. -/
theorem nodup_iterate_below (hi : g.Inside i) (hn : n ≤ g.maxIndex) :
    (List.iterate g.below i n).Nodup := by
  obtain ⟨hlow, hhigh⟩ := id hi
  rw [← List.range_map_iterate]
  refine List.Nodup.map_on ?_ List.nodup_range
  intro a ha b hb hab
  have ha := List.mem_range.mp ha
  have hb := List.mem_range.mp hb
  rw [iterate_below hi (by omega), iterate_below hi (by omega)] at hab
  split at hab <;> split at hab <;> omega

/-- After once around, no slot is a new one. -/
theorem mem_iterate_below_iff (hi : g.Inside i) :
    j ∈ List.iterate g.below i n ↔ j ∈ List.iterate g.below i (min n g.maxIndex) := by
  rw [List.mem_iterate, List.mem_iterate]
  constructor
  · rintro ⟨m, hm, rfl⟩
    have haround : Function.IsPeriodicPt g.below g.maxIndex i := iterate_below_maxIndex hi
    have hlt := Nat.mod_lt m (Nat.lt_of_lt_of_le hi.1 hi.2)
    have hle := Nat.mod_le m g.maxIndex
    exact ⟨m % g.maxIndex, by omega, (haround.iterate_mod_apply m).symm⟩
  · rintro ⟨m, hm, rfl⟩
    exact ⟨m, by omega, rfl⟩

/-- The slots tried for an instance at an address, without those that are tried again. -/
def probes (g : Geometry) (address : UInt64) : List Nat :=
  List.iterate g.below (g.slotOf address) (min attempts g.maxIndex)

theorem length_probes (g : Geometry) (address : UInt64) :
    (g.probes address).length = min attempts g.maxIndex :=
  List.length_iterate ..

/-- **The slots tried are different ones**, for every address and every size of a table. -/
theorem nodup_probes (h : g.Sized k) (address : UInt64) : (g.probes address).Nodup :=
  nodup_iterate_below (slotOf_inside h address) (Nat.min_le_right ..)

theorem inside_probes (h : g.Sized k) (address : UInt64) : ∀ i ∈ g.probes address, g.Inside i := by
  intro i hi
  obtain ⟨m, _, rfl⟩ := List.mem_iterate.mp hi
  exact inside_iterate_below h (slotOf_inside h address)

end Geometry

/-! ## 2. A free one -/

namespace Table

variable {α : Type} {t : Table α} {i n : Nat} {address : UInt64}

/-- No slot is found where all of those that are tried are taken. -/
theorem freeSlot?_eq_none_iff :
    t.freeSlot? n i = none ↔ ∀ j ∈ List.iterate t.geometry.below i n, (t.slots j).isSome = true := by
  induction n generalizing i with
  | zero => simp [freeSlot?]
  | succ n ih =>
    rw [freeSlot?, List.iterate, List.forall_mem_cons, ← ih, ← Option.not_isNone]
    cases (t.slots i).isNone <;> simp

/-- **No slot is found for an address** where its probes are taken. -/
theorem freeSlot?_eq_none_iff_probes (h : t.Sound) :
    t.freeSlot? attempts (t.geometry.slotOf address) = none ↔
      ∀ i ∈ t.geometry.probes address, (t.slots i).isSome = true := by
  obtain ⟨k, hsized⟩ := h.sized
  have hmem := fun j =>
    Geometry.mem_iterate_below_iff (j := j) (n := attempts) (Geometry.slotOf_inside hsized address)
  rw [freeSlot?_eq_none_iff]
  exact forall_congr' fun j => imp_congr_left (hmem j)

/-- Each idle instance takes one slot, so the probes of an address are not all taken by a few. -/
theorem exists_free_of_few (h : t.Sound) (hfew : t.idle.length < min attempts t.geometry.maxIndex) :
    ¬ ∀ i ∈ t.geometry.probes address, (t.slots i).isSome = true := by
  intro htaken
  obtain ⟨k, hsized⟩ := h.sized
  have hsubset : t.geometry.probes address ⊆ t.chain :=
    fun i hi => (h.occupied i).mpr (htaken i hi)
  have hle := (Geometry.nodup_probes hsized address).length_le_of_subset hsubset
  rw [Geometry.length_probes, ← length_idle h] at hle
  exact absurd hfew (Nat.not_lt.mpr hle)

end Table

/-! ## 3. Instances given back -/

variable {α : Type} {p : Pool α} {a : Placed α}

/-- A pool takes the instances of the right shape whose probes are not all taken. -/
theorem takes_iff (h : p.table.Sound) : p.Takes a ↔ p.policy.validate a.value = true ∧
    ¬ ∀ i ∈ p.table.geometry.probes a.address, (p.table.slots i).isSome = true := by
  rw [Takes, Option.isSome_iff_ne_none, Ne, Table.freeSlot?_eq_none_iff_probes h]

/-- **Where few instances are idle, one of the right shape is kept**, wherever it lives. -/
theorem takes_of_few (h : p.table.Sound) (hvalid : p.policy.validate a.value = true)
    (hfew : p.idle.length < min attempts p.table.geometry.maxIndex) : p.Takes a :=
  (takes_iff h).mpr ⟨hvalid, Table.exists_free_of_few h hfew⟩

/-- An instance that is taken comes on top of the idle ones, and no count changes. -/
theorem recycle_of_takes (h : p.table.Sound) (htakes : p.Takes a) :
    (p.recycle a).idle = a :: p.idle ∧ (p.recycle a).tally = p.tally := by
  rcases recycle_cases h a with ⟨hnot, _⟩ | ⟨t, _, hr, _, _, hidle⟩
  · exact absurd htakes hnot
  · rw [hr]
    exact ⟨hidle, rfl⟩

/-- **An instance of the right shape is destroyed** exactly where its probes are taken. -/
theorem recycle_eq_destroy_iff (h : p.table.Sound) (hvalid : p.policy.validate a.value = true) :
    p.recycle a = p.destroy ↔
      ∀ i ∈ p.table.geometry.probes a.address, (p.table.slots i).isSome = true := by
  rcases recycle_cases h a with ⟨hnot, hr⟩ | ⟨t, htakes, hr, _⟩
  · refine iff_of_true hr ?_
    by_contra hfree
    exact hnot ((takes_iff h).mpr ⟨hvalid, hfree⟩)
  · refine iff_of_false ?_ ((takes_iff h).mp htakes).2
    intro hdestroyed
    have hcount := congrArg (·.tally.destroyed) (hr.symm.trans hdestroyed)
    exact absurd hcount (Nat.ne_of_lt (Nat.lt_succ_self _))

end Sluice.Pool
