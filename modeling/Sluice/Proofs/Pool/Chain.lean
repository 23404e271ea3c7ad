/-
  File:      Sluice/Proofs/Pool/Chain.lean
  Subject:   The chain through a slot table is the stack of what lies in it.

  Slots are chosen by the hash of an address, in any order, and the next slot of a slot that has
  become free stays what it was. What makes a stack of them is that the chain meets each occupied
  slot once, and no other.

  * `Linked`: a walk along the next slots, up to slot 0;
  * `Table.Sound`: the chain from the top on is such a walk, through the occupied slots;
  * `sound_push`, `sound_pop`: a slot comes onto the chain, and the first one off it;
  * **`tryPush_cases`**, **`tryPop_cases`**: an instance is put on top of the idle ones, or not taken;
    and the topmost one is taken off, if there is one;
  * `drain_eq`: taking off as long as there are any yields all of them, in their order.
-/
import Sluice.Pool.Table
import Sluice.Proofs.Pool.Geometry

namespace Sluice.Pool

/-! ## 1. Walks -/

/-- From slot `i` the next slots are those of the list, and then slot 0. -/
def Linked (next : Nat → Nat) : Nat → List Nat → Prop
  | i, [] => i = 0
  | i, j :: l => i = j ∧ Linked next (next j) l

section Walks

variable {next next' : Nat → Nat} {i j : Nat} {l : List Nat}

/-- A walk depends on the slots it meets only. -/
theorem Linked.congr (h : Linked next i l) (hnext : ∀ j ∈ l, next' j = next j) :
    Linked next' i l := by
  induction l generalizing i with
  | nil => exact h
  | cons j l ih =>
    obtain ⟨rfl, h⟩ := h
    refine ⟨rfl, ?_⟩
    rw [hnext _ List.mem_cons_self]
    exact ih h fun j hj => hnext j (List.mem_cons_of_mem _ hj)

end Walks

/-- What lies in some slots does not depend on the other ones. -/
theorem filterMap_setAt {β : Type} {f : Nat → Option β} {i : Nat} {l : List Nat} {b : Option β}
    (h : ∀ j ∈ l, j ≠ i) : l.filterMap (setAt f i b) = l.filterMap f := by
  induction l with
  | nil => rfl
  | cons j l ih =>
    rw [List.filterMap_cons, List.filterMap_cons, setAt_ne _ _ (h j List.mem_cons_self),
      ih fun j hj => h j (List.mem_cons_of_mem _ hj)]

namespace Table

variable {α : Type} {t u : Table α} {a : Placed α} {i j n k : Nat} {l : List Nat}

/-- A walk that meets no slot 0 is the chain from its start on. -/
theorem chainFrom_eq (h : Linked t.next i l) (hpos : ∀ j ∈ l, j ≠ 0) (hn : l.length ≤ n) :
    t.chainFrom n i = l := by
  induction n generalizing i l with
  | zero => rw [List.length_eq_zero_iff.mp (Nat.le_zero.mp hn), chainFrom]
  | succ n ih =>
    cases l with
    | nil =>
      obtain rfl : i = 0 := h
      rfl
    | cons j l =>
      obtain ⟨rfl, h⟩ := h
      rw [chainFrom, if_neg (hpos _ List.mem_cons_self),
        ih h (fun j hj => hpos j (List.mem_cons_of_mem _ hj)) (Nat.le_of_succ_le_succ hn)]

/-- **What holds of a slot table**: from the top on, the next slots are those of the chain, up to
    slot 0; each slot that holds an instance is in it once, and no other slot. -/
structure Sound (t : Table α) : Prop where
  sized : ∃ k, t.geometry.Sized k
  linked : Linked t.next (Top.slot t.top) t.chain
  nodup : t.chain.Nodup
  occupied : ∀ i, i ∈ t.chain ↔ (t.slots i).isSome = true
  inside : ∀ i ∈ t.chain, t.geometry.Inside i

/-- Different slots of a table are no more than it has. -/
theorem length_le_maxIndex {g : Geometry} (hnodup : l.Nodup) (hinside : ∀ i ∈ l, g.Inside i) :
    l.length ≤ g.maxIndex := by
  have hsubset : l ⊆ List.range' 1 g.maxIndex := by
    intro i hi
    obtain ⟨hlow, hhigh⟩ := hinside i hi
    rw [List.mem_range'_1]
    omega
  have hle := hnodup.length_le_of_subset hsubset
  rwa [List.length_range'] at hle

/-- A walk from the top on, through the occupied slots, is the chain. -/
theorem sound_of_linked (hsized : t.geometry.Sized k) (hlinked : Linked t.next (Top.slot t.top) l)
    (hnodup : l.Nodup) (hoccupied : ∀ i, i ∈ l ↔ (t.slots i).isSome = true)
    (hinside : ∀ i ∈ l, t.geometry.Inside i) : t.Sound ∧ t.chain = l := by
  have hchain : t.chain = l :=
    chainFrom_eq hlinked (fun j hj => Nat.ne_of_gt (hinside j hj).1)
      (length_le_maxIndex hnodup hinside)
  refine ⟨⟨⟨k, hsized⟩, ?_, ?_, ?_, ?_⟩, hchain⟩ <;> rw [hchain]
  · exact hlinked
  · exact hnodup
  · exact hoccupied
  · exact hinside

theorem sound_empty {g : Geometry} (hsized : g.Sized k) :
    (empty g : Table α).Sound ∧ (empty g : Table α).idle = [] := by
  obtain ⟨hsound, hchain⟩ := sound_of_linked (t := (empty g : Table α)) (l := []) hsized
    Top.slot_zero List.nodup_nil (fun i => ⟨nofun, nofun⟩) nofun
  exact ⟨hsound, by rw [idle, hchain, List.filterMap_nil]⟩

/-- There are as many idle instances as slots in the chain. -/
theorem length_idle (h : t.Sound) : t.idle.length = t.chain.length := by
  have hall : ∀ i ∈ t.chain, (t.slots i).isSome = true := fun i => (h.occupied i).mp
  unfold idle
  generalize t.chain = l at hall ⊢
  induction l with
  | nil => rfl
  | cons i l ih =>
    obtain ⟨a, ha⟩ := Option.isSome_iff_exists.mp (hall i List.mem_cons_self)
    rw [List.filterMap_cons_some ha, List.length_cons, List.length_cons,
      ih fun j hj => hall j (List.mem_cons_of_mem _ hj)]

/-- **There are no more idle instances than slots.** -/
theorem length_idle_le (h : t.Sound) : t.idle.length ≤ t.geometry.maxIndex := by
  rw [length_idle h]
  exact length_le_maxIndex h.nodup h.inside

/-! ## 2. Pushing -/

/-- A free slot that is found is free, and one of the table. -/
theorem freeSlot?_eq_some (hsized : t.geometry.Sized k) (hi : t.geometry.Inside i)
    (h : t.freeSlot? n i = some j) : t.slots j = none ∧ t.geometry.Inside j := by
  induction n generalizing i with
  | zero => cases h
  | succ n ih =>
    rw [freeSlot?] at h
    split at h
    · rename_i hfree
      cases h
      exact ⟨Option.isNone_iff_eq_none.mp hfree, hi⟩
    · exact ih (Geometry.below_inside hsized hi) h

/-- A slot with an instance in it comes onto the chain. -/
theorem sound_push (h : t.Sound) (hfree : t.slots i = none) (hi : t.geometry.Inside i)
    (hgeometry : u.geometry = t.geometry) (htop : Top.slot u.top = i)
    (hslots : u.slots = setAt t.slots i (some a))
    (hnext : u.next = setAt t.next i (Top.slot t.top)) : u.Sound ∧ u.idle = a :: t.idle := by
  obtain ⟨k, hsized⟩ := h.sized
  have hnot : i ∉ t.chain := by
    rw [h.occupied, hfree]
    exact nofun
  have hne : ∀ j ∈ t.chain, j ≠ i := by
    rintro j hj rfl
    exact hnot hj
  have hlinked : Linked u.next (Top.slot u.top) (i :: t.chain) := by
    refine ⟨htop, ?_⟩
    rw [hnext, setAt_same]
    exact h.linked.congr fun j hj => setAt_ne _ _ (hne j hj)
  have hoccupied : ∀ j, j ∈ i :: t.chain ↔ (u.slots j).isSome = true := by
    intro j
    rw [List.mem_cons, hslots]
    by_cases hj : j = i
    · rw [hj, setAt_same]
      exact ⟨fun _ => rfl, fun _ => .inl rfl⟩
    · rw [setAt_ne _ _ hj, h.occupied]
      exact ⟨fun hor => hor.resolve_left hj, .inr⟩
  have hinside : ∀ j ∈ i :: t.chain, u.geometry.Inside j := by
    rw [hgeometry]
    exact List.forall_mem_cons.mpr ⟨hi, h.inside⟩
  obtain ⟨hsound, hchain⟩ := sound_of_linked (hgeometry ▸ hsized) hlinked
    (List.nodup_cons.mpr ⟨hnot, h.nodup⟩) hoccupied hinside
  have hhead : u.slots i = some a := by rw [hslots, setAt_same]
  refine ⟨hsound, ?_⟩
  rw [idle, hchain, List.filterMap_cons_some hhead, hslots, idle, filterMap_setAt hne]

/-- A slot on top of the chain, field by field. -/
theorem pushTop_eq (t : Table α) (slots : Nat → Option (Placed α)) (i : Nat) :
    { t with slots }.pushTop i =
      ⟨t.geometry, Top.pack (Top.nextVersion t.top) i, slots, setAt t.next i (Top.slot t.top)⟩ :=
  rfl

/-- **An instance is put on top of the idle ones**, if one of the slots that are tried is free. -/
theorem tryPush_cases (h : t.Sound) (a : Placed α) :
    (t.freeSlot? attempts (t.geometry.slotOf a.address) = none ∧ t.tryPush a = none) ∨
      ∃ i u, t.freeSlot? attempts (t.geometry.slotOf a.address) = some i ∧
        t.tryPush a = some u ∧ u.Sound ∧ u.geometry = t.geometry ∧ u.idle = a :: t.idle := by
  obtain ⟨k, hsized⟩ := h.sized
  unfold tryPush
  cases hslot : t.freeSlot? attempts (t.geometry.slotOf a.address) with
  | none => exact .inl ⟨rfl, rfl⟩
  | some i =>
    obtain ⟨hfree, hi⟩ := freeSlot?_eq_some hsized (Geometry.slotOf_inside hsized _) hslot
    have htop := (Top.pack_nextVersion t.top (Geometry.lt_size_of_inside hsized hi)).1
    refine .inr ⟨i, _, rfl, rfl, ?_⟩
    rw [pushTop_eq]
    -- A comparison of tables must not look into the word.
    generalize Top.pack (Top.nextVersion t.top) i = w at htop ⊢
    obtain ⟨hsound, hidle⟩ := sound_push
      (u := ⟨t.geometry, w, setAt t.slots i (some a), setAt t.next i (Top.slot t.top)⟩)
      h hfree hi rfl htop rfl rfl
    exact ⟨hsound, rfl, hidle⟩

/-! ## 3. Popping -/

/-- The top of the chain comes off where there is one. -/
theorem popTop_eq (t : Table α) :
    t.popTop = if Top.slot t.top = 0 then none
      else some (Top.slot t.top,
        { t with top := Top.pack (Top.nextVersion t.top) (t.next (Top.slot t.top)) }) := by
  unfold popTop
  by_cases htop : t.top = 0
  · rw [if_pos htop, htop]
    rfl
  · rw [if_neg htop]

/-- The slot on top of a chain comes off it, and the instance out of it. -/
theorem sound_pop (h : t.Sound) (hchain : t.chain = i :: l) (hslot : t.slots i = some a)
    (hgeometry : u.geometry = t.geometry) (htop : Top.slot u.top = t.next i)
    (hslots : u.slots = setAt t.slots i none) (hnext : u.next = t.next) :
    u.Sound ∧ t.idle = a :: u.idle := by
  obtain ⟨k, hsized⟩ := h.sized
  have hlinked := h.linked
  have hnodup := h.nodup
  have hinside := h.inside
  rw [hchain] at hlinked hnodup hinside
  obtain ⟨hnot, hnodup⟩ := List.nodup_cons.mp hnodup
  have hne : ∀ j ∈ l, j ≠ i := by
    rintro j hj rfl
    exact hnot hj
  have hoccupied : ∀ j, j ∈ l ↔ (u.slots j).isSome = true := by
    intro j
    rw [hslots]
    by_cases hj : j = i
    · rw [hj, setAt_same]
      exact ⟨fun hmem => absurd hmem hnot, nofun⟩
    · rw [setAt_ne _ _ hj, ← h.occupied, hchain, List.mem_cons]
      exact ⟨.inr, fun hor => hor.resolve_left hj⟩
  obtain ⟨hsound, hchain'⟩ := sound_of_linked (t := u) (hgeometry ▸ hsized)
    (by rw [hnext, htop]; exact hlinked.2) hnodup hoccupied
    (by rw [hgeometry]; exact fun j hj => hinside j (List.mem_cons_of_mem _ hj))
  refine ⟨hsound, ?_⟩
  rw [idle, hchain, List.filterMap_cons_some hslot, idle, hchain', hslots, filterMap_setAt hne]

/-- The slot under the topmost one fits into half a top word. -/
theorem next_lt_size (h : t.Sound) (hchain : t.chain = i :: l) : t.next i < UInt32.size := by
  obtain ⟨k, hsized⟩ := h.sized
  have hlinked := h.linked
  have hinside := h.inside
  rw [hchain] at hlinked hinside
  cases l with
  | nil =>
    have hlast : t.next i = 0 := hlinked.2
    rw [hlast]
    exact Nat.succ_pos _
  | cons j l =>
    rw [hlinked.2.1]
    exact Geometry.lt_size_of_inside hsized
      (hinside j (List.mem_cons_of_mem _ List.mem_cons_self))

/-- **A pop never finds an empty slot.** -/
theorem slot_of_popTop (h : t.Sound) (hp : t.popTop = some (i, u)) :
    (u.slots i).isSome = true ∧ ∃ l, t.chain = i :: l := by
  rw [popTop_eq] at hp
  split at hp
  · cases hp
  · rename_i hne
    cases hp
    have hlinked := h.linked
    cases hchain : t.chain with
    | nil =>
      rw [hchain] at hlinked
      exact absurd hlinked hne
    | cons j l =>
      rw [hchain] at hlinked
      obtain ⟨rfl, _⟩ := hlinked
      refine ⟨(h.occupied _).mp ?_, l, rfl⟩
      rw [hchain]
      exact List.mem_cons_self

/-- **The topmost idle instance is taken off**, if there is one. -/
theorem tryPop_cases (h : t.Sound) :
    (t.tryPop = (none, t) ∧ t.idle = []) ∨
      ∃ a u, t.tryPop = (some a, u) ∧ u.Sound ∧ u.geometry = t.geometry ∧ t.idle = a :: u.idle := by
  unfold tryPop
  cases hp : t.popTop with
  | none =>
    refine .inl ⟨rfl, ?_⟩
    rw [popTop_eq] at hp
    split at hp
    · rename_i hzero
      have hlinked := h.linked
      cases hchain : t.chain with
      | nil => rw [idle, hchain, List.filterMap_nil]
      | cons j l =>
        rw [hchain, hzero] at hlinked
        have hpos := (h.inside j (by rw [hchain]; exact List.mem_cons_self)).1
        rw [← hlinked.1] at hpos
        cases hpos
    · cases hp
  | some p =>
    obtain ⟨i, u⟩ := p
    obtain ⟨hsome, l, hchain⟩ := slot_of_popTop h hp
    obtain ⟨a, ha⟩ := Option.isSome_iff_exists.mp hsome
    rw [popTop_eq] at hp
    split at hp
    · cases hp
    · obtain ⟨rfl, rfl⟩ := Prod.mk.inj (Option.some.inj hp)
      have htop := (Top.pack_nextVersion t.top (next_lt_size h hchain)).1
      obtain ⟨hsound, hidle⟩ := sound_pop
        (u := ⟨t.geometry, Top.pack (Top.nextVersion t.top) (t.next (Top.slot t.top)),
          setAt t.slots (Top.slot t.top) none, t.next⟩) h hchain ha rfl htop rfl rfl
      exact .inr ⟨a, _, congrArg (·, _) ha, hsound, rfl, hidle⟩

/-! ## 4. Taking all -/

/-- The instances that come out of a table, at most `n` of them, one after the other. -/
def drain (t : Table α) : Nat → List (Placed α)
  | 0 => []
  | n + 1 =>
    match t.tryPop with
    | (none, _) => []
    | (some a, t) => a :: t.drain n

/-- **All idle instances come out**, each of them once, the topmost first. -/
theorem drain_eq (h : t.Sound) (hn : t.idle.length ≤ n) : t.drain n = t.idle := by
  induction n generalizing t with
  | zero => rw [List.length_eq_zero_iff.mp (Nat.le_zero.mp hn), drain]
  | succ n ih =>
    rw [drain]
    rcases tryPop_cases h with ⟨hp, hidle⟩ | ⟨a, u, hp, hsound, _, hidle⟩
    · rw [hp, hidle]
    · rw [hp, hidle]
      rw [hidle, List.length_cons] at hn
      exact congrArg (a :: ·) (ih hsound (Nat.le_of_succ_le_succ hn))

end Table

end Sluice.Pool
