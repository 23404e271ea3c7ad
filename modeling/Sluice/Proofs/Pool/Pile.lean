/-
  File:      Sluice/Proofs/Pool/Pile.lean
  Subject:   With few idle instances a pool is a plain stack, whatever their addresses.

  * `Pile`: instances without addresses, those that are idle on one stack;
  * `Pile.step`, `Pile.run`: what the uses of a pool do to it, where every instance of the right shape
    is kept;
  * `Ledger.pile`: what a ledger shows once the addresses and the slots are forgotten;
  * `pile_borrow`, `pile_give`, `pile_dispose`, **`pile_step`**: a use shows as a use of the pile;
  * `run_pile`: so does a sequence of uses, each of which finds few instances idle;
  * `Stacked`, **`stacked_ofCapacity`**: which slots are tried, when an instance is kept, and that the
    answers are those of the pile.
-/
import Sluice.Proofs.Pool.Ledger
import Sluice.Proofs.Pool.Probing

namespace Sluice.Pool

/-- A use gives an instance back to the pool. -/
def Use.gives {α : Type} : Use α → Bool
  | .recycle _ _ | .bring _ => true
  | .borrow | .dispose => false

/-! ## 1. The pile -/

/-- Instances that are idle, the next one to be borrowed first, those that are borrowed, how many were
    brought in, which ones were destroyed, what was done so far, and how many uses there were. -/
structure Pile (α : Type) where
  idle : List (Traced α)
  borrowed : List (Traced α)
  brought : Nat
  destroyed : List Origin
  tally : Tally
  time : Nat

namespace Pile

variable {α : Type}

/-- Nothing is there. -/
def empty : Pile α := ⟨[], [], 0, [], ⟨0, 0, 0⟩, 0⟩

/-- Somebody takes the topmost idle instance, cleared, or a new one where nothing is idle. -/
def borrow (policy : Policy α) (p : Pile α) : Pile α :=
  match p.idle with
  | [] =>
    let n := p.tally.produced + 1
    { p with
      borrowed := ⟨.made n, 0, policy.produce n⟩ :: p.borrowed
      tally := { p.tally with produced := n } }
  | a :: idle =>
    { p with
      idle
      borrowed := { a with value := policy.clear a.value } :: p.borrowed
      tally := { p.tally with cleared := p.tally.cleared + 1 } }

/-- Somebody has an instance from elsewhere. -/
def enter (p : Pile α) (value : α) : Pile α :=
  let n := p.brought + 1
  { p with brought := n, borrowed := ⟨.brought n, 0, value⟩ :: p.borrowed }

/-- The `k`-th of the borrowed instances comes on top of the idle ones, with some value in it. One
    that has not the right shape is destroyed. -/
def give (policy : Policy α) (p : Pile α) (k : Nat) (value : α) : Pile α :=
  match p.borrowed[k]? with
  | none => p
  | some a =>
    if policy.validate value then
      { p with
        idle := ⟨a.origin, p.time, value⟩ :: p.idle
        borrowed := p.borrowed.eraseIdx k }
    else
      { p with
        borrowed := p.borrowed.eraseIdx k
        destroyed := a.origin :: p.destroyed
        tally := { p.tally with destroyed := p.tally.destroyed + 1 } }

/-- Everything that is idle is destroyed. -/
def dispose (p : Pile α) : Pile α :=
  { p with
    idle := []
    destroyed := p.idle.map (·.origin) ++ p.destroyed
    tally := { p.tally with destroyed := p.tally.destroyed + p.idle.length } }

/-- One use. -/
def step (policy : Policy α) (p : Pile α) (u : Use α) : Pile α :=
  let p := { p with time := p.time + 1 }
  match u with
  | .borrow => p.borrow policy
  | .recycle k value => p.give policy k value
  | .bring value => (p.enter value).give policy 0 value
  | .dispose => p.dispose

/-- A sequence of uses. -/
def run (policy : Policy α) (p : Pile α) (uses : List (Use α)) : Pile α :=
  uses.foldl (step policy) p

end Pile

/-! ## 2. What a ledger shows -/

namespace Ledger

variable {α : Type} {policy : Policy α} {g : Geometry} {place : Origin → UInt64} {l : Ledger α}
  {k : Nat}

/-- A ledger without addresses and slots. -/
def pile (l : Ledger α) : Pile α :=
  ⟨l.pool.idle.map (·.value), l.borrowed.map (·.value), l.brought, l.destroyed, l.pool.tally, l.time⟩

theorem length_idle_pile (l : Ledger α) : l.pile.idle.length = l.pool.idle.length :=
  List.length_map _

theorem pile_opened {capacity : Nat} {pool : Pool (Traced α)}
    (h : Pool.ofCapacity capacity policy.traced = .ok pool) : (opened pool).pile = .empty := by
  obtain ⟨⟨_, _, htally, hidle⟩, _⟩ := Pool.sound_ofCapacity h
  simp only [pile, opened, hidle, htally]
  rfl

theorem pile_borrow (h : l.Sound policy g place) :
    (l.use place .borrow).pile = l.pile.borrow policy := by
  rcases borrow_cases h with ⟨hidle, hb⟩ | ⟨a, t, hidle, _, _, hb⟩
  · have hpile : l.pile.idle = [] := by rw [pile, hidle, List.map_nil]
    rw [hb, Pile.borrow]
    split
    · rfl
    · rename_i hcons
      cases hpile.symm.trans hcons
  · have hpile : l.pile.idle = a.value :: t.idle.map (·.value) := by rw [pile, hidle, List.map_cons]
    rw [hb, Pile.borrow, hpile]
    rfl

theorem pile_give (h : l.Sound policy g place) (value : α)
    (hfew : l.pool.idle.length < min attempts g.maxIndex) :
    (l.give k value).pile = l.pile.give policy k value := by
  by_cases hk : k < l.borrowed.length
  · have hpile : l.pile.borrowed[k]? = some l.borrowed[k].value := by
      rw [pile, List.getElem?_map, List.getElem?_eq_getElem hk, Option.map_some]
    rw [Pile.give, hpile]
    rcases give_cases h hk value with ⟨hnot, hg⟩ | ⟨t, htakes, _, _, hidle, hg⟩
    · -- There is room for one of the right shape, so this one has another shape.
      have hinvalid : policy.validate value = false := by
        rw [← Bool.not_eq_true]
        intro hvalid
        refine hnot (Pool.takes_of_few h.table ?_ (h.geometry_eq ▸ hfew))
        rwa [h.policy_eq]
      rw [hg, pile]
      simp only [hinvalid, Bool.false_eq_true, if_false]
      rw [← List.eraseIdx_map]
      rfl
    · have hvalid : policy.validate value = true := by
        have := htakes.1
        rwa [h.policy_eq] at this
      rw [hg, pile]
      simp only [hvalid, if_true, Pool.idle_mk, hidle, List.map_cons]
      rw [← List.eraseIdx_map]
      rfl
  · have hpile : l.pile.borrowed[k]? = none := by
      rw [pile, List.getElem?_map, List.getElem?_eq_none (Nat.le_of_not_lt hk), Option.map_none]
    rw [give_eq_self hk, Pile.give, hpile]

theorem pile_dispose (h : l.Sound policy g place) :
    (l.use place .dispose).pile = l.pile.dispose := by
  obtain ⟨t, _, _, hidle, hd⟩ := dispose_eq h
  rw [hd, pile, Pool.idle_mk, hidle, Pile.dispose, pile]
  simp only [List.map_nil, List.length_map, List.map_map]
  rfl

/-- **A use shows as a use of the pile**, if one that gives an instance back finds few of them idle. -/
theorem pile_step (h : l.Sound policy g place) (u : Use α)
    (hfew : u.gives = true → l.pool.idle.length < min attempts g.maxIndex) :
    (l.step place u).pile = l.pile.step policy u := by
  have hlater := sound_later h
  cases u with
  | borrow => exact pile_borrow hlater
  | recycle k value => exact pile_give hlater value (hfew rfl)
  | bring value => exact pile_give (sound_enter hlater value) value (hfew rfl)
  | dispose => exact pile_dispose hlater

theorem run_cons (place : Origin → UInt64) (l : Ledger α) (u : Use α) (uses : List (Use α)) :
    l.run place (u :: uses) = (l.step place u).run place uses := rfl

end Ledger

/-! ## 3. Histories -/

/-- Each use that gives an instance back finds less than `room` of them idle, where `idle` says how
    many are after a part of the history. -/
def FewIdle {α : Type} (room : Nat) (idle : List (Use α) → Nat) (uses : List (Use α)) : Prop :=
  ∀ before u after, uses = before ++ u :: after → u.gives = true → idle before < room

section FewIdle

variable {α : Type} {room : Nat} {idle : List (Use α) → Nat} {u : Use α} {uses before : List (Use α)}

theorem fewIdle_nil : FewIdle room idle [] := by
  intro before u after huses
  simp at huses

theorem fewIdle_cons : FewIdle room idle (u :: uses) ↔
    (u.gives = true → idle [] < room) ∧ FewIdle room (fun before => idle (u :: before)) uses := by
  constructor
  · intro h
    refine ⟨h [] u uses rfl, ?_⟩
    rintro before v after rfl hv
    exact h (u :: before) v after rfl hv
  · rintro ⟨hfirst, hlater⟩ before v after huses hv
    cases before with
    | nil =>
      cases huses
      exact hfirst hv
    | cons w before =>
      obtain ⟨rfl, rfl⟩ := List.cons.inj huses
      exact hlater before v after rfl hv

theorem FewIdle.mono (h : FewIdle room idle uses) (hbefore : before <+: uses) :
    FewIdle room idle before := by
  obtain ⟨after, rfl⟩ := hbefore
  rintro first u last rfl hu
  exact h first u (last ++ after) (List.append_assoc ..) hu

end FewIdle

namespace Ledger

variable {α : Type} {policy : Policy α} {g : Geometry} {place : Origin → UInt64} {l : Ledger α}
  {uses : List (Use α)}

/-- **A sequence of uses shows as one of the pile**, if few instances are idle there. -/
theorem run_pile (h : l.Sound policy g place)
    (hfew : FewIdle (min attempts g.maxIndex) (fun before => (l.pile.run policy before).idle.length)
      uses) : (l.run place uses).pile = l.pile.run policy uses := by
  induction uses generalizing l with
  | nil => rfl
  | cons u uses ih =>
    obtain ⟨hfirst, hlater⟩ := fewIdle_cons.mp hfew
    have hstep := pile_step h u fun hu => (length_idle_pile l).symm.trans_lt (hfirst hu)
    rw [run_cons, ih (sound_step h u) (hstep ▸ hlater), hstep]
    rfl

/-- Few instances are idle on the pile, if few are idle in the pool, at some addresses. -/
theorem fewIdle_pile (h : l.Sound policy g place)
    (hfew : FewIdle (min attempts g.maxIndex) (fun before => (l.run place before).pool.idle.length)
      uses) :
    FewIdle (min attempts g.maxIndex) (fun before => (l.pile.run policy before).idle.length)
      uses := by
  induction uses generalizing l with
  | nil => exact fewIdle_nil
  | cons u uses ih =>
    obtain ⟨hfirst, hlater⟩ := fewIdle_cons.mp hfew
    have hstep := pile_step h u hfirst
    refine fewIdle_cons.mpr ⟨fun hu => (length_idle_pile l).trans_lt (hfirst hu), ?_⟩
    have hpile := ih (sound_step h u) hlater
    rw [hstep] at hpile
    exact hpile

end Ledger

/-! ## 4. Pools -/

/-- **How a pool keeps instances**, and when it is a plain stack. -/
structure Stacked {α : Type} (policy : Policy α) (pool : Pool (Traced α)) : Prop where
  /-- An instance has that many probes, wherever it lives. -/
  probed : ∀ address, (pool.table.geometry.probes address).length =
    min attempts pool.table.geometry.maxIndex
  /-- They are different slots. -/
  apart : ∀ address, (pool.table.geometry.probes address).Nodup
  /-- They are slots of the table. -/
  inside : ∀ address, ∀ i ∈ pool.table.geometry.probes address,
    1 ≤ i ∧ i ≤ pool.table.geometry.maxIndex
  /-- After any uses an instance of the right shape is destroyed exactly where all of its probes are
      taken. -/
  destroyed : ∀ place uses (a : Placed (Traced α)), policy.validate a.value.value = true →
    let p := ((Ledger.opened pool).run place uses).pool
    p.recycle a = p.destroy ↔
      ∀ i ∈ pool.table.geometry.probes a.address, (p.table.slots i).isSome = true
  /-- With fewer instances idle than it has probes, it is kept. -/
  kept : ∀ place uses (a : Placed (Traced α)), policy.validate a.value.value = true →
    let p := ((Ledger.opened pool).run place uses).pool
    p.idle.length < min attempts pool.table.geometry.maxIndex →
      (p.recycle a).idle = a :: p.idle ∧ (p.recycle a).tally = p.tally
  /-- If each use that gives an instance back finds so few idle, where the instances live somewhere,
      then all the time the pool shows what the pile shows, wherever they live. -/
  stack : ∀ place uses,
    FewIdle (min attempts pool.table.geometry.maxIndex)
      (fun before => ((Ledger.opened pool).run place before).pool.idle.length) uses →
    ∀ place' before, before <+: uses →
      ((Ledger.opened pool).run place' before).pile = Pile.empty.run policy before

/-- **With few idle instances a pool is a plain stack**, for every capacity. -/
theorem stacked_ofCapacity {α : Type} {policy : Policy α} {capacity : Nat} {pool : Pool (Traced α)}
    (h : Pool.ofCapacity capacity policy.traced = .ok pool) : Stacked policy pool := by
  have hopened : ∀ place, (Ledger.opened pool).Sound policy pool.table.geometry place := fun _ =>
    Ledger.sound_opened h
  have hrun := fun place uses => Ledger.sound_run (hopened place) uses
  obtain ⟨⟨htable, _⟩, _⟩ := Pool.sound_ofCapacity h
  obtain ⟨k, hsized⟩ := htable.sized
  constructor
  case probed => exact pool.table.geometry.length_probes
  case apart => exact Geometry.nodup_probes hsized
  case inside => exact Geometry.inside_probes hsized
  case destroyed =>
    intro place uses a hvalid p
    have hp := hrun place uses
    rw [← hp.geometry_eq]
    exact Pool.recycle_eq_destroy_iff hp.table (by rwa [hp.policy_eq])
  case kept =>
    intro place uses a hvalid p hfew
    have hp := hrun place uses
    rw [← hp.geometry_eq] at hfew
    exact Pool.recycle_of_takes hp.table
      (Pool.takes_of_few hp.table (by rwa [hp.policy_eq]) hfew)
  case stack =>
    intro place uses hfew place' before hbefore
    have hpile := (Ledger.fewIdle_pile (hopened place) hfew).mono hbefore
    rw [← Ledger.pile_opened h]
    exact Ledger.run_pile (hopened place') hpile

theorem stacked_pair : Pool.ofCapacity 1 Policy.marked.traced = .ok Ledger.forOne ∧
    FewIdle 4 (fun before => ((Ledger.opened Ledger.forOne).run Ledger.inARow before).pool.idle.length)
      Ledger.pair ∧
    ∀ place, ((Ledger.opened Ledger.forOne).run place Ledger.pair).pile =
      Pile.empty.run Policy.marked Ledger.pair := by
  have hfew : FewIdle 4
      (fun before => ((Ledger.opened Ledger.forOne).run Ledger.inARow before).pool.idle.length)
      Ledger.pair := by
    simp only [Ledger.pair, fewIdle_cons, fewIdle_nil]
    decide +kernel
  have hstacked := stacked_ofCapacity Ledger.forOne_eq
  exact ⟨Ledger.forOne_eq, hfew, fun place =>
    hstacked.stack Ledger.inARow Ledger.pair hfew place _ (List.prefix_refl _)⟩

end Sluice.Pool
