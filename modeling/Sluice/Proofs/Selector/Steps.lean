/-
  File:      Sluice/Proofs/Selector/Steps.lean
  Subject:   What something that happens to a selector makes of one selectable.

  * `enlisted`: whether a selectable is among the registrations after the selector was asked for it;
  * `touch`: the selectable in a place after something happened, and whether it is registered then;
  * **`apply_touch`**: that is all that happens in this place;
  * `apply_new`: a place that was empty holds a fresh selectable or nothing;
  * `closed_run`, **`failure_run`**: a selector stays closed, and a selectable keeps its failure.
-/
import Sluice.Selector.Reactor

namespace Sluice.Selector

/-- Whether a selectable is among the registrations after the selector was asked to watch for it, if it
    was among them before or not. -/
def Selectable.enlisted (x : Selectable) (closed listed : Bool) (refusal : Option OpError) : Bool :=
  if closed || x.registered then listed else refusal.isNone

namespace Reactor

variable {r : Reactor} {j k : Nat} {x y : Selectable} {refusal : Option OpError} {registered : Bool}

/-! ## 1. Places and registrations -/

theorem selectables_put_self (hx : r.selectables[k]? = some x) :
    (r.put k y).selectables[k]? = some y := by
  obtain ⟨hk, -⟩ := List.getElem?_eq_some_iff.mp hx
  exact List.getElem?_set_self hk

theorem selectables_put_ne (h : j ≠ k) : (r.put j y).selectables[k]? = r.selectables[k]? :=
  List.getElem?_set_ne h

@[simp] theorem registrations_put : (r.put k y).registrations = r.registrations := rfl

@[simp] theorem closed_put : (r.put k y).closed = r.closed := rfl

@[simp] theorem selectables_enrol : (r.enrol k registered refusal).selectables = r.selectables := by
  unfold enrol
  split
  · rfl
  · split <;> rfl

@[simp] theorem closed_enrol : (r.enrol k registered refusal).closed = r.closed := by
  unfold enrol
  split
  · rfl
  · split <;> rfl

theorem contains_list :
    (r.list k).registrations.contains j = (decide (j = k) || r.registrations.contains j) := by
  simp [list]

theorem contains_unlist :
    (r.unlist k).registrations.contains j = (decide (j ≠ k) && r.registrations.contains j) := by
  rw [Bool.eq_iff_iff]
  simp [unlist, and_comm]

theorem contains_enrol_self :
    (r.enrol k x.registered refusal).registrations.contains k =
      x.enlisted r.closed (r.registrations.contains k) refusal := by
  unfold enrol Selectable.enlisted
  by_cases hc : (r.closed || x.registered) = true
  · rw [if_pos hc, if_pos hc]
  · rw [if_neg hc, if_neg hc]
    cases refusal with
    | none =>
      rw [if_neg (by decide), contains_list, decide_eq_true rfl]
      rfl
    | some e =>
      rw [if_pos Option.isSome_some, contains_unlist, decide_eq_false (fun h => h rfl)]
      rfl

theorem contains_enrol_ne (h : k ≠ j) :
    (r.enrol j registered refusal).registrations.contains k = r.registrations.contains k := by
  have hlist : (r.list j).registrations.contains k = r.registrations.contains k := by
    rw [contains_list, decide_eq_false h, Bool.false_or]
  unfold enrol
  by_cases hc : (r.closed || registered) = true
  · rw [if_pos hc]
  · rw [if_neg hc]
    split
    · rw [contains_unlist, decide_eq_true h, Bool.true_and, hlist]
    · exact hlist

/-! ## 2. One selectable -/

/-- The selectable in a place after something happened to its selector, and whether it is among the
    registrations then. -/
def touch (r : Reactor) (k : Nat) (x : Selectable) (op : Op) : Selectable × Bool :=
  let listed := r.registrations.contains k
  match op with
  | .create _ => (x, listed)
  | .select j refusal i =>
    if j = k then ((x.select r.closed refusal i).2, x.enlisted r.closed listed refusal)
    else (x, listed)
  | .poll j refusal i =>
    if j = k then
      ((x.poll r.closed refusal i).2,
        if x.asks i then x.enlisted r.closed listed refusal else listed)
    else (x, listed)
  | .event j ready => (if j = k ∧ listed = true then x.fire ready else x, listed)
  | .notifyClosed j => if j = k then (x.notifyClosed, listed && !x.registered) else (x, listed)
  | .close => (if listed then x.fail .cancelled else x, false)

/-- A place is as it was. -/
def Same (r s : Reactor) (k : Nat) : Prop :=
  s.selectables[k]? = r.selectables[k]? ∧
    s.registrations.contains k = r.registrations.contains k

section Same

variable (h : j = k → r.selectables[k]? = none) (i : Interest) (ready : InterestSet)

include h

/-- Where there is a selectable, the place is another one. -/
theorem ne_of_some (hx : r.selectables[j]? = some x) : j ≠ k := by
  rintro rfl
  rw [h rfl] at hx
  cases hx

theorem same_select : Same r (r.select j refusal i).2 k := by
  unfold select
  split
  · exact ⟨rfl, rfl⟩
  · rename_i hx
    have hne := ne_of_some h hx
    refine ⟨?_, ?_⟩
    · rw [selectables_put_ne hne, selectables_enrol]
    · rw [registrations_put, contains_enrol_ne (Ne.symm hne)]

theorem same_poll : Same r (r.poll j refusal i).2 k := by
  unfold poll
  split
  · exact ⟨rfl, rfl⟩
  · rename_i hx
    have hne := ne_of_some h hx
    refine ⟨?_, ?_⟩
    · rw [selectables_put_ne hne]
      split
      · rw [selectables_enrol]
      · rfl
    · rw [registrations_put]
      split
      · rw [contains_enrol_ne (Ne.symm hne)]
      · rfl

theorem same_event : Same r (r.event j ready) k := by
  unfold event
  split
  · exact ⟨rfl, rfl⟩
  · rename_i hx
    split
    · exact ⟨selectables_put_ne (ne_of_some h hx), rfl⟩
    · exact ⟨rfl, rfl⟩

theorem same_notifyClosed : Same r (r.notifyClosed j) k := by
  unfold notifyClosed
  split
  · exact ⟨rfl, rfl⟩
  · rename_i hx
    have hne := ne_of_some h hx
    refine ⟨?_, ?_⟩
    · rw [selectables_put_ne hne]
      split <;> rfl
    · rw [registrations_put]
      split
      · rw [contains_unlist, decide_eq_true (Ne.symm hne), Bool.true_and]
      · rfl

end Same

/-- **What happens in a place** is what `touch` says. -/
theorem apply_touch (hx : r.selectables[k]? = some x) (op : Op) :
    (r.apply op).selectables[k]? = some (r.touch k x op).1 ∧
      (r.apply op).registrations.contains k = (r.touch k x op).2 := by
  have hother : ∀ {s : Reactor}, Same r s k → s.selectables[k]? = some x ∧
      s.registrations.contains k = r.registrations.contains k := fun hs => ⟨hs.1.trans hx, hs.2⟩
  cases op with
  | create d =>
    obtain ⟨hk, -⟩ := List.getElem?_eq_some_iff.mp hx
    refine ⟨?_, rfl⟩
    show (r.selectables ++ [_])[k]? = _
    rw [List.getElem?_append_left hk, hx]
    rfl
  | select j refusal i =>
    by_cases h : j = k
    · subst h
      simp only [apply, select, touch, hx, if_true]
      refine ⟨selectables_put_self (x := x) ?_, contains_enrol_self⟩
      rw [selectables_enrol]
      exact hx
    · simp only [touch, if_neg h]
      exact hother (same_select (fun e => absurd e h) i)
  | poll j refusal i =>
    by_cases h : j = k
    · subst h
      simp only [apply, poll, touch, hx, if_true]
      refine ⟨selectables_put_self (x := x) ?_, ?_⟩
      · split
        · rw [selectables_enrol]
          exact hx
        · exact hx
      · rw [registrations_put]
        split
        · exact contains_enrol_self
        · rfl
    · simp only [touch, if_neg h]
      exact hother (same_poll (fun e => absurd e h) i)
  | event j ready =>
    by_cases h : j = k
    · subst h
      simp only [apply, event, touch, hx, true_and]
      split
      · exact ⟨selectables_put_self hx, rfl⟩
      · exact ⟨hx, rfl⟩
    · simp only [touch, h, false_and, if_false]
      exact hother (same_event (fun e => absurd e h) ready)
  | notifyClosed j =>
    by_cases h : j = k
    · subst h
      simp only [apply, notifyClosed, touch, hx, if_true, registrations_put]
      cases x.registered with
      | true =>
        refine ⟨selectables_put_self (x := x) hx, ?_⟩
        rw [if_pos rfl, contains_unlist, decide_eq_false (fun h => h rfl), Bool.not_true,
          Bool.and_false, Bool.false_and]
      | false =>
        refine ⟨selectables_put_self (x := x) hx, ?_⟩
        rw [if_neg (by decide), Bool.not_false, Bool.and_true]
    · simp only [touch, if_neg h]
      exact hother (same_notifyClosed (fun e => absurd e h))
  | close =>
    refine ⟨?_, rfl⟩
    show (r.selectables.mapIdx _)[k]? = _
    rw [List.getElem?_mapIdx, hx]
    rfl

/-- A place that was empty holds a fresh selectable or nothing, and is not registered. -/
theorem apply_new (hx : r.selectables[k]? = none) (hk : r.registrations.contains k = false)
    (op : Op) :
    ((r.apply op).selectables[k]? = none ∨
        ∃ d, (r.apply op).selectables[k]? = some (.fresh d)) ∧
      (r.apply op).registrations.contains k = false := by
  have hempty : ∀ {s : Reactor}, Same r s k →
      (s.selectables[k]? = none ∨ ∃ d, s.selectables[k]? = some (.fresh d)) ∧
        s.registrations.contains k = false :=
    fun hs => ⟨.inl (hs.1.trans hx), hs.2.trans hk⟩
  cases op with
  | create d =>
    refine ⟨?_, hk⟩
    show (r.selectables ++ [_])[k]? = none ∨ ∃ d, (r.selectables ++ [_])[k]? = _
    rcases Nat.lt_or_eq_of_le (List.getElem?_eq_none_iff.mp hx) with hlt | rfl
    · left
      rw [List.getElem?_eq_none_iff, List.length_append]
      exact hlt
    · exact .inr ⟨d, List.getElem?_concat_length⟩
  | select j refusal i => exact hempty (same_select (fun _ => hx) i)
  | poll j refusal i => exact hempty (same_poll (fun _ => hx) i)
  | event j ready => exact hempty (same_event (fun _ => hx) ready)
  | notifyClosed j => exact hempty (same_notifyClosed (fun _ => hx))
  | close =>
    refine ⟨.inl ?_, rfl⟩
    show (r.selectables.mapIdx _)[k]? = none
    rw [List.getElem?_mapIdx, hx]
    rfl

/-! ## 3. What stays -/

/-- A selector is closed by closing it, and by nothing else. -/
theorem closed_apply (op : Op) : (r.apply op).closed = (r.closed || decide (op = .close)) := by
  cases op with
  | create d => simp [apply, create]
  | select j refusal i =>
    simp only [apply, select, reduceCtorEq, decide_false, Bool.or_false]
    split
    · rfl
    · rw [closed_put, closed_enrol]
  | poll j refusal i =>
    simp only [apply, poll, reduceCtorEq, decide_false, Bool.or_false]
    split
    · rfl
    · rw [closed_put]
      split
      · rw [closed_enrol]
      · rfl
  | event j ready =>
    simp only [apply, event, reduceCtorEq, decide_false, Bool.or_false]
    split
    · rfl
    · split <;> rfl
  | notifyClosed j =>
    simp only [apply, notifyClosed, reduceCtorEq, decide_false, Bool.or_false]
    split
    · rfl
    · rw [closed_put]
      split <;> rfl
  | close => simp [apply, close]

/-- A selectable that was failed stays so, with the failure that it had first. -/
theorem failure_touch {e : SelectError} (he : x.failure = some e) (op : Op) :
    (r.touch k x op).1.failure = some e := by
  have hfail : ∀ e', (x.fail e').failure = some e := by
    intro e'
    rw [Selectable.failure_fail, he, Option.getD_some]
  cases op with
  | create d => exact he
  | select j refusal i =>
    simp only [touch]
    split
    · unfold Selectable.select
      split
      · exact he
      · split
        · exact he
        · exact hfail _
    · exact he
  | poll j refusal i =>
    simp only [touch]
    split
    · rw [Selectable.poll_of_failure he]
      exact he
    · exact he
  | event j ready =>
    simp only [touch]
    split
    · exact he
    · exact he
  | notifyClosed j =>
    simp only [touch]
    split
    · show (x.failure.or _) = some e
      rw [he]
      rfl
    · exact he
  | close =>
    simp only [touch]
    split
    · exact hfail _
    · exact he

/-- **A failure is final**, whatever happens later. -/
theorem failure_run {e : SelectError} (hx : r.selectables[k]? = some x) (he : x.failure = some e)
    (ops : List Op) : ∃ y, (r.run ops).selectables[k]? = some y ∧ y.failure = some e := by
  induction ops generalizing r x with
  | nil => exact ⟨x, hx, he⟩
  | cons op ops ih => exact ih (apply_touch hx op).1 (failure_touch he op)

/-- A selector that was closed is closed. -/
theorem closed_run (ops : List Op) :
    (r.run ops).closed = (r.closed || decide (.close ∈ ops)) := by
  induction ops generalizing r with
  | nil => simp [run]
  | cons op ops ih =>
    have hmem : op = .close ∨ .close ∈ ops ↔ .close ∈ op :: ops := by
      rw [List.mem_cons, eq_comm]
    show ((r.apply op).run ops).closed = _
    rw [ih, closed_apply, Bool.or_assoc, ← Bool.decide_or, decide_eq_decide.mpr hmem]

end Reactor

end Sluice.Selector
