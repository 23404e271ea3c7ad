/-
  File:      Sluice/Proofs/Selector/Readiness.lean
  Subject:   Readiness is reported once and never made up, and failures are final.

  * `fired_touch`, `armed_touch`: how a kind comes to have fired, and to be armed;
  * `after`, `exists_since`: a selector at each moment of a history, and when what holds of it began;
  * `Arms`, `Strikes`, `Reports`: the moments when a look suspends, readiness comes for it, and a look
    reports it; **`exists_cause`**: each report has its own cause;
  * `event_erase`: readiness of a kind that is not armed is as if it had not come;
  * `brings`, `failures`: the failures that come to a selectable; **`failureAt_run`**: it keeps the
    first;
  * `Shut`, `notifyClosed_of_shut`: a descriptor that is closed is closed;
  * **`run_reports`**: all of this, for any history.
-/
import Mathlib.Data.Set.Function
import Sluice.Proofs.Selector.Suspended

namespace Sluice.Selector

/-! ## 1. One selectable -/

namespace Selectable

variable {closed : Bool} {refusal : Option OpError} {x : Selectable} {i j : Interest}

@[simp] theorem fired_fail (x : Selectable) (e : SelectError) : (x.fail e).fired = x.fired := rfl

@[simp] theorem armed_fail (x : Selectable) (e : SelectError) : (x.fail e).armed = .empty := rfl

theorem fired_select (x : Selectable) (closed : Bool) (refusal : Option OpError) (j : Interest) :
    (x.select closed refusal j).2.fired = x.fired := by
  unfold select
  split
  · rfl
  · split <;> rfl

/-- Asking the selector arms nothing. -/
theorem armed_of_select (h : (x.select closed refusal j).2.armed.contains i = true) :
    x.armed.contains i = true := by
  unfold select at h
  split at h
  · exact h
  · split at h
    · exact h
    · rw [armed_fail, InterestSet.contains_empty] at h
      cases h

/-- A look takes what has fired of its kind when it reports it, and leaves it otherwise. -/
theorem fired_poll (x : Selectable) (closed : Bool) (refusal : Option OpError) (j : Interest) :
    (x.poll closed refusal j).2.fired =
      if (x.poll closed refusal j).1 = .ready then x.fired.erase j else x.fired := by
  rcases poll_cases x j with ⟨e, he⟩ | ⟨hf, hi⟩ | ⟨hf, hi, ha⟩ | hasks
  · rw [poll_of_failure he]
    rfl
  · rw [poll_of_fired hf hi]
    rfl
  · rw [poll_of_armed hf hi ha]
    rfl
  · rw [poll_of_asks hasks]
    cases closed with
    | true => rfl
    | false => cases refusal <;> rfl

/-- A look arms its own kind, and only where it suspends. -/
theorem armed_of_poll (h : (x.poll closed refusal j).2.armed.contains i = true) :
    x.armed.contains i = true ∨ j = i ∧ (x.poll closed refusal j).1 = .pending := by
  rcases poll_cases x j with ⟨e, he⟩ | ⟨hf, hi⟩ | ⟨hf, hi, ha⟩ | hasks
  · rw [poll_of_failure he] at h
    exact .inl h
  · rw [poll_of_fired hf hi] at h
    exact .inl h
  · rw [poll_of_armed hf hi ha] at h
    exact .inl h
  · rw [poll_of_asks hasks] at h ⊢
    cases closed with
    | true => exact .inl h
    | false =>
      cases refusal with
      | some e =>
        change InterestSet.empty.contains i = true at h
        rw [InterestSet.contains_empty] at h
        cases h
      | none =>
        change (x.armed.insert j).contains i = true at h
        rw [InterestSet.contains_insert, Bool.or_eq_true, decide_eq_true_eq] at h
        rcases h with rfl | h
        · exact .inr ⟨rfl, rfl⟩
        · exact .inl h

/-- What fires was armed. -/
theorem fired_of_fire {ready : InterestSet} (h : (x.fire ready).fired.contains i = true) :
    x.fired.contains i = true ∨ ready.contains i = true ∧ x.armed.contains i = true := by
  change (x.fired.union (x.armed.inter ready)).contains i = true at h
  rw [InterestSet.contains_union, InterestSet.contains_inter, Bool.or_eq_true, Bool.and_eq_true] at h
  exact h.imp_right And.symm

/-- What stays armed was armed. -/
theorem armed_of_fire {ready : InterestSet} (h : (x.fire ready).armed.contains i = true) :
    x.armed.contains i = true := by
  change (x.armed.eraseAll (x.armed.inter ready)).contains i = true at h
  rw [InterestSet.contains_eraseAll, Bool.and_eq_true] at h
  exact h.1

/-- Only what is armed can be hit. -/
theorem fire_inter (x : Selectable) (ready : InterestSet) :
    x.fire (x.armed.inter ready) = x.fire ready := by
  have hhit : x.armed.inter (x.armed.inter ready) = x.armed.inter ready :=
    InterestSet.ext_contains fun j => by
      rw [InterestSet.contains_inter, InterestSet.contains_inter, Bool.and_self_left]
  unfold fire
  rw [hhit]

/-- Readiness of nothing. -/
theorem fire_empty (x : Selectable) : x.fire .empty = x := by
  have hhit : x.armed.inter .empty = .empty :=
    InterestSet.ext_contains fun j => by simp
  have herase : ∀ s : InterestSet, s.eraseAll .empty = s := fun s =>
    InterestSet.ext_contains fun j => by simp
  have hunion : x.fired.union .empty = x.fired :=
    InterestSet.ext_contains fun j => by simp
  unfold fire
  rw [hhit]
  simp only [herase, hunion]

end Selectable

namespace Reactor

variable {r : Reactor} {k : Nat} {x y : Selectable} {i : Interest} {op : Op} {ops : List Op}

/-- **How a kind comes to have fired**: it had, and no look reported it, or readiness comes for it while
    it is armed. -/
theorem fired_touch (h : (r.touch k x op).1.fired.contains i = true) :
    (x.fired.contains i = true ∧
        ∀ refusal, op = .poll k refusal i → (x.poll r.closed refusal i).1 ≠ .ready) ∨
      ∃ ready, op = .event k ready ∧ ready.contains i = true ∧ x.armed.contains i = true := by
  have hkept : ∀ {op' : Op}, op = op' → (∀ refusal, op' ≠ .poll k refusal i) →
      x.fired.contains i = true → (x.fired.contains i = true ∧
        ∀ refusal, op = .poll k refusal i → (x.poll r.closed refusal i).1 ≠ .ready) := by
    rintro _ rfl hne hfired
    exact ⟨hfired, fun refusal hpoll => absurd hpoll (hne refusal)⟩
  cases op with
  | create d => exact .inl (hkept rfl (by rintro _ ⟨⟩) h)
  | select j refusal l =>
    refine .inl (hkept rfl (by rintro _ ⟨⟩) ?_)
    simp only [touch] at h
    split at h
    · rwa [Selectable.fired_select] at h
    · exact h
  | poll j refusal l =>
    simp only [touch] at h
    split at h
    · rename_i hj
      subst hj
      rw [Selectable.fired_poll] at h
      split at h
      · -- a report takes its own kind, so the kind is another one
        rename_i hready
        rw [InterestSet.contains_erase, Bool.and_eq_true, decide_eq_true_eq] at h
        exact .inl (hkept rfl (fun refusal' heq => h.1 (by cases heq; rfl)) h.2)
      · rename_i hready
        refine .inl ⟨h, ?_⟩
        intro refusal' heq
        cases heq
        exact hready
    · rename_i hj
      exact .inl (hkept rfl (fun refusal' heq => hj (by cases heq; rfl)) h)
  | event j ready =>
    simp only [touch] at h
    split at h
    · rename_i hj
      obtain ⟨rfl, -⟩ := hj
      rcases Selectable.fired_of_fire h with hfired | ⟨hready, harmed⟩
      · exact .inl (hkept rfl (by rintro _ ⟨⟩) hfired)
      · exact .inr ⟨ready, rfl, hready, harmed⟩
    · exact .inl (hkept rfl (by rintro _ ⟨⟩) h)
  | notifyClosed j =>
    refine .inl (hkept rfl (by rintro _ ⟨⟩) ?_)
    simp only [touch] at h
    split at h <;> exact h
  | close =>
    refine .inl (hkept rfl (by rintro _ ⟨⟩) ?_)
    simp only [touch] at h
    split at h <;> exact h

/-- **How a kind comes to be armed**: it was, or a look at it suspends. -/
theorem armed_touch (h : (r.touch k x op).1.armed.contains i = true) :
    x.armed.contains i = true ∨
      ∃ refusal, op = .poll k refusal i ∧ (x.poll r.closed refusal i).1 = .pending := by
  have hnone : InterestSet.empty.contains i ≠ true := by
    rw [InterestSet.contains_empty]
    exact Bool.false_ne_true
  cases op with
  | create d => exact .inl h
  | select j refusal l =>
    simp only [touch] at h
    split at h
    · exact .inl (Selectable.armed_of_select h)
    · exact .inl h
  | poll j refusal l =>
    simp only [touch] at h
    split at h
    · rename_i hj
      subst hj
      rcases Selectable.armed_of_poll h with harmed | ⟨rfl, hpending⟩
      · exact .inl harmed
      · exact .inr ⟨refusal, rfl, hpending⟩
    · exact .inl h
  | event j ready =>
    simp only [touch] at h
    split at h
    · exact .inl (Selectable.armed_of_fire h)
    · exact .inl h
  | notifyClosed j =>
    simp only [touch] at h
    split at h
    · exact absurd h hnone
    · exact .inl h
  | close =>
    simp only [touch] at h
    split at h
    · exact absurd h hnone
    · exact .inl h

/-! ## 2. The moments of a history -/

/-- A selector after the first `n` things of a history. -/
def after (ops : List Op) (n : Nat) : Reactor := empty.run (ops.take n)

theorem after_succ {n : Nat} (h : ops[n]? = some op) :
    after ops (n + 1) = (after ops n).apply op := by
  unfold after run
  rw [List.take_add_one, h, Option.toList_some, List.foldl_append]
  rfl

theorem after_succ_of_none {n : Nat} (h : ops[n]? = none) : after ops (n + 1) = after ops n := by
  unfold after
  rw [List.take_add_one, h, Option.toList_none, List.append_nil]

theorem sound_after (ops : List Op) (n : Nat) : (after ops n).Sound := sound_run sound_empty _

/-- **What holds of a selector began at some moment**, and has held since. -/
theorem exists_since {P : Reactor → Prop} {Begins : Nat → Prop} (hempty : ¬ P empty)
    (hstep : ∀ n op, ops[n]? = some op → P ((after ops n).apply op) → P (after ops n) ∨ Begins n)
    {n : Nat} (h : P (after ops n)) :
    ∃ m < n, Begins m ∧ ∀ l, m < l → l ≤ n → P (after ops l) := by
  induction n with
  | zero => exact absurd h hempty
  | succ n ih =>
    have hlater : P (after ops n) →
        ∃ m < n + 1, Begins m ∧ ∀ l, m < l → l ≤ n + 1 → P (after ops l) := by
      intro hn
      obtain ⟨m, hm, hbegins, hsince⟩ := ih hn
      refine ⟨m, Nat.lt_succ_of_lt hm, hbegins, fun l hml hl => ?_⟩
      rcases Nat.le_or_eq_of_le_succ hl with hl | rfl
      · exact hsince l hml hl
      · exact h
    cases hop : ops[n]? with
    | none => exact hlater (after_succ_of_none hop ▸ h)
    | some op =>
      rcases hstep n op hop (after_succ hop ▸ h) with hn | hbegins
      · exact hlater hn
      · refine ⟨n, Nat.lt_succ_self n, hbegins, fun l hnl hl => ?_⟩
        obtain rfl : l = n + 1 := by omega
        exact h

/-- A kind is armed in a place. -/
def IsArmed (r : Reactor) (k : Nat) (i : Interest) : Prop :=
  ∃ x, r.selectables[k]? = some x ∧ x.armed.contains i = true

/-- A kind has fired in a place, and no look has reported it yet. -/
def HasFired (r : Reactor) (k : Nat) (i : Interest) : Prop :=
  ∃ x, r.selectables[k]? = some x ∧ x.fired.contains i = true

/-- The `n`-th thing of a history is a look at a kind that suspends. -/
def Arms (ops : List Op) (k : Nat) (i : Interest) (n : Nat) : Prop :=
  ∃ refusal, ops[n]? = some (.poll k refusal i) ∧ ((after ops n).poll k refusal i).1 = .pending

/-- The `n`-th thing of a history is readiness of a kind, which comes while it is armed. -/
def Strikes (ops : List Op) (k : Nat) (i : Interest) (n : Nat) : Prop :=
  ∃ ready, ops[n]? = some (.event k ready) ∧ ready.contains i = true ∧ (after ops n).IsArmed k i

/-- The `n`-th thing of a history is a look at a kind that reports readiness. -/
def Reports (ops : List Op) (k : Nat) (i : Interest) (n : Nat) : Prop :=
  ∃ refusal, ops[n]? = some (.poll k refusal i) ∧ ((after ops n).poll k refusal i).1 = .ready

theorem poll_eq (hx : r.selectables[k]? = some x) (refusal : Option OpError) :
    (r.poll k refusal i).1 = (x.poll r.closed refusal i).1 := by
  simp only [poll, hx]

/-- What is armed was armed by a look, and has been since. -/
theorem armed_since {n : Nat} (h : (after ops n).IsArmed k i) :
    ∃ m < n, Arms ops k i m ∧ ∀ l, m < l → l ≤ n → (after ops l).IsArmed k i := by
  refine exists_since (P := fun r => r.IsArmed k i) ?_ ?_ h
  · rintro ⟨x, hx, -⟩
    cases hx
  · rintro n op hop ⟨y, hy, harmed⟩
    rcases place_apply (sound_after ops n) op hy with ⟨x, hx, rfl, -⟩ | ⟨d, rfl, -⟩
    · rcases armed_touch harmed with harmed | ⟨refusal, rfl, hpending⟩
      · exact .inl ⟨x, hx, harmed⟩
      · exact .inr ⟨refusal, hop, (poll_eq hx refusal).trans hpending⟩
    · rw [Selectable.fresh, InterestSet.contains_empty] at harmed
      cases harmed

/-- What has fired was struck, and no look has reported it since. -/
theorem fired_since {n : Nat} (h : (after ops n).HasFired k i) :
    ∃ m < n, Strikes ops k i m ∧ ∀ l, m < l → l ≤ n → (after ops l).HasFired k i := by
  refine exists_since (P := fun r => r.HasFired k i) ?_ ?_ h
  · rintro ⟨x, hx, -⟩
    cases hx
  · rintro n op hop ⟨y, hy, hfired⟩
    rcases place_apply (sound_after ops n) op hy with ⟨x, hx, rfl, -⟩ | ⟨d, rfl, -⟩
    · rcases fired_touch hfired with ⟨hfired, -⟩ | ⟨ready, rfl, hready, harmed⟩
      · exact .inl ⟨x, hx, hfired⟩
      · exact .inr ⟨ready, hop, hready, x, hx, harmed⟩
    · rw [Selectable.fresh, InterestSet.contains_empty] at hfired
      cases hfired

/-- A look reports what has fired, and behind the report it has not any more. -/
theorem fired_of_reports {n : Nat} (h : Reports ops k i n) :
    (after ops n).HasFired k i ∧ ¬ (after ops (n + 1)).HasFired k i := by
  obtain ⟨refusal, hop, hready⟩ := h
  cases hx : (after ops n).selectables[k]? with
  | none =>
    simp only [poll, hx] at hready
    cases hready
  | some x =>
    rw [poll_eq hx] at hready
    refine ⟨⟨x, hx, (Selectable.poll_ready (Prod.ext hready rfl)).2.1⟩, ?_⟩
    rintro ⟨y, hy, hfired⟩
    rw [after_succ hop, (apply_touch hx _).1] at hy
    cases hy
    rcases fired_touch hfired with ⟨-, hnot⟩ | ⟨ready, heq, -⟩
    · exact hnot refusal rfl hready
    · cases heq

/-- **Each report has its own cause**: readiness of the kind, which came before, while the kind had been
    armed by a look and was armed since. -/
theorem exists_cause (ops : List Op) (k : Nat) (i : Interest) :
    ∃ cause : Nat → Nat, Set.InjOn cause {n | Reports ops k i n} ∧
      ∀ n, Reports ops k i n → cause n < n ∧ Strikes ops k i (cause n) ∧
        ∃ m < cause n, Arms ops k i m ∧
          ∀ l, m < l → l ≤ cause n → (after ops l).IsArmed k i := by
  have hsince : ∀ n, ∃ m, Reports ops k i n → m < n ∧ Strikes ops k i m ∧
      ∀ l, m < l → l ≤ n → (after ops l).HasFired k i := by
    intro n
    by_cases h : Reports ops k i n
    · obtain ⟨m, hm, hstrikes, hfired⟩ := fired_since (fired_of_reports h).1
      exact ⟨m, fun _ => ⟨hm, hstrikes, hfired⟩⟩
    · exact ⟨0, fun hn => absurd hn h⟩
  choose cause hcause using hsince
  -- between the cause and the report nothing else reports, so no later report has the same cause
  have hlt : ∀ {n n'}, Reports ops k i n → Reports ops k i n' → n < n' → cause n ≠ cause n' := by
    intro n n' hn hn' hnn' heq
    obtain ⟨hbefore, -, -⟩ := hcause n hn
    obtain ⟨-, -, hfired⟩ := hcause n' hn'
    exact (fired_of_reports hn).2 (hfired (n + 1) (by omega) hnn')
  refine ⟨cause, ?_, fun n hn => ?_⟩
  · intro n hn n' hn' heq
    rcases Nat.lt_trichotomy n n' with h | h | h
    · exact absurd heq (hlt hn hn' h)
    · exact h
    · exact absurd heq.symm (hlt hn' hn h)
  · obtain ⟨hbefore, hstrikes, -⟩ := hcause n hn
    obtain ⟨-, -, -, harmed⟩ := hstrikes
    exact ⟨hbefore, (hcause n hn).2.1, armed_since harmed⟩

/-! ## 3. Readiness that nobody waits for -/

theorem put_self (hx : r.selectables[k]? = some x) : r.put k x = r := by
  obtain ⟨hk, rfl⟩ := List.getElem?_eq_some_iff.mp hx
  unfold put
  rw [List.set_getElem_self hk]

/-- What is reported as ready counts as far as it is armed. -/
theorem event_congr {ready ready' : InterestSet}
    (h : ∀ x i, r.selectables[k]? = some x → x.armed.contains i = true →
      ready.contains i = ready'.contains i) : r.event k ready = r.event k ready' := by
  unfold event
  cases hx : r.selectables[k]? with
  | none => rfl
  | some x =>
    have hhit : x.armed.inter ready = x.armed.inter ready' := by
      refine InterestSet.ext_contains fun i => ?_
      rw [InterestSet.contains_inter, InterestSet.contains_inter]
      cases ha : x.armed.contains i with
      | false => rfl
      | true => rw [h x i hx ha]
    dsimp only
    rw [← Selectable.fire_inter x ready, ← Selectable.fire_inter x ready', hhit]

/-- **Readiness of a kind that is not armed** is as if it had not come with the others. -/
theorem event_erase (h : ¬ r.IsArmed k i) (ready : InterestSet) :
    r.event k ready = r.event k (ready.erase i) := by
  refine event_congr fun x j hx ha => ?_
  have hne : j ≠ i := by
    rintro rfl
    exact h ⟨x, hx, ha⟩
  rw [InterestSet.contains_erase, decide_eq_true hne, Bool.true_and]

/-- Readiness of which nothing is armed changes nothing. -/
theorem event_eq_self {ready : InterestSet}
    (h : ∀ i, ready.contains i = true → ¬ r.IsArmed k i) : r.event k ready = r := by
  have hempty : r.event k ready = r.event k .empty := by
    refine event_congr fun x i hx ha => ?_
    rw [InterestSet.contains_empty]
    exact Bool.eq_false_iff.mpr fun hready => h i hready ⟨x, hx, ha⟩
  rw [hempty]
  unfold event
  cases hx : r.selectables[k]? with
  | none => rfl
  | some x =>
    dsimp only
    rw [Selectable.fire_empty, put_self hx, ite_self]

/-! ## 4. Failures -/

/-- The failure that something brings upon the selectable in a place: its descriptor is closed, the
    system refuses to watch for it, or the selector is closed while it is among the registrations. -/
def brings (r : Reactor) (k : Nat) (x : Selectable) : Op → Option SelectError
  | .create _ | .event _ _ => none
  | .select j refusal _ => if j = k ∧ r.closed = false then refusal.map (·.asRegistration) else none
  | .poll j refusal i =>
    if j = k ∧ r.closed = false ∧ x.asks i = true then refusal.map (·.asRegistration) else none
  | .notifyClosed j => if j = k then some .closed else none
  | .close => if r.registrations.contains k then some .cancelled else none

/-- **A selectable keeps the failure that it has**, and takes one that comes if it has none. -/
theorem failure_touch_eq (r : Reactor) (k : Nat) (x : Selectable) (op : Op) :
    (r.touch k x op).1.failure = x.failure.or (r.brings k x op) := by
  have hnone : x.failure = x.failure.or none := (Option.or_none).symm
  cases op with
  | create d => exact hnone
  | select j refusal i =>
    simp only [touch, brings]
    by_cases hj : j = k
    · rw [if_pos hj]
      unfold Selectable.select
      cases hc : r.closed with
      | true => simp
      | false =>
        cases refusal with
        | none => simp
        | some e => simp [hj, Selectable.fail]
    · rw [if_neg hj, if_neg (fun h => hj h.1)]
      exact hnone
  | poll j refusal i =>
    by_cases hj : j = k
    · subst hj
      -- where the selector is not asked, it brings no failure
      have hquiet : x.asks i ≠ true → r.brings j x (.poll j refusal i) = none := fun hasks =>
        if_neg fun h => hasks h.2.2
      simp only [touch, if_true]
      rcases Selectable.poll_cases x i with ⟨e, he⟩ | ⟨hf, hi⟩ | ⟨hf, hi, ha⟩ | hasks
      · rw [Selectable.poll_of_failure he, hquiet (by simp [Selectable.asks_iff, he])]
        exact hnone
      · rw [Selectable.poll_of_fired hf hi, hquiet (by simp [Selectable.asks_iff, hi])]
        exact hnone
      · rw [Selectable.poll_of_armed hf hi ha, hquiet (by simp [Selectable.asks_iff, ha])]
        exact hnone
      · rw [Selectable.poll_of_asks hasks]
        simp only [brings, hasks, true_and, and_true]
        cases hc : r.closed with
        | true => simp
        | false => cases refusal <;> simp [Selectable.fail]
    · simp only [touch, brings, hj, false_and, if_false]
      exact hnone
  | event j ready =>
    simp only [touch, brings]
    split <;> exact hnone
  | notifyClosed j =>
    simp only [touch, brings]
    split
    · rfl
    · exact hnone
  | close =>
    simp only [touch, brings]
    split
    · rfl
    · exact hnone

/-- The failures that come to the selectable in a place over a history, in their order. -/
def failures (r : Reactor) (k : Nat) : List Op → List SelectError
  | [] => []
  | op :: ops =>
    (r.selectables[k]?.bind (r.brings k · op)).toList ++ (r.apply op).failures k ops

/-- The failure of the selectable in a place. -/
def failureAt (r : Reactor) (k : Nat) : Option SelectError :=
  r.selectables[k]?.bind Selectable.failure

theorem failureAt_apply (h : r.Sound) (k : Nat) (op : Op) :
    (r.apply op).failureAt k = (r.failureAt k).or (r.selectables[k]?.bind (r.brings k · op)) := by
  unfold failureAt
  cases hx : r.selectables[k]? with
  | some x =>
    rw [(apply_touch hx op).1]
    exact failure_touch_eq r k x op
  | none =>
    rcases (apply_new hx (h.within k hx) op).1 with hnone | ⟨d, hfresh⟩
    · rw [hnone]
      rfl
    · rw [hfresh]
      rfl

/-- **A selectable has the first failure** that came to it. -/
theorem failureAt_run (h : r.Sound) (k : Nat) (ops : List Op) :
    (r.run ops).failureAt k = (r.failureAt k).or (r.failures k ops).head? := by
  induction ops generalizing r with
  | nil => exact (Option.or_none).symm
  | cons op ops ih =>
    show ((r.apply op).run ops).failureAt k = _
    rw [ih (sound_apply h op), failureAt_apply h, failures, List.head?_append, Option.or_assoc]
    cases r.selectables[k]?.bind (r.brings k · op) <;> rfl

/-- A look at a selectable that has failed changes nothing. -/
theorem poll_of_failure {e : SelectError} (hx : r.selectables[k]? = some x)
    (he : x.failure = some e) (refusal : Option OpError) (i : Interest) :
    r.poll k refusal i = (.failed e, r) := by
  have hasks : ¬ x.asks i = true := by simp [Selectable.asks_iff, he]
  simp only [poll, hx, Selectable.poll_of_failure he]
  rw [if_neg hasks, put_self hx]

end Reactor

/-! ## 5. Closed descriptors -/

/-- A selectable whose descriptor is closed: nothing waits for it, and the poller does not know it. -/
structure Selectable.Shut (x : Selectable) : Prop where
  mask : x.mask = .empty
  waiting : x.waiting = .empty
  armed : x.armed = .empty
  registered : x.registered = false
  failure : x.failure ≠ none

namespace Selectable

variable {x : Selectable}

theorem shut_notifyClosed (x : Selectable) : x.notifyClosed.Shut := by
  refine ⟨rfl, rfl, rfl, rfl, ?_⟩
  unfold notifyClosed
  rw [failure_fail]
  exact Option.some_ne_none _

theorem Shut.fail (h : x.Shut) (e : SelectError) : x.fail e = x := by
  obtain ⟨e', he⟩ := Option.ne_none_iff_exists'.mp h.failure
  obtain ⟨hmask, hwaiting, harmed, -, -⟩ := h
  cases x
  simp_all [Selectable.fail]

theorem Shut.notifyClosed (h : x.Shut) : x.notifyClosed = x := by
  have hsame : ({ x with mask := .empty, registered := false } : Selectable) = x := by
    obtain ⟨hmask, -, -, hregistered, -⟩ := h
    cases x
    simp_all
  unfold Selectable.notifyClosed
  rw [hsame]
  exact h.fail .closed

theorem Shut.fire (h : x.Shut) (ready : InterestSet) : x.fire ready = x := by
  have hhit : x.armed.inter ready = .empty := by
    rw [h.armed]
    exact InterestSet.ext_contains fun j => by simp
  rw [← fire_inter, hhit, fire_empty]

end Selectable

namespace Reactor

variable {r : Reactor} {k : Nat} {x : Selectable} {op : Op}

/-- Unless the selector is asked to watch for it again, nothing changes a selectable whose descriptor is
    closed. -/
theorem touch_of_shut (h : x.Shut) (hop : ∀ refusal i, op ≠ .select k refusal i) :
    (r.touch k x op).1 = x := by
  obtain ⟨e, he⟩ := Option.ne_none_iff_exists'.mp h.failure
  cases op with
  | create d => rfl
  | select j refusal i =>
    have hj : j ≠ k := fun hj => hop refusal i (hj ▸ rfl)
    simp only [touch, if_neg hj]
  | poll j refusal i =>
    simp only [touch, Selectable.poll_of_failure he]
    split <;> rfl
  | event j ready =>
    simp only [touch, h.fire, ite_self]
  | notifyClosed j =>
    simp only [touch, h.notifyClosed]
    split <;> rfl
  | close => simp only [touch, h.fail, ite_self]

theorem shut_run (hx : r.selectables[k]? = some x) (h : x.Shut) {ops : List Op}
    (hops : ∀ refusal i, .select k refusal i ∉ ops) : (r.run ops).selectables[k]? = some x := by
  induction ops generalizing r with
  | nil => exact hx
  | cons op ops ih =>
    have htouch := (apply_touch hx op).1
    rw [touch_of_shut h fun refusal i heq => hops refusal i (heq ▸ List.mem_cons_self)] at htouch
    exact ih htouch fun refusal i hmem => hops refusal i (List.mem_cons_of_mem _ hmem)

/-- **A descriptor that is closed is closed**: closing it again, however often, changes nothing. -/
theorem notifyClosed_of_shut (hx : r.selectables[k]? = some x) (h : x.Shut) (n : Nat) :
    r.run (List.replicate n (.notifyClosed k)) = r := by
  have honce : r.notifyClosed k = r := by
    simp only [notifyClosed, hx, h.registered, h.notifyClosed, Bool.false_eq_true, if_false,
      put_self hx]
  induction n with
  | zero => rfl
  | succ n ih =>
    show (r.notifyClosed k).run (List.replicate n (.notifyClosed k)) = r
    rw [honce, ih]

/-! ## 6. Any history -/

theorem run_append (r : Reactor) (ops later : List Op) : r.run (ops ++ later) = (r.run ops).run later :=
  List.foldl_append

/-- **Readiness is reported once and never made up, and failures are final.** Take any history of a
    selector and any of its selectables.

    Each look that reports a kind as ready has its own cause: readiness of this kind, which came before
    it while the kind was armed by a look. Readiness of a kind that is not armed is as if it had not
    come with the others, and if nothing of it is armed, as if it had not come at all.

    A selectable has the first failure that came to it. From then on every look at any kind finds this
    failure and changes nothing, whatever has fired and whatever else happens. Once its descriptor is
    closed, closing it again changes nothing, unless the selector was asked directly to watch for it
    in between. -/
theorem run_reports (ops : List Op) (k : Nat) :
    (∀ i, ∃ cause : Nat → Nat, Set.InjOn cause {n | Reports ops k i n} ∧
      ∀ n, Reports ops k i n → cause n < n ∧ Strikes ops k i (cause n) ∧
        ∃ m < cause n, Arms ops k i m ∧
          ∀ l, m < l → l ≤ cause n → (after ops l).IsArmed k i) ∧
    (∀ ready i later, ¬ (empty.run ops).IsArmed k i →
      empty.run (ops ++ .event k ready :: later) =
        empty.run (ops ++ .event k (ready.erase i) :: later)) ∧
    (∀ ready later, (∀ i, ready.contains i = true → ¬ (empty.run ops).IsArmed k i) →
      empty.run (ops ++ .event k ready :: later) = empty.run (ops ++ later)) ∧
    (empty.run ops).failureAt k = (empty.failures k ops).head? ∧
    (∀ e, (empty.run ops).failureAt k = some e → ∀ later refusal i,
      (empty.run (ops ++ later)).failureAt k = some e ∧
        (empty.run (ops ++ later)).poll k refusal i = (.failed e, empty.run (ops ++ later))) ∧
    (∀ x later, (empty.run ops).selectables[k]? = some x →
      (∀ refusal i, .select k refusal i ∉ later) → ∀ n,
        (empty.run (ops ++ .notifyClosed k :: later)).run (List.replicate n (.notifyClosed k)) =
          empty.run (ops ++ .notifyClosed k :: later)) := by
  have hcons : ∀ op later,
      empty.run (ops ++ op :: later) = ((empty.run ops).apply op).run later := fun op later =>
    run_append empty ops (op :: later)
  refine ⟨exists_cause ops k, ?_, ?_, ?_, ?_, ?_⟩
  · intro ready i later h
    rw [hcons, hcons]
    exact congrArg (run · later) (event_erase h ready)
  · intro ready later h
    rw [hcons, run_append]
    exact congrArg (run · later) (event_eq_self h)
  · exact failureAt_run sound_empty k ops
  · intro e he later refusal i
    obtain ⟨x, hx, hfailure⟩ := Option.bind_eq_some_iff.mp he
    obtain ⟨y, hy, hlater⟩ := failure_run hx hfailure later
    rw [run_append]
    exact ⟨Option.bind_eq_some_iff.mpr ⟨y, hy, hlater⟩, poll_of_failure hy hlater refusal i⟩
  · intro x later hx hlater n
    have htouch := (apply_touch hx (.notifyClosed k)).1
    simp only [touch, if_true] at htouch
    have hshut := Selectable.shut_notifyClosed x
    rw [hcons]
    exact notifyClosed_of_shut (shut_run htouch hshut hlater) hshut n

/-- A read that is suspended, struck and reported; a write that has fired when the descriptor is
    closed. -/
def struck : List Op :=
  [.create 7, .poll 0 none .read, .event 0 (.only .read), .poll 0 none .read, .poll 0 none .write,
    .event 0 (.only .write), .notifyClosed 0]

/-- The read was reported for a readiness that came before; another one finds nothing armed; the
    write that has fired is not reported any more, and closing again changes nothing. -/
theorem run_reports_struck :
    (∃ m < 3, Strikes struck 0 .read m) ∧
    empty.run (struck ++ [.event 0 (.only .read)]) = empty.run struck ∧
    (empty.run (struck ++ [.close])).poll 0 none .write =
      (.failed .closed, empty.run (struck ++ [.close])) ∧
    (empty.run (struck ++ [.notifyClosed 0, .close])).run (List.replicate 2 (.notifyClosed 0)) =
      empty.run (struck ++ [.notifyClosed 0, .close]) := by
  obtain ⟨hcause, -, hdropped, -, hfinal, hshut⟩ := run_reports struck 0
  obtain ⟨cause, -, hstrikes⟩ := hcause .read
  have hunarmed : ∀ i, ¬ (empty.run struck).IsArmed 0 i := by
    rintro i ⟨x, hx, harmed⟩
    cases hx
    cases i <;> cases harmed
  refine ⟨⟨cause 3, (hstrikes 3 ⟨none, rfl, rfl⟩).1, (hstrikes 3 ⟨none, rfl, rfl⟩).2.1⟩, ?_, ?_, ?_⟩
  · exact (hdropped (.only .read) [] fun i _ => hunarmed i).trans
      (congrArg empty.run (List.append_nil struck))
  · exact (hfinal .closed rfl [.close] none .write).2
  · exact hshut _ [.close] rfl (by simp) 2

end Reactor

end Sluice.Selector
