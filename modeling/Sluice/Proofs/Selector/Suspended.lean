/-
  File:      Sluice/Proofs/Selector/Suspended.lean
  Subject:   No operation that is suspended on a selector is left behind.

  * `Selectable.Sound`: what holds of a selectable at any time, given whether its selector is closed
    and whether it is among the registrations;
  * `sound_select`, `sound_poll`, `sound_fire`, `sound_notifyClosed`, `sound_cancel`: it holds after
    each operation on the selectable; `armed_of_pending`: a look that suspends arms, and
    `Sound.poll_of_closed`: no look does where the selector is closed;
  * `Reactor.Sound`, `sound_apply`, `sound_run`: it holds of all selectables, over any history;
  * `Attends`: somebody will report a kind that is armed; `Fails`, `Resumed`: what ends a suspended
    operation, and how it is ended;
  * **`run_attends`**: everything armed is attended to and resumed with a failure where one comes, and
    a closed selector suspends nothing.
-/
import Sluice.Proofs.Selector.Steps

namespace Sluice.Selector

/-! ## 1. One selectable -/

/-- **What holds of a selectable**, its selector being closed or not, and itself being among the
    registrations or not. The last two fields tie its own mark of being registered to these. -/
structure Selectable.Sound (closed listed : Bool) (x : Selectable) : Prop where
  failure : ∀ i, x.armed.contains i = true → x.failure = none
  not_fired : ∀ i, x.armed.contains i = true → x.fired.contains i = false
  mask : ∀ i, x.armed.contains i = true → x.mask.contains i = true
  waiting : ∀ i, x.armed.contains i = true → x.waiting.contains i = true
  registered : ∀ i, x.failure = none → (x.armed.contains i || x.fired.contains i) = true →
    x.registered = true
  listed_eq : closed = false → listed = x.registered
  of_closed : closed = true → listed = false ∧ (x.failure = none → x.registered = false)

namespace Selectable

variable {closed listed : Bool} {x : Selectable} {i : Interest}

theorem sound_fresh (closed : Bool) (d : Nat) : (fresh d).Sound closed false where
  failure := by simp [fresh]
  not_fired := by simp [fresh]
  mask := by simp [fresh]
  waiting := by simp [fresh]
  registered := by simp [fresh]
  listed_eq _ := rfl
  of_closed _ := ⟨rfl, fun _ => rfl⟩

/-- A selectable that has failed, and on which nothing is armed. -/
theorem sound_of_failed (hf : x.failure ≠ none) (ha : x.armed = .empty)
    (hlisted : closed = false → listed = x.registered) (hclosed : closed = true → listed = false) :
    x.Sound closed listed where
  failure := by simp [ha]
  not_fired := by simp [ha]
  mask := by simp [ha]
  waiting := by simp [ha]
  registered _ h := absurd h hf
  listed_eq := hlisted
  of_closed h := ⟨hclosed h, fun h => absurd h hf⟩

/-- What fails keeps its place among the registrations, or is in none. -/
theorem sound_fail (e : SelectError) (hlisted : closed = false → listed = x.registered)
    (hclosed : closed = true → listed = false) : (x.fail e).Sound closed listed := by
  refine sound_of_failed ?_ rfl hlisted hclosed
  rw [failure_fail]
  nofun

/-- Who was among the registrations stays there, and nobody comes to them by a refusal. -/
theorem enlisted_eq (h : x.Sound false listed) (refusal : Option OpError) :
    x.enlisted false listed refusal = (x.registered || refusal.isNone) := by
  unfold enlisted
  cases hreg : x.registered with
  | true => exact (h.listed_eq rfl).trans hreg
  | false => rfl

theorem sound_refused (h : x.Sound false listed) (e : OpError) :
    (x.fail e.asRegistration).Sound false (x.enlisted false listed (some e)) :=
  sound_fail _ (fun _ => (enlisted_eq h _).trans (Bool.or_false _)) nofun

/-- A kind that joins the mask. -/
theorem sound_select (h : x.Sound closed listed) (refusal : Option OpError) (i : Interest) :
    (x.select closed refusal i).2.Sound closed (x.enlisted closed listed refusal) := by
  cases closed with
  | true => exact h
  | false =>
    cases refusal with
    | some e => exact sound_refused h e
    | none =>
      rw [enlisted_eq h, Option.isNone_none, Bool.or_true]
      show Sound false true { x with mask := x.mask.insert i, registered := true }
      refine ⟨h.failure, h.not_fired, fun j hj => ?_, h.waiting, fun _ _ _ => rfl, fun _ => rfl,
        nofun⟩
      rw [InterestSet.contains_insert, h.mask j hj, Bool.or_true]

/-- Waiting changes nothing else. -/
theorem sound_wait (h : x.Sound closed listed) (i : Interest) :
    ({ x with waiting := x.waiting.insert i } : Selectable).Sound closed listed := by
  refine ⟨h.failure, h.not_fired, h.mask, fun j hj => ?_, h.registered, h.listed_eq, h.of_closed⟩
  show (x.waiting.insert i).contains j = true
  rw [InterestSet.contains_insert, h.waiting j hj, Bool.or_true]

/-- Readiness that is reported is gone. -/
theorem sound_taken (h : x.Sound closed listed) (i : Interest) :
    ({ x with fired := x.fired.erase i } : Selectable).Sound closed listed := by
  refine ⟨h.failure, fun j hj => ?_, h.mask, h.waiting, fun j hf hj => ?_, h.listed_eq,
    h.of_closed⟩
  · show (x.fired.erase i).contains j = false
    rw [InterestSet.contains_erase, h.not_fired j hj, Bool.and_false]
  · refine h.registered j hf ?_
    change (x.armed.contains j || (x.fired.erase i).contains j) = true at hj
    rw [InterestSet.contains_erase] at hj
    cases ha : x.armed.contains j with
    | true => rfl
    | false =>
      rw [ha, Bool.false_or, Bool.and_eq_true] at hj
      rw [hj.2]
      rfl

/-- An operation that is suspended: its kind is armed, and the poller knows of it. -/
theorem sound_suspend (h : x.Sound false listed) (hi : x.asks i = true) :
    ({ x with
        mask := x.mask.insert i
        waiting := x.waiting.insert i
        armed := x.armed.insert i
        registered := true } : Selectable).Sound false true := by
  obtain ⟨hf, hfired, -⟩ := asks_iff.mp hi
  -- what is armed is the kind that the look asks for, of which nothing had come, or was armed before
  have hcases : ∀ j, (x.armed.insert i).contains j = true → j = i ∨ x.armed.contains j = true := by
    intro j hj
    rw [InterestSet.contains_insert, Bool.or_eq_true] at hj
    exact hj.imp of_decide_eq_true id
  refine ⟨fun _ _ => hf, fun j hj => ?_, fun j hj => ?_, fun j hj => ?_, fun _ _ _ => rfl,
    fun _ => rfl, nofun⟩
  · rcases hcases j hj with rfl | ha
    · exact hfired
    · exact h.not_fired j ha
  · show (x.mask.insert i).contains j = true
    rcases hcases j hj with rfl | ha
    · rw [InterestSet.contains_insert, decide_eq_true rfl, Bool.true_or]
    · rw [InterestSet.contains_insert, h.mask j ha, Bool.or_true]
  · show (x.waiting.insert i).contains j = true
    rcases hcases j hj with rfl | ha
    · rw [InterestSet.contains_insert, decide_eq_true rfl, Bool.true_or]
    · rw [InterestSet.contains_insert, h.waiting j ha, Bool.or_true]

/-- **A look** at a kind. -/
theorem sound_poll (h : x.Sound closed listed) (refusal : Option OpError) (i : Interest) :
    (x.poll closed refusal i).2.Sound closed
      (if x.asks i then x.enlisted closed listed refusal else listed) := by
  rcases poll_cases x i with ⟨e, he⟩ | ⟨hf, hfired⟩ | ⟨hf, hfired, harmed⟩ | hasks
  · rw [poll_of_failure he, if_neg (by simp [asks_iff, he])]
    exact h
  · rw [poll_of_fired hf hfired, if_neg (by simp [asks_iff, hfired])]
    exact sound_taken h i
  · rw [poll_of_armed hf hfired harmed, if_neg (by simp [asks_iff, harmed])]
    exact sound_wait h i
  · rw [poll_of_asks hasks, if_pos hasks]
    cases closed with
    | true => exact sound_wait h i
    | false =>
      cases refusal with
      | some e => exact sound_refused h e
      | none =>
        rw [enlisted_eq h, Option.isNone_none, Bool.or_true]
        exact sound_suspend h hasks

/-- **Readiness that comes** takes what it hits from what is armed, and from the mask. -/
theorem sound_fire (h : x.Sound closed listed) (ready : InterestSet) :
    (x.fire ready).Sound closed listed := by
  -- what stays armed was not hit
  have hcases : ∀ j, (x.fire ready).armed.contains j = true →
      x.armed.contains j = true ∧ ready.contains j = false := by
    intro j hj
    simp only [fire, InterestSet.contains_eraseAll, InterestSet.contains_inter] at hj
    cases ha : x.armed.contains j <;> cases hr : ready.contains j <;> simp_all
  refine ⟨fun j hj => h.failure j (hcases j hj).1, fun j hj => ?_, fun j hj => ?_, fun j hj => ?_,
    fun j hf hj => ?_, h.listed_eq, h.of_closed⟩
  · obtain ⟨ha, hr⟩ := hcases j hj
    simp [fire, h.not_fired j ha, hr]
  · obtain ⟨ha, hr⟩ := hcases j hj
    simp [fire, h.mask j ha, hr]
  · obtain ⟨ha, hr⟩ := hcases j hj
    simp [fire, h.waiting j ha, hr]
  · refine h.registered j hf ?_
    simp only [fire, InterestSet.contains_eraseAll, InterestSet.contains_inter,
      InterestSet.contains_union] at hj
    cases ha : x.armed.contains j <;> cases hfired : x.fired.contains j <;> simp_all

/-- **A descriptor that is closed** is in no registration. -/
theorem sound_notifyClosed (h : x.Sound closed listed) :
    x.notifyClosed.Sound closed (listed && !x.registered) := by
  refine sound_fail _ (fun hc => ?_) (fun hc => ?_)
  · rw [h.listed_eq hc, Bool.and_not_self]
  · rw [(h.of_closed hc).1, Bool.false_and]

/-- **The selector is closed.** -/
theorem sound_cancel (h : x.Sound closed listed) :
    (if listed then x.fail .cancelled else x).Sound true false := by
  cases listed with
  | true => exact sound_fail _ nofun fun _ => rfl
  | false =>
    -- nobody cancels a selectable that is in no registration, so it must be known that it has none
    have hreg : x.failure = none → x.registered = false := by
      intro hf
      cases closed with
      | true => exact (h.of_closed rfl).2 hf
      | false => exact (h.listed_eq rfl).symm
    exact ⟨h.failure, h.not_fired, h.mask, h.waiting, h.registered, nofun, fun _ => ⟨rfl, hreg⟩⟩

/-- **What is suspended is armed.** -/
theorem armed_of_pending {refusal : Option OpError}
    (h : (x.poll closed refusal i).1 = .pending) :
    (x.poll closed refusal i).2.armed.contains i = true := by
  rcases poll_cases x i with ⟨e, he⟩ | ⟨hf, hfired⟩ | ⟨hf, hfired, harmed⟩ | hasks
  · rw [poll_of_failure he] at h
    cases h
  · rw [poll_of_fired hf hfired] at h
    cases h
  · rw [poll_of_armed hf hfired harmed]
    exact harmed
  · rw [poll_of_asks hasks] at h ⊢
    cases closed with
    | true => cases h
    | false =>
      cases refusal with
      | some e => cases h
      | none =>
        show (x.armed.insert i).contains i = true
        rw [InterestSet.contains_insert, decide_eq_true rfl, Bool.true_or]

/-- What is among the registrations is registered, and the selector is open. -/
theorem Sound.listed_and (h : x.Sound closed listed) : listed = (x.registered && !closed) := by
  cases closed with
  | false => rw [h.listed_eq rfl, Bool.not_false, Bool.and_true]
  | true => rw [(h.of_closed rfl).1, Bool.not_true, Bool.and_false]

/-- **Something is armed or has fired** only where the selector is open, unless there is a failure. -/
theorem Sound.registered_of_live (h : x.Sound closed listed) (hf : x.failure = none)
    (hi : (x.armed.contains i || x.fired.contains i) = true) :
    x.registered = true ∧ closed = false := by
  have hreg := h.registered i hf hi
  refine ⟨hreg, ?_⟩
  cases closed with
  | false => rfl
  | true =>
    rw [(h.of_closed rfl).2 hf] at hreg
    cases hreg

/-- **A closed selector** fails every look. -/
theorem Sound.poll_of_closed (h : x.Sound true listed) (refusal : Option OpError) (i : Interest) :
    ∃ e, (x.poll true refusal i).1 = .failed e := by
  cases hf : x.failure with
  | some e => exact ⟨e, by rw [poll_of_failure hf]⟩
  | none =>
    have hnone : (x.armed.contains i || x.fired.contains i) = false := by
      cases hany : (x.armed.contains i || x.fired.contains i) with
      | false => rfl
      | true => cases (h.registered_of_live hf hany).2
    obtain ⟨harmed, hfired⟩ := Bool.or_eq_false_iff.mp hnone
    have hasks : x.asks i = true := asks_iff.mpr ⟨hf, hfired, harmed⟩
    exact ⟨.cancelled, by rw [poll_of_asks hasks, if_pos rfl]⟩

end Selectable

/-! ## 2. A selector -/

namespace Reactor

variable {r : Reactor} {k : Nat} {x y : Selectable} {i : Interest}

/-- **What holds of a selector**: all its selectables are sound, and nothing else is registered. -/
structure Sound (r : Reactor) : Prop where
  each : ∀ k (x : Selectable), r.selectables[k]? = some x →
    x.Sound r.closed (r.registrations.contains k)
  within : ∀ k, r.selectables[k]? = none → r.registrations.contains k = false

theorem sound_empty : empty.Sound where
  each k x hx := by cases hx
  within _ _ := rfl

/-- What happens leaves the selectable in a place sound. -/
theorem sound_touch (h : x.Sound r.closed (r.registrations.contains k)) (op : Op) :
    (r.touch k x op).1.Sound (r.closed || decide (op = .close)) (r.touch k x op).2 := by
  cases op with
  | create d => simpa [touch] using h
  | select j refusal i =>
    simp only [touch, reduceCtorEq, decide_false, Bool.or_false]
    split
    · exact Selectable.sound_select h refusal i
    · exact h
  | poll j refusal i =>
    simp only [touch, reduceCtorEq, decide_false, Bool.or_false]
    split
    · exact Selectable.sound_poll h refusal i
    · exact h
  | event j ready =>
    simp only [touch, reduceCtorEq, decide_false, Bool.or_false]
    split
    · exact Selectable.sound_fire h ready
    · exact h
  | notifyClosed j =>
    simp only [touch, reduceCtorEq, decide_false, Bool.or_false]
    split
    · exact Selectable.sound_notifyClosed h
    · exact h
  | close =>
    simp only [touch, decide_true, Bool.or_true]
    exact Selectable.sound_cancel h

/-- What is in a place was there before and was touched, or is fresh and nothing is registered for
    it. -/
theorem place_apply (h : r.Sound) (op : Op) (hy : (r.apply op).selectables[k]? = some y) :
    (∃ x, r.selectables[k]? = some x ∧ y = (r.touch k x op).1 ∧
        (r.apply op).registrations.contains k = (r.touch k x op).2) ∨
      ∃ d, y = .fresh d ∧ (r.apply op).registrations.contains k = false := by
  cases hx : r.selectables[k]? with
  | some x =>
    obtain ⟨htouch, hlisted⟩ := apply_touch hx op
    cases htouch.symm.trans hy
    exact .inl ⟨x, rfl, rfl, hlisted⟩
  | none =>
    obtain ⟨hnone | ⟨d, hfresh⟩, hlisted⟩ := apply_new hx (h.within k hx) op
    · cases hnone.symm.trans hy
    · cases hfresh.symm.trans hy
      exact .inr ⟨d, rfl, hlisted⟩

/-- **Whatever happens** leaves a selector sound. -/
theorem sound_apply (h : r.Sound) (op : Op) : (r.apply op).Sound := by
  constructor
  · intro k y hy
    rw [closed_apply]
    rcases place_apply h op hy with ⟨x, hx, rfl, hlisted⟩ | ⟨d, rfl, hlisted⟩
    · rw [hlisted]
      exact sound_touch (h.each k x hx) op
    · rw [hlisted]
      exact Selectable.sound_fresh _ d
  · intro k hk
    cases hx : r.selectables[k]? with
    | some x => cases (apply_touch hx op).1.symm.trans hk
    | none => exact (apply_new hx (h.within k hx) op).2

theorem sound_run (h : r.Sound) (ops : List Op) : (r.run ops).Sound := by
  induction ops generalizing r with
  | nil => exact h
  | cons op ops ih => exact ih (sound_apply h op)

/-! ## 3. What is suspended -/

/-- **Somebody attends to a kind**: nothing of it is to be reported yet, and it will be, since the
    poller is asked for it and knows where to report it, and there is somebody to be woken. -/
structure Attends (r : Reactor) (k : Nat) (x : Selectable) (i : Interest) : Prop where
  not_fired : x.fired.contains i = false
  failure : x.failure = none
  mask : x.mask.contains i = true
  registered : x.registered = true
  listed : k ∈ r.registrations
  waiting : x.waiting.contains i = true

/-- What is armed is attended to, and the selector is open. -/
theorem Sound.attends (h : r.Sound) (hx : r.selectables[k]? = some x)
    (hi : x.armed.contains i = true) : r.Attends k x i ∧ r.closed = false := by
  have hs := h.each k x hx
  have hf := hs.failure i hi
  obtain ⟨hreg, hopen⟩ := hs.registered_of_live hf (by rw [hi, Bool.true_or])
  have hlisted := (hs.listed_eq hopen).trans hreg
  exact ⟨⟨hs.not_fired i hi, hf, hs.mask i hi, hreg, List.contains_iff_mem.mp hlisted,
    hs.waiting i hi⟩, hopen⟩

/-- What fails everything that waits for a selectable, and with which failure: its descriptor is
    closed, the system refuses to watch for it, asked directly or by a look at some kind of which
    nothing is known, or the selector is closed. -/
inductive Fails (k : Nat) (x : Selectable) : Op → SelectError → Prop where
  | notifyClosed : Fails k x (.notifyClosed k) .closed
  | select (e : OpError) (j : Interest) : Fails k x (.select k (some e) j) e.asRegistration
  | poll (e : OpError) (j : Interest) (hfired : x.fired.contains j = false)
      (harmed : x.armed.contains j = false) : Fails k x (.poll k (some e) j) e.asRegistration
  | close : Fails k x .close .cancelled

/-- **An operation is resumed with a failure**: its kind is not armed any more, it was woken, and it
    finds the failure, whenever it looks. -/
structure Resumed (r : Reactor) (k : Nat) (i : Interest) (e : SelectError) : Prop where
  woken : ∃ y, r.selectables[k]? = some y ∧ y.armed.contains i = false ∧
    y.waiting.contains i = false ∧ y.failure = some e
  finds : ∀ later refusal j, ((r.run later).poll k refusal j).1 = .failed e

theorem poll_eq_failed {e : SelectError} (hx : r.selectables[k]? = some x)
    (he : x.failure = some e) (refusal : Option OpError) (i : Interest) :
    (r.poll k refusal i).1 = .failed e := by
  simp only [poll, hx, Selectable.poll_of_failure he]

/-- Where everything was failed. -/
theorem resumed_of_fail {e : SelectError} (hx : r.selectables[k]? = some x) (ha : x.armed = .empty)
    (hw : x.waiting = .empty) (he : x.failure = some e) (i : Interest) : r.Resumed k i e where
  woken := ⟨x, hx, by rw [ha]; simp, by rw [hw]; simp, he⟩
  finds later refusal j := by
    obtain ⟨y, hy, hfailure⟩ := failure_run hx he later
    exact poll_eq_failed hy hfailure refusal j

/-- **What ends a suspended operation** resumes it with a failure. -/
theorem Sound.resumed (h : r.Sound) (hx : r.selectables[k]? = some x)
    (hi : x.armed.contains i = true) {op : Op} {e : SelectError} (hop : Fails k x op e) :
    (r.apply op).Resumed k i e := by
  obtain ⟨hattends, hopen⟩ := h.attends hx hi
  have hlisted : r.registrations.contains k = true := List.contains_iff_mem.mpr hattends.listed
  have hfail : ∀ e', (x.fail e').failure = some e' := by
    intro e'
    rw [Selectable.failure_fail, hattends.failure, Option.getD_none]
  have htouch := (apply_touch hx op).1
  cases hop with
  | notifyClosed =>
    simp only [touch, if_true] at htouch
    refine resumed_of_fail htouch rfl rfl ?_ i
    show x.failure.or _ = _
    rw [hattends.failure]
    rfl
  | select e j =>
    simp only [touch, if_true, hopen] at htouch
    exact resumed_of_fail htouch rfl rfl (hfail _) i
  | poll e j hfired harmed =>
    have hasks : x.asks j = true := Selectable.asks_iff.mpr ⟨hattends.failure, hfired, harmed⟩
    simp only [touch, if_true, hopen, Selectable.poll_of_asks hasks] at htouch
    exact resumed_of_fail htouch rfl rfl (hfail _) i
  | close =>
    simp only [touch, hlisted, if_true] at htouch
    exact resumed_of_fail htouch rfl rfl (hfail _) i

/-- **A closed selector** fails every look. -/
theorem Sound.poll_of_closed (h : r.Sound) (hc : r.closed = true)
    (hx : r.selectables[k]? = some x) (refusal : Option OpError) (i : Interest) :
    ∃ e, (r.poll k refusal i).1 = .failed e := by
  have hs := h.each k x hx
  simp only [poll, hx, hc] at hs ⊢
  exact hs.poll_of_closed refusal i

/-- A look that suspends arms the kind. -/
theorem armed_of_pending (hx : r.selectables[k]? = some x) {refusal : Option OpError}
    (h : (r.poll k refusal i).1 = .pending) :
    ∃ y, (r.poll k refusal i).2.selectables[k]? = some y ∧ y.armed.contains i = true := by
  have htouch := (apply_touch hx (.poll k refusal i)).1
  simp only [touch, if_true] at htouch
  simp only [poll, hx] at h
  exact ⟨_, htouch, Selectable.armed_of_pending h⟩

/-- **No suspended operation is left behind.** Whatever happened to a selector, a look that suspends
    arms its kind, and a kind that is armed is attended to. If then the descriptor is closed, the
    system refuses the selectable, or the selector is closed, whoever waits for the kind is woken and
    finds the failure, at once and at any later time. Once the selector is closed, no look at any
    selectable suspends or succeeds. -/
theorem run_attends (ops : List Op) :
    (∀ k x refusal i, (empty.run ops).selectables[k]? = some x →
      ((empty.run ops).poll k refusal i).1 = .pending →
      ∃ y, ((empty.run ops).poll k refusal i).2.selectables[k]? = some y ∧
        y.armed.contains i = true) ∧
    (∀ k x i, (empty.run ops).selectables[k]? = some x → x.armed.contains i = true →
      (empty.run ops).Attends k x i ∧
        ∀ op e, Fails k x op e → ((empty.run ops).apply op).Resumed k i e) ∧
    (.close ∈ ops → ∀ k x, (empty.run ops).selectables[k]? = some x → ∀ refusal i,
      ∃ e, ((empty.run ops).poll k refusal i).1 = .failed e) := by
  have hsound := sound_run sound_empty ops
  refine ⟨fun k x refusal i hx h => armed_of_pending hx h, ?_, ?_⟩
  · intro k x i hx hi
    exact ⟨(hsound.attends hx hi).1, fun op e hop => hsound.resumed hx hi hop⟩
  · intro hclose k x hx refusal i
    refine hsound.poll_of_closed ?_ hx refusal i
    rw [closed_run, decide_eq_true hclose, Bool.or_true]

/-- A descriptor on which a read is suspended. -/
def inWait : List Op := [.create 7, .poll 0 none .read]

/-- A write is suspended there too; the read finds that the descriptor was closed, and nothing waits
    where the selector is closed. -/
theorem run_attends_inWait :
    (∃ y, ((empty.run inWait).poll 0 none .write).2.selectables[0]? = some y ∧
      y.armed.contains .write = true) ∧
    (∃ x, (empty.run inWait).Attends 0 x .read) ∧
    ((empty.run inWait).apply (.notifyClosed 0)).Resumed 0 .read .closed ∧
    ∃ e, ((empty.run (inWait ++ [.close])).poll 0 none .write).1 = .failed e := by
  have harmed := (run_attends inWait).1 0 _ none .write rfl rfl
  obtain ⟨hattends, hresumed⟩ := (run_attends inWait).2.1 0 _ .read rfl rfl
  exact ⟨harmed, ⟨_, hattends⟩, hresumed _ _ .notifyClosed,
    (run_attends (inWait ++ [.close])).2.2 (by decide) 0 _ rfl none .write⟩

end Reactor

end Sluice.Selector
