/-
  File:      Sluice/Selector/Selectable.lean
  Subject:   A descriptor and the operations suspended on it.

  * `Selectable`: for each kind of readiness, whether somebody waits to be woken, whether it is armed
    (the poller is to report it) and whether it has fired (it came and nobody took notice yet); the
    mask that the poller knows of; and the failure that ends everything;
  * `select`: a kind joins the mask, unless the selector is closed or the system refuses;
  * `look`, `poll`: what is known of a kind, and one look at it, which arms it if there is nothing to
    report;
  * `fire`, `fail`, `notifyClosed`: readiness comes, everything fails, the descriptor is closed.
-/
import Sluice.Selector.Error
import Sluice.Selector.Interest

namespace Sluice.Selector

/-- What a look at a kind of readiness comes to. -/
inductive Polled where
  | ready
  | pending
  | failed (e : SelectError)
  deriving DecidableEq, Repr

/-- A descriptor, seen from the selector. -/
structure Selectable where
  descriptor : Nat
  mask : InterestSet
  waiting : InterestSet
  armed : InterestSet
  fired : InterestSet
  registered : Bool
  failure : Option SelectError
  deriving DecidableEq, Repr

namespace Selectable

/-- Nothing waits for the descriptor. -/
def fresh (descriptor : Nat) : Selectable :=
  ⟨descriptor, .empty, .empty, .empty, .empty, false, none⟩

/-- Everything that waits is woken, to find a failure. The first failure stays. -/
def fail (x : Selectable) (e : SelectError) : Selectable :=
  { x with
    mask := .empty
    waiting := .empty
    armed := .empty
    failure := x.failure.or (some e) }

/-- A kind joins the mask. A closed selector changes nothing; a refusal of the system fails
    everything that waits. The mask is never empty then, so there is something to watch. -/
def select (x : Selectable) (closed : Bool) (refusal : Option OpError) (i : Interest) :
    Option SelectError × Selectable :=
  if closed then (some .cancelled, x)
  else
    match refusal with
    | none => (none, { x with mask := x.mask.insert i, registered := true })
    | some e => (some e.asRegistration, x.fail e.asRegistration)

/-- What is known of a kind: a failure is reported first, then readiness that came before, which is
    reported once. -/
def look (x : Selectable) (i : Interest) : Polled × Selectable :=
  match x.failure with
  | some e => (.failed e, x)
  | none =>
    if x.fired.contains i then (.ready, { x with fired := x.fired.erase i })
    else (.pending, x)

/-- One look at a kind. If nothing is known of it, the operation waits to be woken, the kind is armed,
    if it is not yet, and what may have come meanwhile is looked for again. -/
def poll (x : Selectable) (closed : Bool) (refusal : Option OpError) (i : Interest) :
    Polled × Selectable :=
  match x.look i with
  | (.pending, x) =>
    let x := { x with waiting := x.waiting.insert i }
    if x.armed.contains i then x.look i
    else
      match { x with armed := x.armed.insert i }.select closed refusal i with
      | (some e, x) => (.failed e, { x with armed := x.armed.erase i })
      | (none, x) => x.look i
  | answer => answer

/-- A look asks the selector to watch: nothing is known of the kind, and it is not armed. -/
def asks (x : Selectable) (i : Interest) : Bool :=
  x.failure.isNone && !x.fired.contains i && !x.armed.contains i

/-- Readiness comes: what is armed of it fires, which wakes who waits for it, and leaves the mask. -/
def fire (x : Selectable) (ready : InterestSet) : Selectable :=
  let hit := x.armed.inter ready
  { x with
    waiting := x.waiting.eraseAll hit
    armed := x.armed.eraseAll hit
    fired := x.fired.union hit
    mask := x.mask.eraseAll hit }

/-- The descriptor is closed: the poller forgets it, and everything that waits fails. -/
def notifyClosed (x : Selectable) : Selectable :=
  { x with mask := .empty, registered := false }.fail .closed

/-! ## 1. Failures stay -/

@[simp] theorem failure_fail (x : Selectable) (e : SelectError) :
    (x.fail e).failure = some (x.failure.getD e) := by
  cases h : x.failure <;> simp [fail, h]

@[simp] theorem failure_fire (x : Selectable) (ready : InterestSet) :
    (x.fire ready).failure = x.failure := rfl

theorem poll_of_failure {x : Selectable} {e : SelectError} (h : x.failure = some e)
    (closed : Bool) (refusal : Option OpError) (i : Interest) :
    x.poll closed refusal i = (.failed e, x) := by
  simp [poll, look, h]

/-! ## 2. What a look comes to -/

section Poll

variable {x : Selectable} {i : Interest}

theorem asks_iff : x.asks i = true ↔
    x.failure = none ∧ x.fired.contains i = false ∧ x.armed.contains i = false := by
  simp [asks, and_assoc]

theorem poll_of_fired (hf : x.failure = none) (hi : x.fired.contains i = true) (closed : Bool)
    (refusal : Option OpError) :
    x.poll closed refusal i = (.ready, { x with fired := x.fired.erase i }) := by
  simp [poll, look, hf, hi]

theorem poll_of_armed (hf : x.failure = none) (hi : x.fired.contains i = false)
    (ha : x.armed.contains i = true) (closed : Bool) (refusal : Option OpError) :
    x.poll closed refusal i = (.pending, { x with waiting := x.waiting.insert i }) := by
  simp [poll, look, hf, hi, ha]

/-- **Where the selector is asked**: a closed one refuses and leaves everything unarmed, a refusal of
    the system fails everything that waits, and otherwise the operation is suspended. -/
theorem poll_of_asks (h : x.asks i = true) (closed : Bool) (refusal : Option OpError) :
    x.poll closed refusal i =
      if closed then (.failed .cancelled, { x with waiting := x.waiting.insert i })
      else
        match refusal with
        | none =>
          (.pending,
            { x with
              mask := x.mask.insert i
              waiting := x.waiting.insert i
              armed := x.armed.insert i
              registered := true })
        | some e => (.failed e.asRegistration, x.fail e.asRegistration) := by
  obtain ⟨hf, hi, ha⟩ := asks_iff.mp h
  have herase : (x.armed.insert i).erase i = x.armed := by
    refine InterestSet.ext_contains fun j => ?_
    by_cases hj : j = i <;> simp [hj, ha]
  have hempty : InterestSet.empty.erase i = .empty :=
    InterestSet.ext_contains fun j => by simp
  cases closed with
  | true => simp [poll, look, select, hf, hi, ha, herase]
  | false =>
    cases refusal with
    | none => simp [poll, look, select, hf, hi, ha]
    | some e => simp [poll, look, select, fail, hf, hi, ha, hempty]

/-- A look finds a failure, or readiness, or that the kind is armed, or asks the selector. -/
theorem poll_cases (x : Selectable) (i : Interest) :
    (∃ e, x.failure = some e) ∨ (x.failure = none ∧ x.fired.contains i = true) ∨
      (x.failure = none ∧ x.fired.contains i = false ∧ x.armed.contains i = true) ∨
      x.asks i = true := by
  rw [asks_iff]
  cases x.failure with
  | some e => exact .inl ⟨e, rfl⟩
  | none =>
    cases x.fired.contains i with
    | true => exact .inr (.inl ⟨rfl, rfl⟩)
    | false =>
      cases x.armed.contains i with
      | true => exact .inr (.inr (.inl ⟨rfl, rfl, rfl⟩))
      | false => exact .inr (.inr (.inr ⟨rfl, rfl, rfl⟩))

/-- **Readiness is reported once:** it had fired, and has not any more. -/
theorem poll_ready {x y : Selectable} {closed : Bool} {refusal : Option OpError} {i : Interest}
    (h : x.poll closed refusal i = (.ready, y)) :
    x.failure = none ∧ x.fired.contains i = true ∧ y = { x with fired := x.fired.erase i } := by
  rcases poll_cases x i with ⟨e, hf⟩ | ⟨hf, hi⟩ | ⟨hf, hi, ha⟩ | hasks
  · rw [poll_of_failure hf] at h
    cases h
  · rw [poll_of_fired hf hi] at h
    cases h
    exact ⟨hf, hi, rfl⟩
  · rw [poll_of_armed hf hi ha] at h
    cases h
  · rw [poll_of_asks hasks] at h
    split at h
    · cases h
    · split at h <;> cases h

end Poll

end Selectable

end Sluice.Selector
