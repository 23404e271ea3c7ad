/-
  File:      Sluice/Selector/Reactor.lean
  Subject:   A selector: the selectables of one poller, and which of them it knows.

  * `Reactor`: the selectables in the order they were made, the registrations, and whether the
    selector is closed;
  * `create`, `select`, `poll`, `event`, `notifyClosed`, `close`: what can happen, each at once;
  * `enrol`: when a selectable comes among the registrations;
  * `Op`, `Reactor.apply`, `Reactor.run`: histories of it.

  What the system answers to a registration, and what it reports as ready, is given from outside.
-/
import Sluice.Selector.Selectable

namespace Sluice.Selector

/-- A selector. A selectable is known by its place. -/
structure Reactor where
  selectables : List Selectable
  registrations : List Nat
  closed : Bool
  deriving DecidableEq, Repr

namespace Reactor

/-- A selector without selectables. -/
def empty : Reactor := ⟨[], [], false⟩

/-- A selectable for a descriptor; nothing is registered yet. -/
def create (r : Reactor) (descriptor : Nat) : Reactor :=
  { r with selectables := r.selectables ++ [.fresh descriptor] }

/-- Another selectable in a place. -/
def put (r : Reactor) (k : Nat) (x : Selectable) : Reactor :=
  { r with selectables := r.selectables.set k x }

/-- A place among the registrations. -/
def list (r : Reactor) (k : Nat) : Reactor := { r with registrations := r.registrations.insert k }

/-- A place among the registrations no more. -/
def unlist (r : Reactor) (k : Nat) : Reactor :=
  { r with registrations := r.registrations.filter (· != k) }

/-- The registrations when the selector is asked to watch for a selectable. One that is not registered
    is among them before the system is asked, and leaves them again if that refuses. -/
def enrol (r : Reactor) (k : Nat) (registered : Bool) (refusal : Option OpError) : Reactor :=
  if r.closed || registered then r
  else if refusal.isSome then (r.list k).unlist k
  else r.list k

/-- A kind joins the mask of a selectable. -/
def select (r : Reactor) (k : Nat) (refusal : Option OpError) (i : Interest) :
    Option SelectError × Reactor :=
  match r.selectables[k]? with
  | none => (none, r)
  | some x =>
    let (e, y) := x.select r.closed refusal i
    (e, (r.enrol k x.registered refusal).put k y)

/-- One look at a kind of a selectable. -/
def poll (r : Reactor) (k : Nat) (refusal : Option OpError) (i : Interest) : Polled × Reactor :=
  match r.selectables[k]? with
  | none => (.pending, r)
  | some x =>
    let (p, y) := x.poll r.closed refusal i
    (p, (if x.asks i then r.enrol k x.registered refusal else r).put k y)

/-- The poller reports readiness. Only a selectable among the registrations takes notice. -/
def event (r : Reactor) (k : Nat) (ready : InterestSet) : Reactor :=
  match r.selectables[k]? with
  | none => r
  | some x => if r.registrations.contains k then r.put k (x.fire ready) else r

/-- The descriptor of a selectable is closed. -/
def notifyClosed (r : Reactor) (k : Nat) : Reactor :=
  match r.selectables[k]? with
  | none => r
  | some x => (if x.registered then r.unlist k else r).put k x.notifyClosed

/-- The selector is closed: what waits for a selectable among the registrations is woken, and there are
    no registrations any more. -/
def close (r : Reactor) : Reactor where
  selectables := r.selectables.mapIdx fun k x =>
    if r.registrations.contains k then x.fail .cancelled else x
  registrations := []
  closed := true

/-- Something that happens to a selector. -/
inductive Op where
  | create (descriptor : Nat)
  | select (k : Nat) (refusal : Option OpError) (i : Interest)
  | poll (k : Nat) (refusal : Option OpError) (i : Interest)
  | event (k : Nat) (ready : InterestSet)
  | notifyClosed (k : Nat)
  | close
  deriving DecidableEq, Repr

/-- A selector after something happened. -/
def apply (r : Reactor) : Op → Reactor
  | .create d => r.create d
  | .select k refusal i => (r.select k refusal i).2
  | .poll k refusal i => (r.poll k refusal i).2
  | .event k ready => r.event k ready
  | .notifyClosed k => r.notifyClosed k
  | .close => r.close

/-- A selector after a history. -/
def run (r : Reactor) (ops : List Op) : Reactor := ops.foldl apply r

end Reactor

end Sluice.Selector
