/-
  File:      Sluice/Selector/Poller.lean
  Subject:   A selector over descriptors in memory.

  * `Target`: what a descriptor stands for, and what it is ready for;
  * `Poller.refusal?`: why the system refuses to watch a descriptor;
  * `Poller.settle`: the readiness that there is, reported to everything that waits for it;
  * `select`, `poll`, `notifyClosed`, `close`: the operations of the selector;
  * `wait?`: looking at a kind until there is an answer, if one ever comes.
-/
import Sluice.Selector.Reactor

namespace Sluice.Selector

/-- What a descriptor stands for: one end of a pair, with the bytes that came and whether the other
    end is closed; a file, which is not watched; or nothing. -/
inductive Target where
  | pair (inbox : List UInt8) (peerClosed : Bool)
  | file
  | nothing
  deriving DecidableEq, Repr

/-- What a descriptor is ready for: an end of a pair is always writable, and readable when something
    came or the other end is closed. -/
def Target.ready : Target → InterestSet
  | .pair inbox peerClosed => .ofDirections (!inbox.isEmpty || peerClosed) true
  | .file | .nothing => .empty

/-- A selector and the descriptors under it. -/
structure Poller where
  reactor : Reactor
  targets : List Target
  deriving DecidableEq, Repr

namespace Poller

def notOpen : OpError := .system .uncategorized "Bad file descriptor (os error 9)"
def notWatchable : OpError := .system .permissionDenied "Operation not permitted (os error 1)"
def alreadyWatched : OpError := .system .alreadyExists "File exists (os error 17)"

/-- Some selectable of the descriptor is registered. -/
def watches (p : Poller) (descriptor : Nat) : Bool :=
  p.reactor.selectables.any fun x => x.descriptor == descriptor && x.registered

/-- Why the system refuses to watch for a selectable: the descriptor is not open, or cannot be
    watched, or is watched for another one. -/
def refusal? (p : Poller) (k : Nat) : Option OpError :=
  match p.reactor.selectables[k]? with
  | none => none
  | some x =>
    if x.registered then none
    else
      match p.targets[x.descriptor]? with
      | some (.pair _ _) => if p.watches x.descriptor then some alreadyWatched else none
      | some .file => some notWatchable
      | some .nothing | none => some notOpen

/-- What the descriptor of a selectable is ready for. -/
def ready (p : Poller) (k : Nat) : InterestSet :=
  match p.reactor.selectables[k]? with
  | none => .empty
  | some x => ((p.targets[x.descriptor]?).map Target.ready).getD .empty

/-- All readiness that there is, reported. -/
def settle (p : Poller) : Poller :=
  { p with
    reactor := (List.range p.reactor.selectables.length).foldl
      (fun r k => r.event k (p.ready k)) p.reactor }

/-- A kind joins the mask of a selectable. -/
def select (p : Poller) (k : Nat) (i : Interest) : Option SelectError × Poller :=
  let (e, reactor) := p.reactor.select k (p.refusal? k) i
  (e, { p with reactor })

/-- One look at a kind of a selectable. -/
def poll (p : Poller) (k : Nat) (i : Interest) : Polled × Poller :=
  let (a, reactor) := p.reactor.poll k (p.refusal? k) i
  (a, { p with reactor })

/-- Looks at a kind until it is ready or failed. There is no answer if it never comes. -/
def wait? (p : Poller) (k : Nat) (i : Interest) : Option (Except SelectError Unit × Poller) :=
  match p.poll k i with
  | (.ready, p) => some (.ok (), p)
  | (.failed e, p) => some (.error e, p)
  | (.pending, p) =>
    match p.settle.poll k i with
    | (.ready, p) => some (.ok (), p)
    | (.failed e, p) => some (.error e, p)
    | (.pending, _) => none

/-- The descriptor of a selectable is closed. -/
def notifyClosed (p : Poller) (k : Nat) : Poller :=
  { p with reactor := p.reactor.notifyClosed k }

/-- The selector is closed. -/
def close (p : Poller) : Poller := { p with reactor := p.reactor.close }

/-- A selectable for a descriptor, known by the place given. -/
def create (p : Poller) (descriptor : Nat) : Nat × Poller :=
  (p.reactor.selectables.length, { p with reactor := p.reactor.create descriptor })

/-- The other end of a pair writes. -/
def peerWrite (p : Poller) (descriptor : Nat) (bytes : List UInt8) : Poller :=
  { p with
    targets := p.targets.modify descriptor fun
      | .pair inbox peerClosed => .pair (inbox ++ bytes) peerClosed
      | t => t }

/-- The other end of a pair is closed. -/
def peerClose (p : Poller) (descriptor : Nat) : Poller :=
  { p with
    targets := p.targets.modify descriptor fun
      | .pair inbox _ => .pair inbox true
      | t => t }

/-- Everything that came to an end of a pair is read. -/
def drain (p : Poller) (descriptor : Nat) : List UInt8 × Poller :=
  match p.targets[descriptor]? with
  | some (.pair inbox peerClosed) =>
    (inbox, { p with targets := p.targets.set descriptor (.pair [] peerClosed) })
  | _ => ([], p)

end Poller

end Sluice.Selector
