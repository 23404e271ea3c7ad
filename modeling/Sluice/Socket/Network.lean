/-
  File:      Sluice/Socket/Network.lean
  Subject:   A listener and its connections on one machine.

  * `Listener`, `Network`: the listening socket, the connections that wait for it, and all sockets;
  * `connect`, `accept`: both ends of a connection;
  * `read`, `write`, `finish`, `close`, `drop`: the operations of a socket, and what the other end
    sees of them;
  * `closeListener`, `dropListener`, `closeSelector`: what ends them;
  * `acceptPending`: accepting as long as there is something to accept.

  The sockets of a connection stand side by side: that of the client in an even place, the accepted
  one behind it. A machine without a route does not reach even itself.
-/
import Sluice.Socket.Address
import Sluice.Socket.Channel
import Sluice.Socket.Options

namespace Sluice.Socket

open Sluice.Selector

/-- How far a listener is. -/
inductive ListenerState where
  | bound
  | closed
  deriving DecidableEq, Repr

/-- The name of a state. -/
def ListenerState.name : ListenerState → String
  | .bound => "Bound"
  | .closed => "Closed"

/-- A listening socket and the places of the connections that wait to be accepted. -/
structure Listener where
  host : Host
  state : ListenerState
  selectable : Selectable
  backlog : List Nat
  deriving DecidableEq, Repr

/-- The sockets of one machine under one selector. -/
structure Network where
  reachable : Bool
  selectorClosed : Bool
  listener : Option Listener
  channels : List Channel
  deriving DecidableEq, Repr

namespace Network

def unreachable : OpError :=
  .system .networkUnreachable "Network is unreachable (os error 101)"
def refused : OpError := .system .connectionRefused "Connection refused (os error 111)"
def closed : OpError := .ofSelect .closed
def cancelled : OpError := .ofSelect .cancelled

/-- A listener on a host; without one, on all interfaces. -/
def bind (reachable : Bool) (host : Option Host) : Network :=
  ⟨reachable, false, some ⟨host.getD .unspecified, .bound, .fresh 0, []⟩, []⟩

/-- The place of the other end. -/
def peer (i : Nat) : Nat := if i % 2 = 0 then i + 1 else i - 1

/-- The socket in a place changed. -/
def modify (n : Network) (i : Nat) (f : Channel → Channel) : Network :=
  { n with channels := n.channels.modify i f }

/-! ## 1. Connections -/

/-- Connects to the listener: the place of the client's socket, or why there is no connection. -/
def connect (n : Network) : Except OpError Nat × Network :=
  if !n.reachable then (.error unreachable, n)
  else
    match n.listener with
    | none => (.error refused, n)
    | some l =>
      let i := n.channels.length
      let n := { n with
        listener := some { l with backlog := l.backlog ++ [i + 1] }
        channels := n.channels ++
          [Channel.fresh .connected n.selectorClosed, Channel.fresh .idle n.selectorClosed] }
      if n.selectorClosed then
        (.error cancelled, (n.modify i .close).modify (i + 1) .peerEnd)
      else (.ok i, n)

/-- Accepts the connection that waits longest. -/
def accept (n : Network) : Progress Nat × Network :=
  match n.listener with
  | none => (.failed closed, n)
  | some l =>
    if l.state = .closed then (.failed closed, n)
    else
      match l.backlog with
      | i :: later =>
        (.done i, { n with listener := some { l with backlog := later } }.modify i
          fun c => { c with state := .connected, selectorClosed := n.selectorClosed })
      | [] =>
        match l.selectable.poll n.selectorClosed none .accept with
        | (.failed e, selectable) =>
          (.failed (.ofSelect e), { n with listener := some { l with selectable } })
        | (_, selectable) => (.suspended, { n with listener := some { l with selectable } })

/-- Accepts at most `most` connections, as long as some wait; how the last accept ended, if it was
    not by a connection. -/
def acceptPending (n : Network) : Nat → List Nat × Option (Progress Nat) × Network
  | 0 => ([], none, n)
  | most + 1 =>
    match n.accept with
    | (.done i, n) =>
      let (places, last, n) := n.acceptPending most
      (i :: places, last, n)
    | (last, n) => ([], some last, n)

/-! ## 2. Sockets -/

/-- Reads from a socket. -/
def read (n : Network) (i : Nat) (most : Nat) : Progress (List UInt8) × Network :=
  match n.channels[i]? with
  | none => (.failed closed, n)
  | some c =>
    let (r, c) := c.read most
    (r, { n with channels := n.channels.set i c })

/-- Writes to a socket; what the stream takes reaches the other end. -/
def write (n : Network) (i : Nat) (bytes : List UInt8) : Except OpError Unit × Network :=
  match n.channels[i]? with
  | none => (.error closed, n)
  | some c =>
    let w := c.write bytes
    (w.result.getD (.ok ()), n.modify (peer i) (·.receive w.taken))

/-- A socket sends no more. -/
def finish (n : Network) (i : Nat) : Except OpError Unit × Network :=
  match n.channels[i]? with
  | none => (.error closed, n)
  | some c =>
    match c.finish none with
    | (.error e, _) => (.error e, n)
    | (.ok (), c) => (.ok (), { n with channels := n.channels.set i c }.modify (peer i) .peerEnd)

/-- The other end of a socket that is closed receives no more. -/
def endPeer (n : Network) (i : Nat) : Network :=
  if (n.channels[i]?).any (·.isClosed) then n.modify (peer i) .peerEnd else n

/-- Closes a socket. -/
def close (n : Network) (i : Nat) : Network := (n.modify i .close).endPeer i

/-- Drops a handle of a socket. -/
def drop (n : Network) (i : Nat) : Network := (n.modify i .drop).endPeer i

/-! ## 3. The listener and the selector -/

/-- Closes the listener; a suspended accept fails. -/
def closeListener (n : Network) : Network :=
  { n with
    listener := n.listener.map fun l =>
      if l.state = .closed then l
      else { l with state := .closed, selectable := l.selectable.notifyClosed } }

/-- Gives the listener up: nobody connects any more. -/
def dropListener (n : Network) : Network := { n with listener := none }

/-- Closes the selector: everything that waits fails. -/
def closeSelector (n : Network) : Network :=
  { n with
    selectorClosed := true
    listener := n.listener.map fun l =>
      if l.selectable.registered && !n.selectorClosed then
        { l with selectable := l.selectable.fail .cancelled }
      else l
    channels := n.channels.map .cancel }

/-- The selector reports all readiness that there is. -/
def settle (n : Network) : Network :=
  { n with
    listener := n.listener.map fun l =>
      if l.selectable.registered && !n.selectorClosed then
        { l with selectable := l.selectable.fire (.ofDirections (!l.backlog.isEmpty) false) }
      else l
    channels := n.channels.map .settle }

/-- Reads from a socket, waiting for readiness. There is no answer if it never comes. -/
def readWaiting? (n : Network) (i : Nat) (most : Nat) :
    Option (Except OpError (List UInt8) × Network) :=
  match n.read i most with
  | (.done bytes, n) => some (.ok bytes, n)
  | (.failed e, n) => some (.error e, n)
  | (.suspended, n) =>
    match n.settle.read i most with
    | (.done bytes, n) => some (.ok bytes, n)
    | (.failed e, n) => some (.error e, n)
    | (.suspended, _) => none

end Network

end Sluice.Socket
