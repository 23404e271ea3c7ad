/-
  File:      Sluice/Socket/Session.lean
  Subject:   Named sockets of one network, one operation after the other.

  * `Session`: the network, and the handles by their names;
  * `Operation`, `Answer`: what can be asked for, and what comes of it;
  * `Session.step?`: one operation. There is no answer where it would wait for ever, or names a
    handle that does not exist.
-/
import Sluice.Socket.Network

namespace Sluice.Socket

open Sluice.Selector

/-- What ends a suspended operation. -/
inductive Interruption where
  | close
  | selector
  | drop
  deriving DecidableEq, Repr

/-- An operation on the sockets of a session. -/
inductive Operation where
  | connect (name : String)
  | accept (name : String)
  | pollAccept
  | write (name : String) (bytes : List UInt8)
  | read (name : String) (count piece : Nat)
  | readToEnd (name : String) (limit : Option Nat)
  | pollRead (name : String)
  | finish (name : String)
  | split (name reading writing : String)
  | state (name : String)
  | close (name : String)
  | drop (name : String)
  | transfer (sender receiver : String) (bytes : List UInt8)
  | closeListener
  | dropListener
  | closeSelector
  /-- an accept, and what happens while it may be suspended -/
  | acceptDuring (how : Interruption)
  /-- accepting until it is suspended, and what ends it then; or until it fails, with the listener
      closed at the last of `count` -/
  | acceptLoop (how : Option Interruption) (count : Nat)
  /-- a read of one half, and what is done to the other while it may be suspended -/
  | readDuring (reading writing : String) (how : Interruption)
  deriving DecidableEq, Repr

/-- What comes of an operation. -/
inductive Answer where
  | done
  | pending
  | flag (value : Bool)
  | count (n : Nat)
  | state (name : String) (closed : Bool)
  | failed (e : OpError)
  /-- bytes that were read, and whether the end or a failure came behind them -/
  | data (bytes : List UInt8) (atEnd : Bool) (failure : Option OpError)
  | whole (bytes : List UInt8) (failure : Option OpError)
  | transferred (failure : Option OpError) (same : Bool)
  | resumed (suspended : Bool) (answer : Answer)
  | accepted (n : Nat)

/-- A handle: a whole socket, or a half of one. -/
structure Handle where
  place : Nat
  isHalf : Bool
  deriving DecidableEq, Repr

/-- The sockets of a network by their names. -/
structure Session where
  network : Network
  handles : List (String × Handle)

/-- What a read came to that waited for all it was asked for. -/
structure Gathered where
  bytes : List UInt8
  atEnd : Bool
  failure : Option OpError
  network : Network

namespace Network

/-- Reads at most `piece` bytes at a time until `count` of them are there, or the end, or a failure.
    There is no answer if they never come. -/
def gather? (n : Network) (i piece count : Nat) (got : List UInt8) : Option Gathered :=
  if count = 0 then some ⟨got, false, none, n⟩
  else
    match n.readWaiting? i (min piece count) with
    | none => none
    | some (.error e, n) => some ⟨got, false, some e, n⟩
    | some (.ok [], n) => some ⟨got, true, none, n⟩
    | some (.ok (b :: bs), n) => n.gather? i piece (count - (bs.length + 1)) (got ++ b :: bs)
termination_by count

/-- What came to a socket and is unread. -/
def unread (n : Network) (i : Nat) : Nat :=
  ((n.channels[i]?).map (·.stream.inbox.length)).getD 0

/-- How many connections wait to be accepted. -/
def waiting (n : Network) : Nat := (n.listener.map (·.backlog.length)).getD 0

/-- What interrupts an operation, done to the listener. -/
def interruptAccept (n : Network) : Interruption → Network
  | .selector => n.closeSelector
  | .close | .drop => n.closeListener

/-- What interrupts an operation, done to a socket. -/
def interruptRead (n : Network) (i : Nat) : Interruption → Network
  | .selector => n.closeSelector
  | .close => n.close i
  | .drop => n.drop i

/-- An operation that is polled, interrupted, and polled again if it was suspended. -/
def during {α : Type} (n : Network) (poll : Network → Progress α × Network)
    (interrupt : Network → Network) (answer : α → Answer) : Answer × Network :=
  match poll n with
  | (.done a, n) => (.resumed false (answer a), interrupt n)
  | (.failed e, n) => (.resumed false (.failed e), interrupt n)
  | (.suspended, n) =>
    match poll (interrupt n) with
    | (.done a, n) => (.resumed true (answer a), n)
    | (.failed e, n) => (.resumed true (.failed e), n)
    | (.suspended, n) => (.resumed true .pending, n)

end Network

namespace Session

/-- The handle of a name. -/
def handle? (s : Session) (name : String) : Option Handle := s.handles.lookup name

/-- A name is given to a handle, and taken from any other. -/
def add (s : Session) (name : String) (h : Handle) : Session :=
  { s with handles := (name, h) :: s.handles.filter (·.1 ≠ name) }

/-- A name is given up. -/
def forget (s : Session) (name : String) : Session :=
  { s with handles := s.handles.filter (·.1 ≠ name) }

/-- An answer, and the network after it. -/
def reply (s : Session) (r : Answer × Network) : Option (Answer × Session) :=
  some (r.1, { s with network := r.2 })

/-- The answer of an operation that only succeeds or fails. -/
def outcome {α : Type} : Except OpError α → Answer
  | .ok _ => .done
  | .error e => .failed e

/-- The failure of an operation that only succeeds or fails. -/
def failure? {α : Type} : Except OpError α → Option OpError
  | .ok _ => none
  | .error e => some e

/-- A new socket under a name. -/
def opened (s : Session) (name : String) (i : Nat) (n : Network) : Option (Answer × Session) :=
  (n.channels[i]?).map fun c =>
    (.state c.state.name c.isClosed, { s with network := n }.add name ⟨i, false⟩)

/-- New sockets under the names of an accept loop. -/
def accepted (s : Session) (places : List Nat) (n : Network) : Option (Answer × Session) :=
  some (.accepted places.length,
    (places.zipIdx 1).foldl (fun s (i, k) => s.add s!"loop{k}" ⟨i, false⟩) { s with network := n })

/-- One operation on the listener. -/
def listenerStep? (s : Session) : Operation → Option (Answer × Session)
  | .accept name =>
    match s.network.accept with
    | (.done i, n) => s.opened name i n
    | (.failed e, n) => s.reply (.failed e, n)
    | (.suspended, _) => none
  | .pollAccept =>
    match s.network.accept with
    | (.done i, n) => s.reply (.done, n.close i)
    | (.failed e, n) => s.reply (.failed e, n)
    | (.suspended, n) => s.reply (.pending, n.settle)
  | .closeListener =>
    let n := s.network.closeListener
    n.listener.bind fun l => s.reply (.state l.state.name (l.state == .closed), n)
  | .acceptDuring how =>
    s.reply (s.network.during Network.accept (·.interruptAccept how) fun _ => .done)
  | .acceptLoop none count =>
    match s.network.acceptPending (if count = 0 then s.network.waiting + 1 else count) with
    | (_, some .suspended, _) => none
    | (places, some _, n) => s.accepted places n
    | (places, none, n) => s.accepted places n.closeListener
  | .acceptLoop (some how) _ =>
    let (places, _, n) := s.network.acceptPending (s.network.waiting + 1)
    s.accepted places (n.interruptAccept how)
  | _ => none

/-- One operation on the socket of a handle. -/
def handleStep? (s : Session) (h : Handle) : Operation → Option (Answer × Session)
  | .write _ bytes =>
    let (r, n) := s.network.write h.place bytes
    s.reply (outcome r, n)
  | .read _ count piece =>
    (s.network.gather? h.place piece count []).bind fun g =>
      s.reply (.data g.bytes g.atEnd g.failure, g.network)
  | .readToEnd _ limit =>
    (s.network.gather? h.place 4096 (limit.getD (s.network.unread h.place + 1)) []).bind fun g =>
      s.reply (.whole g.bytes g.failure, g.network)
  | .pollRead _ =>
    match s.network.settle.read h.place 4096 with
    | (.done bytes, n) => s.reply (.count bytes.length, n)
    | (.failed e, n) => s.reply (.failed e, n)
    | (.suspended, n) => s.reply (.pending, n)
  | .finish _ =>
    let (r, n) := s.network.finish h.place
    s.reply (outcome r, n)
  | .split name reading writing =>
    let s := { s with network := s.network.modify h.place .split }.forget name
    some (.done, (s.add reading ⟨h.place, true⟩).add writing ⟨h.place, true⟩)
  | .state _ =>
    (s.network.channels[h.place]?).map fun c =>
      (if h.isHalf then .flag c.isClosed else .state c.state.name c.isClosed, s)
  | .close _ => s.reply (.flag true, s.network.close h.place)
  | .drop name => some (.done, { s with network := s.network.drop h.place }.forget name)
  | .transfer _ receiver bytes =>
    (s.handle? receiver).bind fun target =>
      let (w, n) := s.network.write h.place bytes
      match failure? w with
      | some e => s.reply (.transferred (some e) false, n)
      | none =>
        (n.gather? target.place 4096 bytes.length []).bind fun g =>
          s.reply (.transferred none (g.bytes == bytes), g.network)
  | .readDuring _ writing how =>
    (s.handle? writing).bind fun w =>
      s.reply (s.network.during (·.read h.place 4096) (·.interruptRead w.place how)
        fun bytes => .count bytes.length)
  | _ => none

/-- One operation. -/
def step? (s : Session) (op : Operation) : Option (Answer × Session) :=
  match op with
  | .connect name =>
    match s.network.connect with
    | (.error e, n) => s.reply (.failed e, n)
    | (.ok i, n) => s.opened name i n
  | .dropListener => s.reply (.done, s.network.dropListener)
  | .closeSelector => s.reply (.flag true, s.network.closeSelector)
  | .accept _ | .pollAccept | .closeListener | .acceptDuring _ | .acceptLoop _ _ =>
    if s.network.listener.isSome then s.listenerStep? op else none
  | .write name _ | .read name _ _ | .readToEnd name _ | .pollRead name | .finish name
  | .split name _ _ | .state name | .close name | .drop name | .transfer name _ _
  | .readDuring name _ _ => (s.handle? name).bind fun h => s.handleStep? h op

end Session

end Sluice.Socket
