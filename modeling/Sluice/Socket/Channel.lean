/-
  File:      Sluice/Socket/Channel.lean
  Subject:   A connected socket over its stream and its selector.

  * `SocketState`, `Closing`, `Channel`: a socket, its stream and its selectable, how many handles are
    left of it, and how far its closing is;
  * `callRead`, `callFinish`, `await`: one call of the system, and one look at what the selector knows;
  * `mark`, `notify`, `shut`: the three effects of closing, in their order;
  * `tryRead`, `read`, `write`, `finish`, `close`, `drop`: the operations, made of these; a read that
    finds nothing is suspended;
  * `cancel`, `event`, `settle`: the selector is closed, or reports what is ready.

  No lock is held between the look at the state and the call behind it, nor from one effect of closing
  to the next: the other half may act there. The operations below are those that nobody comes between.
-/
import Sluice.Selector.Selectable
import Sluice.Socket.Writing

namespace Sluice.Socket

open Sluice.Selector

/-- How far a socket is. -/
inductive SocketState where
  | idle
  | connecting
  | connected
  | closed
  deriving DecidableEq, Repr

/-- The name of a state. -/
def SocketState.name : SocketState → String
  | .idle => "Idle"
  | .connecting => "Connecting"
  | .connected => "Connected"
  | .closed => "Closed"

/-- What is left to do for the one who closes a socket: whoever waits is not told yet, or the stream is
    not shut down yet. -/
inductive Closing where
  | notifying
  | shutting
  deriving DecidableEq, Repr

/-- A socket: one handle holds it, or two halves do. -/
structure Channel where
  state : SocketState
  stream : Stream
  selectable : Selectable
  selectorClosed : Bool
  handles : Nat
  closing : Option Closing
  deriving DecidableEq, Repr

/-- What an operation comes to for now. -/
inductive Progress (α : Type) where
  | done (result : α)
  | suspended
  | failed (e : OpError)
  deriving DecidableEq, Repr

namespace Channel

/-- A socket over a fresh stream. -/
def fresh (state : SocketState) (selectorClosed : Bool) : Channel :=
  ⟨state, .fresh, .fresh 0, selectorClosed, 1, none⟩

/-- The socket is closed on this side. -/
def isClosed (c : Channel) : Bool := c.state == .closed

/-- One look at a kind of readiness of the socket, which the system may refuse to watch for. -/
def await (c : Channel) (refusal : Option OpError) (i : Interest) : Polled × Channel :=
  let (p, selectable) := c.selectable.poll c.selectorClosed refusal i
  (p, { c with selectable })

theorem fired_of_await {c d : Channel} {refusal : Option OpError} {i : Interest}
    (h : c.await refusal i = (.ready, d)) :
    c.selectable.fired.contains i = true ∧ d.selectable.fired.contains i = false := by
  simp only [await, Prod.mk.injEq] at h
  obtain ⟨hp, rfl⟩ := h
  obtain ⟨_, hi, he⟩ := Selectable.poll_ready (Prod.ext hp rfl)
  exact ⟨hi, by simp [he]⟩

/-- One call of the system to read. -/
def callRead (c : Channel) (m : Mood) (most : Nat) : Attempt (List UInt8) × Channel :=
  let t := c.stream.readAs m most
  (t.1, { c with stream := t.2 })

/-- One call of the system to read, unless the socket is closed. -/
def tryRead (c : Channel) (m : Mood) (most : Nat) : Attempt (List UInt8) × Channel :=
  if c.isClosed then (.failed (.ofSelect .closed), c) else c.callRead m most

@[simp] theorem selectable_tryRead (c : Channel) (m : Mood) (most : Nat) :
    (c.tryRead m most).2.selectable = c.selectable := by
  unfold tryRead
  split <;> rfl

/-- A system that serves its calls does not interrupt them. -/
theorem tryRead_serves_ne (c d : Channel) (n most : Nat) :
    c.tryRead (.serves n) most ≠ (.interrupted, d) := by
  unfold tryRead callRead Stream.readAs Stream.read
  split
  · simp
  · dsimp only
    split
    · simp
    · split <;> simp

/-- Reads at most `most` bytes: what came, or nothing at the end. Otherwise the read waits for
    readiness, and tries again where that was reported already. -/
def read (c : Channel) (most : Nat) : Progress (List UInt8) × Channel :=
  match _h : c.tryRead (.serves most) most with
  | (.done bytes, d) => (.done bytes, d)
  | (.failed e, d) => (.failed e, d)
  | (.interrupted, d) => d.read most
  | (.wouldBlock, d) =>
    match _h' : d.await none .read with
    | (.failed e, d) => (.failed (.ofSelect e), d)
    | (.pending, d) => (.suspended, d)
    | (.ready, d) => d.read most
termination_by if c.selectable.fired.contains .read then 1 else 0
decreasing_by
  · exact absurd _h (tryRead_serves_ne _ _ _ _)
  · obtain ⟨hd, hlater⟩ := fired_of_await _h'
    have hsame := selectable_tryRead c (.serves most) most
    rw [_h] at hsame
    simp [← hsame, hd, hlater]

/-- Writes the whole buffer: what the stream took of it, and whether that was all. -/
def write (c : Channel) (bytes : List UInt8) : Writing :=
  .run bytes [⟨c.isClosed, c.stream.writeAs (.serves bytes.length) bytes, .ok ()⟩]

/-- One call of the system to send no more. That the other side is gone already does not matter, but
    the system may fail otherwise. -/
def callFinish (c : Channel) : Option OpError → Except OpError Unit × Channel
  | none => (.ok (), { c with stream := c.stream.finish })
  | some e => (if e.kind = .notConnected then .ok () else .error e, c)

/-- This side sends no more. -/
def finish (c : Channel) (failure : Option OpError) : Except OpError Unit × Channel :=
  if c.isClosed then (.error (.ofSelect .closed), c) else c.callFinish failure

/-- Closing begins: the state is swapped. Whoever finds it open before goes on with the rest. -/
def mark (c : Channel) : Channel :=
  if c.isClosed then c else { c with state := .closed, closing := some .notifying }

/-- Everything that waits for the socket fails. -/
def notify (c : Channel) : Channel :=
  if c.closing = some .notifying then
    { c with selectable := c.selectable.notifyClosed, closing := some .shutting }
  else c

/-- The stream is shut down, and the closing is over. -/
def shut (c : Channel) : Channel :=
  if c.closing = some .shutting then { c with stream := c.stream.shutdown, closing := none } else c

/-- Closes the socket, once. -/
def close (c : Channel) : Channel := if c.isClosed then c else c.mark.notify.shut

/-- Two halves hold the socket from now on. -/
def split (c : Channel) : Channel := { c with handles := 2 }

/-- A handle is given up; with the last one the closing begins. -/
def release (c : Channel) : Channel :=
  let c := { c with handles := c.handles - 1 }
  if c.handles = 0 then c.mark else c

/-- A handle is dropped; with the last one the socket is closed. -/
def drop (c : Channel) : Channel :=
  let c := { c with handles := c.handles - 1 }
  if c.handles = 0 then c.close else c

/-- The other side sends. -/
def receive (c : Channel) (bytes : List UInt8) : Channel :=
  { c with stream := c.stream.receive bytes }

/-- The other side sends no more. -/
def peerEnd (c : Channel) : Channel := { c with stream := c.stream.peerEnd }

/-- The selector is closed: what waits there fails, and nothing waits any more. -/
def cancel (c : Channel) : Channel :=
  { c with
    selectorClosed := true
    selectable :=
      if c.selectable.registered && !c.selectorClosed then c.selectable.fail .cancelled
      else c.selectable }

/-- The selector reports readiness, if the socket is registered there. -/
def event (c : Channel) (ready : InterestSet) : Channel :=
  if c.selectable.registered && !c.selectorClosed then
    { c with selectable := c.selectable.fire ready }
  else c

/-- The selector reports what the stream is ready for. -/
def settle (c : Channel) : Channel := c.event c.stream.ready

/-- What an open socket becomes that is closed. -/
theorem close_of_open {c : Channel} (h : c.isClosed = false) : c.close =
    { c with
      state := .closed
      selectable := c.selectable.notifyClosed
      stream := c.stream.shutdown
      closing := none } := by
  simp [close, mark, notify, shut, h]

theorem close_of_closed {c : Channel} (h : c.isClosed = true) : c.close = c := by
  rw [close, if_pos h]

@[simp] theorem isClosed_close (c : Channel) : c.close.isClosed = true := by
  cases h : c.isClosed with
  | true => rwa [close_of_closed h]
  | false =>
    rw [close_of_open h]
    rfl

/-- **Closing again changes nothing.** -/
@[simp] theorem close_close (c : Channel) : c.close.close = c.close :=
  close_of_closed (isClosed_close c)

end Channel

end Sluice.Socket
