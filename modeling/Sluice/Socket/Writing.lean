/-
  File:      Sluice/Socket/Writing.lean
  Subject:   Writing a whole buffer, one call of the system after the other.

  * `Turn`: what a write meets with each time it tries: whether the socket is closed, what the call
    comes to, and how a suspension is resumed;
  * `Writing`: what the stream has taken, what is left, and the result, if there is one;
  * `Writing.answer`, `Writing.resume`: what a call comes to, and how a wait for readiness ends;
  * `Writing.turn`, `Writing.run`: one turn, and any number of them.
-/
import Sluice.Socket.Stream

namespace Sluice.Socket

open Sluice.Selector

/-- What a write meets with. `closed` is what the check of this turn saw: where the socket is closed
    behind the check, the turn still calls the system, and only the next one sees it. -/
structure Turn where
  closed : Bool
  attempt : Attempt Nat
  wake : Except OpError Unit

/-- A write on its way. -/
structure Writing where
  taken : List UInt8
  left : List UInt8
  result : Option (Except OpError Unit)

namespace Writing

def writeZero : OpError := .system .writeZero "write zero"

/-- A write before its first turn; one of nothing is complete. -/
def start (bytes : List UInt8) : Writing :=
  ⟨[], bytes, if bytes.isEmpty then some (.ok ()) else none⟩

/-- A write that fails. -/
def fail (w : Writing) (e : OpError) : Writing := { w with result := some (.error e) }

/-- The stream took `n` bytes. -/
def take (w : Writing) (n : Nat) : Writing :=
  if n = 0 then w.fail writeZero
  else
    ⟨w.taken ++ w.left.take n, w.left.drop n,
      if (w.left.drop n).isEmpty then some (.ok ()) else none⟩

/-- What a call came to. One that is to wait, or was interrupted, is made again. -/
def answer (w : Writing) : Attempt Nat → Writing
  | .done n => w.take n
  | .failed e => w.fail e
  | .wouldBlock | .interrupted => w

/-- How the wait for readiness ended. -/
def resume (w : Writing) : Except OpError Unit → Writing
  | .ok () => w
  | .error e => w.fail e

/-- One turn: nothing is offered to a closed socket, and nothing after there is a result. -/
def turn (w : Writing) (t : Turn) : Writing :=
  if w.result.isSome then w
  else if t.closed then w.fail (.ofSelect .closed)
  else
    match t.attempt with
    | .wouldBlock => w.resume t.wake
    | a => w.answer a

/-- A write of a buffer after some turns. -/
def run (bytes : List UInt8) (turns : List Turn) : Writing := turns.foldl turn (start bytes)

end Writing

end Sluice.Socket
