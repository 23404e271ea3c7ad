/-
  File:      Sluice/Connection/Conduct.lean
  Subject:   What a handler does with a request.

  * `Action`, `Ending`, `Conduct`: reading of the body, dropping it, sleeping, and then what the
    bytes read so far call for: a response, an error, a crash, or further actions;
  * `Handler`: the conduct for each request, by its number;
  * `collect`, `leave`: the bytes that actions read of a body, whatever the time it takes, and those
    that they leave;
  * `Conduct.answer`: what is sent in the end, by the bytes of the body alone.
-/
import Sluice.Http.Message
import Sluice.Http.Reply

namespace Sluice.Connection

open Sluice.Http

/-- A step of a handler: reading at most so many bytes of the body, or all of it; dropping the
    body; or sleeping. -/
inductive Action where
  | read (most : Option Nat)
  | drop
  | sleep (ms : Nat)
  deriving DecidableEq, Repr

/-- How a handler goes on when its actions are done: it ends with a response, with an error, or by
    crashing, or it resumes with further actions, behind which all bytes read so far decide again. -/
inductive Ending where
  | reply (r : Reply)
  | failed
  | crashed
  | resume (actions : List Action) (next : List UInt8 → Ending)

/-- What a handler does: its actions in order, and its ending, by the bytes it read. -/
structure Conduct where
  actions : List Action
  ending : List UInt8 → Ending

/-- A handler: its conduct for a request, by how many were handled before it on the same connection, and
    by whether a body was announced. Requests that look alike may be handled differently. -/
abbrev Handler := Nat → Request → Bool → Conduct

/-- What is sent for a handler that fails or crashes. -/
def failureAnswer : List UInt8 := (Reply.ofStatus 500).bytes

/-- The bytes that actions read of a body. Behind a drop there is nothing to read. -/
def collect : List Action → List UInt8 → List UInt8
  | [], _ => []
  | .read none :: rest, body => body ++ collect rest []
  | .read (some n) :: rest, body => body.take n ++ collect rest (body.drop n)
  | .drop :: rest, _ => collect rest []
  | .sleep _ :: rest, body => collect rest body

/-- The bytes that actions leave of a body. -/
def leave : List Action → List UInt8 → List UInt8
  | [], body => body
  | .read none :: rest, _ => leave rest []
  | .read (some n) :: rest, body => leave rest (body.drop n)
  | .drop :: rest, _ => leave rest []
  | .sleep _ :: rest, body => leave rest body

/-- The bytes sent in the end, when `received` was read of a body of which `body` is to come. -/
def Ending.answer : Ending → (received body : List UInt8) → List UInt8
  | .resume actions next, received, body =>
    (next (received ++ collect actions body)).answer (received ++ collect actions body)
      (leave actions body)
  | .reply r, _, _ => r.bytes
  | .failed, _, _ | .crashed, _, _ => failureAnswer

/-- The bytes sent for a request whose body is `body`. -/
def Conduct.answer (c : Conduct) (body : List UInt8) : List UInt8 :=
  (Ending.resume c.actions c.ending).answer [] body

@[simp] theorem collect_nil (actions : List Action) : collect actions [] = [] := by
  induction actions with
  | nil => rfl
  | cons a rest ih =>
    cases a with
    | read most => cases most <;> simp [collect, ih]
    | drop => simp [collect, ih]
    | sleep ms => simp [collect, ih]

@[simp] theorem leave_nil (actions : List Action) : leave actions [] = [] := by
  induction actions with
  | nil => rfl
  | cons a rest ih =>
    cases a with
    | read most => cases most <;> simp [leave, ih]
    | drop => simp [leave, ih]
    | sleep ms => simp [leave, ih]

end Sluice.Connection
