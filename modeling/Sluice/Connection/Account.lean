/-
  File:      Sluice/Connection/Account.lean
  Subject:   What a connection sends, one request after the other.

  * `refusal`: what is sent for a faulty request;
  * `Account`, `Engine.accountFrom`, `Engine.account`: the bytes of all responses and the first fault,
    by the requests of a stream alone: no queue, no pipes, no time.
-/
import Sluice.Connection.Engine

namespace Sluice.Connection

open Sluice.Http Sluice.Wire

/-- What is sent for a faulty request: nothing if the transport failed. -/
def refusal (e : MessageError) : List UInt8 :=
  match e.responseStatus? with
  | some status => (Reply.ofStatus status).bytes
  | none => []

/-- What a connection sends, and the first fault of its requests. -/
structure Account where
  output : List UInt8
  result : Except MessageError Unit

/-- The requests of a stream one after the other, the first of which is the `n`th: each is answered by
    what its handler makes of its body. A faulty request is refused; after it, and after a body cut
    short, nothing is read. -/
def Engine.accountFrom (g : Engine) (n : Nat) (source : Source) : Account :=
  match _hr : Request.read? g.store source with
  | (.error e, _) => ⟨refusal e, .error e⟩
  | (.ok none, _) => ⟨[], .ok ()⟩
  | (.ok (some request), rest) =>
    match request.framing with
    | .error e => ⟨refusal e, .error e⟩
    | .ok framing =>
      let body := framing.copy rest .unlimited
      let answer := (g.handler n request (!framing.isNone)).answer body.sink.written.toList
      match body.result with
      | .error e => ⟨answer, .error e⟩
      | .ok _ =>
        let later := g.accountFrom (n + 1) body.source
        ⟨answer ++ later.output, later.result⟩
termination_by source.size
decreasing_by
  have hlt : (Request.read? g.store source).2.size < source.size :=
    Request.size_read?_lt (by rw [_hr])
  rw [_hr] at hlt
  exact Nat.lt_of_le_of_lt (Framing.size_copy_le ..) hlt

/-- The account of a connection. -/
def Engine.account (g : Engine) (source : Source) : Account := g.accountFrom 0 source

end Sluice.Connection
