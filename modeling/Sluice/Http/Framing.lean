/-
  File:      Sluice/Http/Framing.lean
  Subject:   How the body of a message is delimited.

  * `Framing`, `Framing.ofHeaders`: the four ways, and which one the headers say;
  * `Request.announcesBody`: whether a body follows a request at all;
  * `Request.framing`: how the body of a request is delimited.
-/
import Sluice.Http.Message

namespace Sluice.Http

/-- How a body is delimited: there is none, its length is known, it is chunked, or it runs until
    the peer closes its side. -/
inductive Framing where
  | none
  | length (n : UInt64)
  | chunked
  | untilClose
  deriving DecidableEq, Repr

namespace Framing

/-- No byte of body follows. -/
def isNone : Framing → Bool
  | .none => true
  | .length n => n == 0
  | .chunked | .untilClose => false

/-- The framing that headers say. The first of these decides: a content length; a transfer coding,
    of which only `chunked` is served; a connection that is to be closed; a content type, of which
    multipart ones need a length. -/
def ofHeaders (h : Headers) : Except MessageError Framing :=
  match h.get? "Content-Length".toList with
  | some value =>
    match value.decimal? with
    | some n => .ok (.length n)
    | .none => .error (.contentLength value.toText)
  | .none =>
    match h.get? "Transfer-Encoding".toList with
    | some coding =>
      if coding.eqFold "chunked".toList then .ok .chunked
      else .error (.unsupported (.transferCoding coding.toText))
    | .none =>
      if (h.get? "Connection".toList).any (·.startsWithFold "close".toList) then .ok .untilClose
      else
        match h.get? "Content-Type".toList with
        | .none => .ok .none
        | some type =>
          if type.startsWithFold "multipart/".toList then
            .error (.unsupported (.unboundedMultipart type.toText))
          else .ok .untilClose

end Framing

/-- A body follows the head of the request: never for the bodyless methods, otherwise if a content
    length other than `0`, or, without a content length, a transfer coding, a connection to be
    closed or a content type says so. -/
def Request.announcesBody (r : Request) : Bool :=
  if r.method.isBodyless then false
  else
    let h := r.headers
    match h.get? "Content-Length".toList with
    | some value => !value.eqText "0".toList
    | .none =>
      h.contains "Transfer-Encoding".toList ||
        (h.get? "Connection".toList).any (·.startsWithFold "close".toList) ||
        h.contains "Content-Type".toList

/-- How the body of the request is delimited: not at all, unless one is announced. -/
def Request.framing (r : Request) : Except MessageError Framing :=
  if r.announcesBody then Framing.ofHeaders r.headers else .ok .none

end Sluice.Http
