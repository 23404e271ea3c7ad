/-
  File:      Sluice/Http/Reply.lean
  Subject:   Responses to be sent, and their bytes.

  * `Reply`: a status, headers and a body, as a handler builds them;
  * `Reply.encodeInto`: a reply put behind the bytes of a buffer, piece by piece, up to the first thing
    that cannot be sent;
  * `Reply.encodeParts`: the same into an empty buffer;
  * `Reply.encode?`: all of it, or the error;
  * `internalError`: the bytes sent for a reply that cannot be encoded;
  * `Reply.bytes`: what is sent for a reply in either case.

  The length of the body is always computed: a header of that name is left out.
-/
import Sluice.Http.Error
import Sluice.Http.Status

namespace Sluice.Http

/-- A response to be sent. -/
structure Reply where
  status : Nat
  headers : List (Text × Text)
  body : List UInt8
  deriving DecidableEq, Repr

namespace Reply

/-- A response of a status, without headers and body. -/
def ofStatus (status : Nat) : Reply := ⟨status, [], []⟩

/-- The empty response of success. -/
def ok : Reply := ofStatus 200

/-- One header more, behind the others. -/
def withHeader (r : Reply) (name value : Text) : Reply :=
  { r with headers := r.headers ++ [(name, value)] }

/-- The response with a body. -/
def withBody (r : Reply) (body : List UInt8) : Reply := { r with body }

/-- A carriage return or a line feed in a text. -/
def hasLineBreak (t : Text) : Bool := t.any fun c => c == '\r' || c == '\n'

/-- The name of the header that is always computed. -/
def isContentLength (name : Text) : Bool := name.eqFold "content-length".toList

/-- Why a header is not sent. -/
def headerFault? (name value : Text) : Option SendHeaderFault :=
  if name.isEmpty then some .emptyName
  else if hasLineBreak name || hasLineBreak value then some .lineBreak
  else none

/-- The end of a line. -/
def lineEnd : List UInt8 := [13, 10]

/-- The status line. -/
def statusLine (status : Nat) : List UInt8 :=
  Utf8.encode ("HTTP/1.1 ".toList ++ (toString status).toList ++ " ".toList ++
    (reasonPhrase status).toList) ++ lineEnd

/-- A header line. -/
def headerLine (name value : Text) : List UInt8 :=
  Utf8.encode name ++ Utf8.encode ": ".toList ++ Utf8.encode value ++ lineEnd

/-- The end of a head, and the body. -/
def bodyPart (body : List UInt8) : List UInt8 :=
  Utf8.encode ("Content-Length: ".toList ++ (toString body.length).toList) ++ lineEnd ++ lineEnd ++
    body

/-- Puts the lines of the headers behind the bytes of a buffer, up to the first one that is not
    sent. -/
def putHeaders (buffer : List UInt8) : List (Text × Text) → List UInt8 × Option SendError
  | [] => (buffer, none)
  | (name, value) :: rest =>
    if isContentLength name then putHeaders buffer rest
    else
      match headerFault? name value with
      | some f => (buffer, some (.header name f))
      | none => putHeaders (buffer ++ headerLine name value) rest

/-- Puts a reply behind the bytes of a buffer. What was put there before a fault stays there. -/
def encodeInto (r : Reply) (buffer : List UInt8) : List UInt8 × Option SendError :=
  if isSendable r.status then
    match putHeaders (buffer ++ statusLine r.status) r.headers with
    | (buffer, some e) => (buffer, some e)
    | (buffer, none) => (buffer ++ bodyPart r.body, none)
  else (buffer, some (.status r.status))

/-- The lines of the headers, up to the first one that is not sent. -/
def headerLines (headers : List (Text × Text)) : List UInt8 × Option SendError :=
  putHeaders [] headers

/-- The bytes of a reply, up to the first thing that cannot be sent. -/
def encodeParts (r : Reply) : List UInt8 × Option SendError := r.encodeInto []

/-- The bytes of a reply. -/
def encode? (r : Reply) : Except SendError (List UInt8) :=
  match r.encodeParts with
  | (_, some e) => .error e
  | (bytes, none) => .ok bytes

/-- What is sent when a reply cannot be. -/
def internalError : List UInt8 :=
  Utf8.encode "HTTP/1.1 500 Internal Server Error\r\nContent-Length: 0\r\n\r\n".toList

/-- What is sent for a reply: its bytes, or those of an internal error. -/
def bytes (r : Reply) : List UInt8 :=
  match r.encode? with
  | .ok bytes => bytes
  | .error _ => internalError

end Reply

end Sluice.Http
