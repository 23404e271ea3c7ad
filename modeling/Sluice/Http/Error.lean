/-
  File:      Sluice/Http/Error.lean
  Subject:   Why a message cannot be read, or not be written, or a connection ends early.

  * `MessageError`: the first fault of a message, by its cause; the causes of one kind have types
    of their own (`StartLineFault`, `StatusFault`, `HeaderFault`, `ChunkFault`, `Unsupported`);
  * `SendError`: why a response is not sent;
  * `ConnectionError`: which of the two ended a connection;
  * `message`: the wording of each.
-/
import Sluice.Text.Escape
import Sluice.Text.Utf8
import Sluice.Wire.Failure

namespace Sluice.Http

open Sluice.Wire (Failure)

/-! ## 1. Reading -/

/-- What is wrong with a request line or with the version of a status line. -/
inductive StartLineFault where
  | missingMethod
  | missingTarget
  | missingVersion
  | trailing (rest : Text)
  deriving DecidableEq, Repr

def StartLineFault.message : StartLineFault → String
  | .missingMethod => "missing method"
  | .missingTarget => "missing request target"
  | .missingVersion => "missing protocol version"
  | .trailing rest => "extra characters after the version: " ++ String.ofList rest

/-- What is wrong with a status code; `rest` is the line from the offending character on. -/
inductive StatusFault where
  | illegalCharacter (char : Char) (rest : Text)
  | tooManyDigits (rest : Text)
  | missing
  deriving DecidableEq, Repr

def StatusFault.message : StatusFault → String
  | .illegalCharacter char rest =>
    "illegal character " ++ String.ofList (Text.quoteChar char) ++ " in " ++ String.ofList rest
  | .tooManyDigits rest => "too many digits in " ++ String.ofList rest
  | .missing => "missing status code"

/-- What is wrong with the name of a header line; `line` is the line from the name on. -/
inductive HeaderFault where
  | emptyName (line : Text)
  | noColon (line : Text)
  deriving DecidableEq, Repr

def HeaderFault.message : HeaderFault → String
  | .emptyName line => "empty header name: " ++ String.ofList line
  | .noColon line => "no colon after header name: " ++ String.ofList line

/-- What is wrong with a chunked body. -/
inductive ChunkFault where
  | noSize (byte : UInt8)
  | badSizeByte (byte : UInt8)
  | sizeOverflow
  | badSizeSpace
  | lineFeedInExtension
  | noLineFeedAfterSize
  | noReturnAfterData
  | noLineFeedAfterData
  | noLineFeedAfterTrailer
  | noFinalLineFeed
  deriving DecidableEq, Repr

/-- A byte as `0x` and two hexadecimal digits. -/
def hexByte (b : UInt8) : String :=
  let digits := Nat.toDigits 16 b.toNat
  "0x" ++ String.ofList (List.replicate (2 - digits.length) '0' ++ digits)

def ChunkFault.message : ChunkFault → String
  | .noSize byte => "chunk size starts with " ++ hexByte byte ++ " instead of a hex digit"
  | .badSizeByte byte => "invalid byte " ++ hexByte byte ++ " in chunk size"
  | .sizeOverflow => "chunk size overflows"
  | .badSizeSpace => "invalid chunk size linear white space"
  | .lineFeedInExtension => "chunk extension contains a bare LF"
  | .noLineFeedAfterSize => "missing LF after chunk size"
  | .noReturnAfterData => "missing CR after chunk data"
  | .noLineFeedAfterData => "missing LF after chunk data"
  | .noLineFeedAfterTrailer => "missing LF after trailer field"
  | .noFinalLineFeed => "missing final LF"

/-- What this library does not serve. -/
inductive Unsupported where
  | tooManyHeaders (most : Nat)
  | headerOffset (offset : Nat)
  | transferCoding (coding : Text)
  | unboundedMultipart (contentType : Text)
  deriving DecidableEq, Repr

def Unsupported.message : Unsupported → String
  | .tooManyHeaders most => s!"more than {most} headers"
  | .headerOffset offset =>
    s!"header offset {offset} does not fit in the index table: " ++
      "out of range integral type conversion attempted"
  | .transferCoding coding => "transfer encoding " ++ String.ofList coding
  | .unboundedMultipart contentType => String.ofList contentType ++ " body without content-length"

/-- What was being read when the input ended. -/
inductive Reading where
  | line
  | headers
  | lengthBody
  | chunkedBody
  deriving DecidableEq, Repr

def Reading.message : Reading → String
  | .line => "reading a line"
  | .headers => "reading headers"
  | .lengthBody => "reading a content-length body"
  | .chunkedBody => "reading a chunked body"

/-- The first fault of a message. -/
inductive MessageError where
  | startLine (fault : StartLineFault)
  | statusCode (fault : StatusFault)
  | headerLine (fault : HeaderFault)
  | multipleColons (name : Text)
  | missingValue (name : Text)
  | lineTooLong (limit : Nat)
  | notUtf8 (fault : Utf8.Fault)
  | chunk (fault : ChunkFault)
  | contentLength (value : Text)
  | endOfInput (reading : Reading)
  | unsupported (what : Unsupported)
  | transport (failure : Failure)
  deriving DecidableEq, Repr

namespace MessageError

/-- The fault in words. -/
def message : MessageError → String
  | startLine fault => "invalid request line: " ++ fault.message
  | statusCode fault => "invalid status code: " ++ fault.message
  | headerLine fault => "invalid header line: " ++ fault.message
  | multipleColons name => "multiple colons in header " ++ String.ofList name
  | missingValue name => "no value provided for header " ++ String.ofList name
  | lineTooLong limit => s!"line is longer than the limit {limit}"
  | notUtf8 fault => "line is not valid utf-8: " ++ fault.message
  | chunk fault => "invalid chunk: " ++ fault.message
  | contentLength value => "invalid content-length header: " ++ String.ofList value
  | endOfInput reading => "unexpected end of stream while " ++ reading.message
  | unsupported what => "not supported: " ++ what.message
  | transport failure => "io error: " ++ failure.message

/-- The transport failed, rather than the peer having sent something wrong. -/
def isTransport : MessageError → Bool
  | transport _ => true
  | _ => false

/-- The status a request with this fault is answered with; a failing transport gets no answer. -/
def responseStatus? : MessageError → Option Nat
  | transport _ => none
  | unsupported _ => some 501
  | _ => some 400

end MessageError

/-! ## 2. Writing -/

/-- What is wrong with a header to be sent. -/
inductive SendHeaderFault where
  | emptyName
  | lineBreak
  deriving DecidableEq, Repr

def SendHeaderFault.message : SendHeaderFault → String
  | .emptyName => "empty name"
  | .lineBreak => "line break in header"

/-- Why a response is not sent. -/
inductive SendError where
  | status (code : Nat)
  | header (name : Text) (fault : SendHeaderFault)
  | transport (failure : Failure)
  deriving DecidableEq, Repr

/-- The error in words. -/
def SendError.message : SendError → String
  | .status code => s!"invalid status code {code}"
  | .header name fault => "invalid header " ++ String.ofList name ++ ": " ++ fault.message
  | .transport failure => "io error: " ++ failure.message

/-- How a connection ended early. -/
inductive ConnectionError where
  | request (e : MessageError)
  | response (e : SendError)
  deriving DecidableEq, Repr

/-- The error in words. -/
def ConnectionError.message : ConnectionError → String
  | .request e => "request error: " ++ e.message
  | .response e => "response error: " ++ e.message

end Sluice.Http
