/-
  File:      Sluice/Selector/Error.lean
  Subject:   Why a suspended operation fails.

  * `SelectError`: the socket was closed, the selector was closed, or the poller refused it;
  * `OpError`: what an operation on a socket fails with, an error of the system or one of these;
  * `OpError.isTerminal`: trying again can never succeed;
  * `select?_ofSelect`: the error of a selector is found again in the error of the operation.
-/
namespace Sluice.Selector

/-- The kind of an error, by its name. -/
structure ErrorKind where
  name : String
  deriving DecidableEq, Repr

namespace ErrorKind

def notConnected : ErrorKind := ⟨"NotConnected"⟩
def connectionAborted : ErrorKind := ⟨"ConnectionAborted"⟩
def connectionRefused : ErrorKind := ⟨"ConnectionRefused"⟩
def connectionReset : ErrorKind := ⟨"ConnectionReset"⟩
def networkUnreachable : ErrorKind := ⟨"NetworkUnreachable"⟩
def permissionDenied : ErrorKind := ⟨"PermissionDenied"⟩
def alreadyExists : ErrorKind := ⟨"AlreadyExists"⟩
def brokenPipe : ErrorKind := ⟨"BrokenPipe"⟩
def writeZero : ErrorKind := ⟨"WriteZero"⟩
def uncategorized : ErrorKind := ⟨"Uncategorized"⟩

end ErrorKind

/-- The failure that operations suspended on a selectable are resumed with. -/
inductive SelectError where
  | closed
  | cancelled
  | registration (kind : ErrorKind) (reason : String)
  deriving DecidableEq, Repr

namespace SelectError

/-- The failure in words. -/
def message : SelectError → String
  | closed => "channel closed"
  | cancelled => "selector closed, operation cancelled"
  | registration _ reason => "selector registration failed: " ++ reason

/-- The kind of error an operation reports for the failure. -/
def kind : SelectError → ErrorKind
  | closed => .notConnected
  | cancelled => .connectionAborted
  | registration kind _ => kind

end SelectError

/-- What an operation fails with. -/
inductive OpError where
  | system (kind : ErrorKind) (text : String)
  | select (e : SelectError)
  deriving DecidableEq, Repr

namespace OpError

/-- The failure of a selector as the error of an operation. -/
def ofSelect (e : SelectError) : OpError := select e

/-- The failure of a selector inside an error. -/
def select? : OpError → Option SelectError
  | select e => some e
  | system _ _ => none

/-- The kind of an error. -/
def kind : OpError → ErrorKind
  | system kind _ => kind
  | select e => e.kind

/-- The error in words. -/
def message : OpError → String
  | system _ text => text
  | select e => e.message

/-- The socket or its selector is closed, so no retry can succeed. -/
def isTerminal (e : OpError) : Bool :=
  match e.select? with
  | some .closed | some .cancelled => true
  | _ => false

/-- An error of the system as a failure of the poller to take a descriptor. -/
def asRegistration (e : OpError) : SelectError := .registration e.kind e.message

@[simp] theorem select?_ofSelect (e : SelectError) : (ofSelect e).select? = some e := rfl

end OpError

end Sluice.Selector
