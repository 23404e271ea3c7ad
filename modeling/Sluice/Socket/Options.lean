/-
  File:      Sluice/Socket/Options.lean
  Subject:   What sockets are set up with.
-/
namespace Sluice.Socket

/-- Whether small writes are sent at once, how many connections may wait to be accepted, and whether
    an address may be used again at once. -/
structure SocketOptions where
  nodelay : Bool
  backlog : Nat
  reuseAddress : Bool
  deriving DecidableEq, Repr

namespace SocketOptions

/-- Small writes at once, 1024 waiting connections, addresses used again. -/
def standard : SocketOptions := ⟨true, 1024, true⟩

/-- The options for diagnostics. -/
def summary (o : SocketOptions) : String :=
  s!"SocketOptions \x7b nodelay: {o.nodelay}, backlog: {o.backlog}, " ++
    s!"reuse_address: {o.reuseAddress} \x7d"

end SocketOptions

end Sluice.Socket
