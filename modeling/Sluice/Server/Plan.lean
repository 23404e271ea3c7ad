/-
  File:      Sluice/Server/Plan.lean
  Subject:   What a server is to be, and why it cannot start.

  * `Plan`: the address, the sizes and the handler, of which the last is required;
  * `StartError`: no handler, pools that cannot be made, or an address that cannot be bound;
  * `Server`, `Plan.start`: the server of a plan.
-/
import Sluice.Connection.Schedule
import Sluice.Http.Storage
import Sluice.Socket.Network

namespace Sluice

open Connection Http Pool Selector Socket Wire

/-- A server that listens. -/
structure Server where
  network : Network
  engine : Engine

namespace Server

/-- What a server is to be. -/
structure Plan where
  address : Option Address
  options : SocketOptions
  storage : StorageConfig
  connection : Connection.Config
  handler : Option Handler

/-- Why a server does not start. -/
inductive StartError where
  | noHandler
  | storage (e : PoolError)
  | listening (e : OpError)
  deriving DecidableEq, Repr

/-- The error in words. -/
def StartError.message : StartError → String
  | .noHandler => "handler must be set"
  | .storage e => "invalid pool configuration: " ++ e.message
  | .listening e => "can't start listening: " ++ e.message

namespace Plan

/-- A plan with nothing decided. -/
def standard : Plan := ⟨none, .standard, .standard, .standard, none⟩

/-- The plan for diagnostics. -/
def summary (p : Plan) : String :=
  let address := match p.address with
    | none => "None"
    | some a => "Some(" ++ a.text ++ ")"
  s!"ServerBuilder \x7b address: {address}, socket_options: {p.options.summary}, " ++
    s!"pools: {p.storage.summary}, pipeline: {p.connection.summary}, " ++
    s!"has_handler: {p.handler.isSome} \x7d"

/-- The server of a plan. The handler is looked at first, then the pools, then the address. -/
def start (p : Plan) (listen : Option Host → Except OpError Network) : Except StartError Server :=
  match p.handler with
  | none => .error .noHandler
  | some handler =>
    match Storage.ofConfig p.storage with
    | .error e => .error (.storage e)
    | .ok storage =>
      match listen (p.address.map (·.host)) with
      | .error e => .error (.listening e)
      | .ok network => .ok ⟨network, ⟨p.connection, storage.store, handler⟩⟩

end Plan

/-- What a client gets that sends all its parts, sends no more, and reads to the end. -/
def answer (s : Server) (parts : List (List UInt8)) : List UInt8 :=
  let arrivals := Arrivals.ofItems s.engine.config.readSize (parts.map .bytes) none
  (s.engine.serve arrivals .unlimited).sink.written.toList

/-- Serves a client: why it does not reach the server, or what it gets. -/
def serve (s : Server) (parts : List (List UInt8)) : Except OpError (List UInt8) × Server :=
  match s.network.connect with
  | (.error e, network) => (.error e, { s with network })
  | (.ok i, network) =>
    let (_, network) := network.accept
    (.ok (s.answer parts), { s with network := network.close i })

end Server

end Sluice
