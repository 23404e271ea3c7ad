/-
  File:      Sluice/Connection/Config.lean
  Subject:   The sizes that bound one connection.
-/
namespace Sluice.Connection

/-- The bounds of a connection: how many responses may wait for the writer, how much each pipe
    holds, and how much one read takes. -/
structure Config where
  inFlight : Nat
  pipeSize : Nat
  readSize : Nat
  deriving DecidableEq, Repr

namespace Config

/-- Five responses, pipes of 64 KiB, reads of 8 KiB. -/
def standard : Config := ⟨5, 65536, 8192⟩

/-- How many responses may wait for the writer: never less than one. -/
def queueSize (c : Config) : Nat := max 1 c.inFlight

theorem queueSize_pos (c : Config) : 0 < c.queueSize :=
  Nat.lt_of_lt_of_le Nat.one_pos (Nat.le_max_left ..)

/-- The bounds for diagnostics. -/
def summary (c : Config) : String :=
  s!"PipelineConfig \x7b max_in_flight: {c.inFlight}, pipe_capacity: {c.pipeSize}, " ++
    s!"read_buffer_size: {c.readSize} \x7d"

end Config

end Sluice.Connection
