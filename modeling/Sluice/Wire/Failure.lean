/-
  File:      Sluice/Wire/Failure.lean
  Subject:   Why a transport fails.
-/
namespace Sluice.Wire

/-- A failure of a byte stream: one it reports in words of its own, a write that took nothing, or
    a pipe whose reading end is gone. -/
inductive Failure where
  | other (message : String)
  | writeZero
  | brokenPipe
  deriving DecidableEq, Repr

/-- The failure in words. -/
def Failure.message : Failure → String
  | .other message => message
  | .writeZero => "write zero"
  | .brokenPipe => "broken pipe"

end Sluice.Wire
