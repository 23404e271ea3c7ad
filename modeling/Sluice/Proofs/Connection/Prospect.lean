/-
  File:      Sluice/Proofs/Connection/Prospect.lean
  Subject:   What a connection at work will still send.

  * `Reader.more`, `Engine.later`: what is to come for the last exchange, and behind it;
  * `State.prospect`: all that is still to be sent, and how the requests will end;
  * `State.Sound`: what holds of a connection at every moment;
  * `later_readHead`, `later_readBody`: what the reader reads is what it will tell.
-/
import Sluice.Proofs.Connection.Owing
import Sluice.Proofs.Connection.Telling

namespace Sluice.Connection

open Sluice.Http Sluice.Wire

/-! ## 1. Prospects -/

/-- What is still to come for the exchange that the reader is at: the rest of a body, or of a
    refusal. -/
def Reader.more (source : Source) : Reader → List UInt8
  | .answering _ left => left
  | .copying b left none => left ++ (b.yield source.failure source.bytes).output
  | .copying _ left (some _) => left
  | _ => []

/-- What will be sent behind the exchanges that there are, where `n` handlers were started so far. -/
def Engine.later (g : Engine) (n : Nat) (source : Source) : Reader → Account
  | .head h => g.readOn n h source
  | .offering r f => g.inBody n source.failure r f source.bytes
  | .refusing e status => ⟨(Reply.ofStatus status).bytes, .error e⟩
  | .answering e _ => ⟨[], .error e⟩
  | .copying _ _ (some _) => g.tell n source.failure source.bytes
  | .copying b _ none => g.behindBody n source.failure (b.yield source.failure source.bytes)
  | .ended result => ⟨[], result⟩

/-- What the writer has fetched and not sent. -/
def Writer.left : Writer → List UInt8
  | .sending left => left
  | _ => []

/-- **What a connection will still send**, and how its requests will end. -/
def State.prospect (g : Engine) (s : State) : Account :=
  let later := g.later s.started s.arrivals.toSource s.reader
  ⟨s.writer.left ++ owed (s.exchanges.drop s.past) (s.reader.more s.arrivals.toSource) ++
    later.output, later.result⟩

/-- **What holds of a connection** at every moment. -/
structure State.Sound (g : Engine) (s : State) : Prop where
  stands : ∀ (i : Nat) (x : Exchange), s.exchanges[i]? = some x →
    x.Stands g s.reader (i + 1 = s.exchanges.length)
  taken : s.taken ≤ s.exchanges.length
  sending : ∀ left, s.writer = .sending left → 0 < s.taken
  ended : ∀ failure, s.writer = .ended failure →
    failure = none ∧ s.reader.isEnded = true ∧ s.taken = s.exchanges.length
  copying : s.reader.isCopying = true → ∃ x, s.exchanges[s.current]? = some x ∧
    x.body.closed = false ∧ x.task.isNobody = false ∧ x.body.capacity = g.config.pipeSize
  answering : s.reader.isAnswering = true → s.past < s.exchanges.length ∧
    ∃ x, s.exchanges[s.current]? = some x ∧ x.task.isNobody = true
  going : ∀ b left, s.reader = .copying b left none → b.Going

namespace Engine

variable {g : Engine} {s t : State}

/-! ## 2. Reading on -/

/-- One step of a machine that reads. -/
theorem read_eq {σ ρ : Type} (f : Feeder σ ρ) (h : σ) (source : Source) :
    f.read h source =
      match source.available with
      | .error e => (.error (.transport e), source)
      | .ok [] => (f.atEnd h, source)
      | .ok (b :: bs) =>
        match (f.feed h (b :: bs)).verdict with
        | .fault e => (.error e, source.consume (f.feed h (b :: bs)).consumed)
        | .done r => (.ok r, source.consume (f.feed h (b :: bs)).consumed)
        | .more => f.read (f.feed h (b :: bs)).next
            (source.consume (f.feed h (b :: bs)).consumed) := by
  rw [Feeder.read.eq_def]
  split
  · rename_i ha
    rw [ha]
  · rename_i ha
    rw [ha]
  · rename_i b bs ha
    rw [ha]
    dsimp only
    split <;> rename_i hv <;> rw [hv]

/-- A faulty request is refused with what its account says. -/
theorem later_refuse (g : Engine) (n : Nat) (source : Source) (e : MessageError) :
    g.later n source (refuse e) = ⟨refusal e, .error e⟩ := by
  unfold refuse refusal
  cases e.responseStatus? <;> rfl

/-- An input that ends well in a head ends before it. -/
theorem atEnd_eq_none {h : HeadState RequestLine} {o : Option (Head RequestLine)}
    (hend : h.atEnd = .ok o) : o = none := by
  unfold HeadState.atEnd at hend
  split at hend
  · cases hend
  · exact (Except.ok.inj hend).symm
  · cases hend

/-- **In a head**, the reader goes on as its account does. -/
theorem later_readHead {h : HeadState RequestLine} {r : Except Failure (List UInt8)}
    (ha : s.arrivals.available = some r) :
    g.later s.started (g.readHead s h r).arrivals.toSource (g.readHead s h r).reader =
      g.readOn s.started h s.arrivals.toSource := by
  unfold readOn
  rw [read_eq, Arrivals.available_toSource ha]
  cases r with
  | error f => rfl
  | ok bytes =>
    cases bytes with
    | nil =>
      unfold readHead
      dsimp only
      show _ = g.behindHead s.started (h.atEnd.map (·.map .ofHead), s.arrivals.toSource)
      cases hend : h.atEnd with
      | error e => exact later_refuse g _ _ e
      | ok o =>
        rw [atEnd_eq_none hend]
        rfl
    | cons b bs =>
      unfold readHead
      dsimp only
      cases hv : ((headFeeder RequestLine.ofText g.store).feed h (b :: bs)).verdict with
      | fault e => exact later_refuse g _ _ e
      | more =>
        dsimp only
        rw [Arrivals.toSource_consume]
        rfl
      | done o =>
        cases o with
        | none => rfl
        | some head =>
          dsimp only
          rw [← Arrivals.toSource_consume]
          unfold behindHead
          dsimp only [Except.map, Option.map]
          cases (Request.ofHead head).framing with
          | error e => exact later_refuse g _ _ e
          | ok f => rfl

/-- The phases of a reader that has read on in a head. -/
theorem phase_readHead (g : Engine) (s : State) (h : HeadState RequestLine)
    (r : Except Failure (List UInt8)) :
    (g.readHead s h r).reader.isCopying = false ∧ (g.readHead s h r).reader.isAnswering = false := by
  have hrefuse : ∀ e, (refuse e).isCopying = false ∧ (refuse e).isAnswering = false := by
    intro e
    unfold refuse
    split <;> exact ⟨rfl, rfl⟩
  unfold readHead
  split
  · exact ⟨rfl, rfl⟩
  · split
    · exact hrefuse _
    · exact ⟨rfl, rfl⟩
  · dsimp only
    split
    · exact hrefuse _
    · exact ⟨rfl, rfl⟩
    · exact ⟨rfl, rfl⟩
    · split
      · exact hrefuse _
      · exact ⟨rfl, rfl⟩

end Engine

end Sluice.Connection
