/-
  File:      Sluice/Connection/Arrivals.lean
  Subject:   A byte stream whose segments take time to arrive.

  * `Arrivals`: the segments to come, each with the time that reading waits for it;
  * `Arrivals.ofItems`: segments and pauses as they are scripted, read at most so many bytes at a
    time;
  * `Arrivals.available`, `consume`, `elapse`: what can be read now, reading it, and waiting;
  * `Arrivals.toSource`: the stream without the time, on which reading is the same.
-/
import Sluice.Connection.Measure
import Sluice.Wire.Source

namespace Sluice.Connection

open Sluice.Wire

/-- A segment and the milliseconds that reading waits for it. -/
structure Arrival where
  delay : Nat
  bytes : List UInt8
  deriving DecidableEq, Repr

/-- What is to come on a connection, and how long its end is waited for. -/
structure Arrivals where
  coming : List Arrival
  lastDelay : Nat
  failure : Option Failure
  coming_ne : ∀ a ∈ coming, a.bytes ≠ []

/-- A part of a script: bytes that come together, or a pause. -/
inductive Item where
  | bytes (segment : List UInt8)
  | pause (ms : Nat)
  deriving DecidableEq, Repr

namespace Arrivals

/-! ## 1. Scripts -/

/-- The pieces of a segment when each read takes at most `n` bytes. -/
def pieces (n : Nat) (segment : List UInt8) : List (List UInt8) :=
  if _h : segment = [] ∨ n = 0 then [] else segment.take n :: pieces n (segment.drop n)
termination_by segment.length
decreasing_by
  have := List.length_pos_iff.mpr (fun e => _h (.inl e))
  simp
  omega

theorem ne_nil_of_mem_pieces {n : Nat} {segment p : List UInt8} (h : p ∈ pieces n segment) :
    p ≠ [] := by
  fun_induction pieces n segment with
  | case1 => simp at h
  | case2 segment hs ih =>
    rcases List.mem_cons.mp h with rfl | h
    · simp only [ne_eq, List.take_eq_nil_iff, not_or]
      exact ⟨fun e => hs (.inr e), fun e => hs (.inl e)⟩
    · exact ih h

/-- The same stream after a segment in pieces, of which the first is waited for. -/
def behind (delay : Nat) (segments : List (List UInt8)) (h : ∀ s ∈ segments, s ≠ [])
    (a : Arrivals) : Arrivals :=
  match segments with
  | [] => a
  | s :: later =>
    { a with
      coming := ⟨delay, s⟩ :: later.map (⟨0, ·⟩) ++ a.coming
      coming_ne := by
        intro x hx
        simp only [List.cons_append, List.mem_cons, List.mem_append, List.mem_map] at hx
        rcases hx with rfl | ⟨t, ht, rfl⟩ | hx
        · exact h _ List.mem_cons_self
        · exact h _ (List.mem_cons_of_mem _ ht)
        · exact a.coming_ne x hx }

/-- A script, after a pause of `delay` already passed over, read `n` bytes at a time. A read of no
    bytes at all is taken for the end of the input. -/
def ofItemsAfter (n : Nat) (failure : Option Failure) (delay : Nat) : List Item → Arrivals
  | [] => ⟨[], delay, failure, by simp⟩
  | .pause ms :: rest => ofItemsAfter n failure (delay + ms) rest
  | .bytes [] :: rest => ofItemsAfter n failure delay rest
  | .bytes (b :: bs) :: rest =>
    if n = 0 then ⟨[], delay, none, by simp⟩
    else (ofItemsAfter n failure 0 rest).behind delay (pieces n (b :: bs))
      fun _ h => ne_nil_of_mem_pieces h

/-- A script read at most `n` bytes at a time. -/
def ofItems (n : Nat) (items : List Item) (failure : Option Failure) : Arrivals :=
  ofItemsAfter n failure 0 items

/-! ## 2. Reading and waiting -/

/-- How long reading has to wait. -/
def wait (a : Arrivals) : Nat :=
  match a.coming with
  | next :: _ => next.delay
  | [] => a.lastDelay

/-- What reading gives now, if it does not have to wait; no bytes at all are the end. -/
def available (a : Arrivals) : Option (Except Failure (List UInt8)) :=
  if a.wait = 0 then
    match a.coming with
    | next :: _ => some (.ok next.bytes)
    | [] =>
      match a.failure with
      | some f => some (.error f)
      | none => some (.ok [])
  else none

/-- Uses up `n` bytes of the first segment. -/
def consume (a : Arrivals) (n : Nat) : Arrivals :=
  match h : a.coming with
  | [] => a
  | next :: later =>
    if hd : next.bytes.drop n = [] then
      { a with
        coming := later
        coming_ne := fun t ht => a.coming_ne t (by rw [h]; exact List.mem_cons_of_mem _ ht) }
    else
      { a with
        coming := { next with bytes := next.bytes.drop n } :: later
        coming_ne := by
          intro t ht
          rcases List.mem_cons.mp ht with rfl | ht
          · exact hd
          · exact a.coming_ne t (by rw [h]; exact List.mem_cons_of_mem _ ht) }

/-- Waits for the first segment. -/
def elapse (a : Arrivals) (ms : Nat) : Arrivals :=
  match h : a.coming with
  | [] => { a with lastDelay := a.lastDelay - ms }
  | next :: later =>
    { a with
      coming := { next with delay := next.delay - ms } :: later
      coming_ne := by
        intro t ht
        rcases List.mem_cons.mp ht with rfl | ht
        · exact a.coming_ne next (by rw [h]; exact List.mem_cons_self)
        · exact a.coming_ne t (by rw [h]; exact List.mem_cons_of_mem _ ht) }

/-! ## 3. The stream without the time -/

/-- The stream without the time. -/
def toSource (a : Arrivals) : Source where
  segments := a.coming.map (·.bytes)
  failure := a.failure
  segments_ne := by
    intro s hs
    obtain ⟨x, hx, rfl⟩ := List.mem_map.mp hs
    exact a.coming_ne x hx

/-- **Time changes when a read succeeds, and not what it gives.** -/
theorem available_toSource {a : Arrivals} {r : Except Failure (List UInt8)}
    (h : a.available = some r) : a.toSource.available = r := by
  obtain ⟨coming, lastDelay, failure, ne⟩ := a
  unfold available at h
  split at h
  · cases coming with
    | nil => cases failure <;> exact Option.some.inj h
    | cons next later => exact Option.some.inj h
  · cases h

@[simp] theorem toSource_elapse (a : Arrivals) (ms : Nat) : (a.elapse ms).toSource = a.toSource := by
  obtain ⟨coming, lastDelay, failure, ne⟩ := a
  cases coming <;> rfl

theorem toSource_consume (a : Arrivals) (n : Nat) :
    (a.consume n).toSource = a.toSource.consume n := by
  apply Source.ext
  · rw [Source.segments_consume]
    obtain ⟨coming, lastDelay, failure, ne⟩ := a
    cases coming with
    | nil => rfl
    | cons next later =>
      by_cases hd : next.bytes.drop n = [] <;>
        simp only [consume, toSource, List.map_cons, hd, dite_true, dite_false, if_true, if_false]
  · rw [Source.failure_consume]
    obtain ⟨coming, lastDelay, failure, ne⟩ := a
    cases coming with
    | nil => rfl
    | cons next later =>
      by_cases hd : next.bytes.drop n = [] <;>
        simp only [consume, toSource, hd, dite_true, dite_false]

/-! ## 4. What is left to read -/

/-- The bytes to come and the milliseconds to wait, together. -/
def load (a : Arrivals) : Nat :=
  total (fun x => x.bytes.length + x.delay) a.coming + a.lastDelay

theorem load_consume_lt {a : Arrivals} {b : UInt8} {bs : List UInt8} {n : Nat}
    (ha : a.available = some (.ok (b :: bs))) (hn : 0 < n) : (a.consume n).load < a.load := by
  unfold available at ha
  split at ha
  · cases hc : a.coming with
    | nil =>
      rw [hc] at ha
      cases hf : a.failure <;> simp [hf] at ha
    | cons next later =>
      rw [hc] at ha
      have hb : next.bytes = b :: bs := by simpa using ha
      unfold consume
      split
      · simp_all
      · rename_i next' later' h
        rw [hc] at h
        obtain ⟨rfl, rfl⟩ := List.cons.inj h
        have hlen : 0 < next.bytes.length := by rw [hb]; simp
        split <;> simp [load, hc] <;> omega
  · cases ha

theorem load_consume_le (a : Arrivals) (n : Nat) : (a.consume n).load ≤ a.load := by
  unfold consume
  split
  · exact Nat.le_refl _
  · rename_i next later h
    split <;> simp only [load, h, total_cons, List.length_drop] <;> omega

theorem load_elapse_le (a : Arrivals) (ms : Nat) : (a.elapse ms).load ≤ a.load := by
  unfold elapse
  split
  · rename_i h
    simp [load, h]
  · rename_i next later h
    simp [load, h]

theorem load_elapse_lt {a : Arrivals} {ms : Nat} (hw : 0 < a.wait) (hm : 0 < ms) :
    (a.elapse ms).load < a.load := by
  unfold wait at hw
  unfold elapse
  split
  · rename_i h
    simp [h] at hw
    simp [load, h]
    omega
  · rename_i next later h
    simp [h] at hw
    simp [load, h]
    omega

end Arrivals

end Sluice.Connection
