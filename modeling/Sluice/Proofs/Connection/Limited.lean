/-
  File:      Sluice/Proofs/Connection/Limited.lean
  Subject:   A connection whose output takes only so many bytes, or fails at its end.

  * `Account.Ends`: the results that a connection with an account may have, by the room in its output
    and the end of it;
  * `State.Spends`: what has been sent is a beginning of the account for which there is room, and the
    rest of the account is still to be sent;
  * `concludes_full`, `concludes_end`: the output has no room left, or everything is sent;
  * `spends_or_concludes`: what holds at every moment;
  * **`serve_limited`**: the beginning that there is room for is sent, success is reported only where
    that is everything, and the blame for a failure falls on the requests or on the output.
-/
import Sluice.Proofs.Connection.Refinement

namespace Sluice.Connection

open Sluice.Http Sluice.Wire

/-- **The results of a connection** whose output has room for `limit` bytes and ends with
    `shutdown`. A fault of the requests may be reported whether or not there was room for all that is
    to be sent; the output fails where there was not, or at its end. -/
inductive Account.Ends (a : Account) (limit : Nat) (shutdown : Option Failure) :
    Except ConnectionError Unit → Prop
  | served (ha : a.result = .ok ()) (hfits : a.output.length ≤ limit) (hend : shutdown = none) :
      a.Ends limit shutdown (.ok ())
  | faulty {e : MessageError} (ha : a.result = .error e) :
      a.Ends limit shutdown (.error (.request e))
  | full (hshort : limit < a.output.length) :
      a.Ends limit shutdown (.error (.response (.transport Sink.full)))
  | unended {f : Failure} (ha : a.result = .ok ()) (hfits : a.output.length ≤ limit)
      (hend : shutdown = some f) : a.Ends limit shutdown (.error (.response (.transport f)))

namespace Account.Ends

variable {a : Account} {limit : Nat} {shutdown : Option Failure} {r : Except ConnectionError Unit}

/-- Success means that all went well. -/
theorem ok_iff (h : a.Ends limit shutdown r) :
    r = .ok () ↔ a.result = .ok () ∧ a.output.length ≤ limit ∧ shutdown = none := by
  constructor
  · rintro rfl
    cases h with
    | served ha hfits hend => exact ⟨ha, hfits, hend⟩
  · rintro ⟨ha, hfits, rfl⟩
    cases h with
    | served => rfl
    | faulty hfault =>
      rw [ha] at hfault
      cases hfault
    | full hshort => omega
    | unended _ _ hend => cases hend

/-- Where there was room for everything, a fault of the requests is the result. -/
theorem eq_of_fault {e : MessageError} (h : a.Ends limit shutdown r) (he : a.result = .error e)
    (hfits : a.output.length ≤ limit) : r = .error (.request e) := by
  cases h with
  | served ha | unended ha =>
    rw [he] at ha
    cases ha
  | faulty ha =>
    rw [he] at ha
    cases ha
    rfl
  | full hshort => omega

/-- Who is to blame for an error. -/
theorem blame {error : ConnectionError} (h : a.Ends limit shutdown (.error error)) :
    (∃ f, (limit < a.output.length ∧ f = Sink.full ∨
        a.output.length ≤ limit ∧ shutdown = some f) ∧ error = .response (.transport f)) ∨
      ∃ e, a.result = .error e ∧ error = .request e := by
  cases h with
  | faulty ha => exact .inr ⟨_, ha, rfl⟩
  | full hshort => exact .inl ⟨_, .inl ⟨hshort, rfl⟩, rfl⟩
  | unended _ hfits hend => exact .inl ⟨_, .inr ⟨hfits, hend⟩, rfl⟩

end Account.Ends

/-- **How a connection ends** whose output has room for `limit` bytes and ends with `shutdown`. -/
structure State.Concludes (a : Account) (limit : Nat) (shutdown : Option Failure) (s : State) :
    Prop where
  written : s.sink.written.toList = a.output.take limit
  result : ∃ r, s.result? = some r ∧ a.Ends limit shutdown r

/-- **What a connection has spent of its account**, its output having room for `limit` bytes and
    ending with `shutdown`. -/
structure State.Spends (g : Engine) (a : Account) (limit : Nat) (shutdown : Option Failure)
    (s : State) : Prop where
  sound : s.Sound g
  output : s.sink.written.toList ++ (s.prospect g).output = a.output
  result : (s.prospect g).result = a.result
  bound : s.sink.limit = some limit
  fits : s.sink.written.size ≤ limit
  takes : s.sink.perWrite ≠ some 0
  ending : s.sink.shutdownFailure = shutdown
  going : s.writerEnded = false

namespace Engine

variable {g : Engine} {s t : State} {a : Account} {limit : Nat} {shutdown : Option Failure}

/-! ## 1. The ends -/

/-- The fault that the reader has come upon is that of the account. -/
theorem result_of_ended {result : Except MessageError Unit} (h : s.Spends g a limit shutdown)
    (hr : s.reader = .ended result) : a.result = result := by
  rw [← h.result, State.prospect, hr]
  rfl

/-- Where the writer has failed, a fault of the requests that the reader came upon counts first. -/
theorem result?_failed {f : Failure} (h : s.writer = .ended (some f)) :
    (∃ e, s.reader = .ended (.error e) ∧ s.result? = some (.error (.request e))) ∨
      s.result? = some (.error (.response (.transport f))) := by
  unfold State.result?
  rw [h]
  cases s.reader with
  | ended result =>
    cases result with
    | error e => exact .inl ⟨e, rfl, rfl⟩
    | ok u => exact .inr rfl
  | _ => exact .inr rfl

/-- **The output has no room left** for bytes that are to be sent. -/
theorem concludes_full {b : UInt8} {bs : List UInt8} (h : s.Spends g a limit shutdown)
    (hw : s.writer = .sending (b :: bs)) (hroom : s.sink.written.size = limit) :
    State.Concludes a limit shutdown { s with writer := .ended (some Sink.full) } := by
  have hlen : s.sink.written.toList.length = limit := by rw [ByteQueue.length_toList, hroom]
  have hshort : limit < a.output.length := by
    have hle := (prefix_prospect g hw).length_le
    rw [List.length_cons] at hle
    rw [← h.output, List.length_append]
    omega
  refine ⟨by rw [← h.output, ← hlen, List.take_left], ?_⟩
  rcases result?_failed (s := { s with writer := .ended (some Sink.full) }) rfl with
    ⟨e, hr, hresult⟩ | hresult
  · exact ⟨_, hresult, .faulty (result_of_ended h hr)⟩
  · exact ⟨_, hresult, .full hshort⟩

/-- **Everything is sent**, and the writer ends the output. -/
theorem concludes_end (h : s.Spends g a limit shutdown) (hw : s.writer = .waiting)
    (htaken : ¬ s.taken < s.exchanges.length) (hr : s.readerEnded = true) :
    State.Concludes a limit shutdown
      { s with writer := .ended s.sink.shutdown.1, sink := s.sink.shutdown.2 } := by
  obtain ⟨result, hresult⟩ : ∃ result, s.reader = .ended result := by
    unfold State.readerEnded at hr
    cases hreader : s.reader with
    | ended result => exact ⟨result, rfl⟩
    | _ => rw [hreader] at hr; cases hr
  have ha := result_of_ended h hresult
  have hsent : s.sink.written.toList = a.output := by
    have hprospect := prospect_ended g hresult (by rw [hw]; nofun) (Nat.le_of_not_lt htaken)
    rw [← h.output, hprospect, List.append_nil]
  have hle : a.output.length ≤ limit := by
    rw [← hsent, ByteQueue.length_toList]
    exact h.fits
  have hshutdown : s.sink.shutdown.1 = shutdown ∧ s.sink.shutdown.2.written = s.sink.written := by
    rw [← h.ending]
    unfold Sink.shutdown
    split <;> rename_i hf <;> rw [hf] <;> exact ⟨rfl, rfl⟩
  refine ⟨by rw [hshutdown.2, hsent, List.take_of_length_le hle], ?_⟩
  rw [hshutdown.1]
  unfold State.result?
  rw [hresult]
  cases result with
  | error e => exact ⟨_, rfl, .faulty ha⟩
  | ok u =>
    cases shutdown with
    | none => exact ⟨_, rfl, .served ha hle rfl⟩
    | some f => exact ⟨_, rfl, .unended ha hle rfl⟩

/-! ## 2. Steps -/

/-- A step that sends nothing, and does not end the writer. -/
theorem spends_of_keeps (h : s.Spends g a limit shutdown) (hk : s.Keeps g t)
    (hgoing : t.writerEnded = false) : t.Spends g a limit shutdown where
  sound := hk.sound
  output := by
    rw [hk.sink, hk.prospect]
    exact h.output
  result := by
    rw [hk.prospect]
    exact h.result
  bound := hk.sink ▸ h.bound
  fits := hk.sink ▸ h.fits
  takes := hk.sink ▸ h.takes
  ending := hk.sink ▸ h.ending
  going := hgoing

/-- A step of another party leaves the writer as it is. -/
theorem spends_of_other (h : s.Spends g a limit shutdown) (hk : s.Keeps g t)
    (hwriter : t.writer = s.writer) : t.Spends g a limit shutdown := by
  refine spends_of_keeps h hk ?_
  rw [State.writerEnded, hwriter]
  exact h.going

/-- What is left of the room. -/
theorem room_of_spends (h : s.Spends g a limit shutdown) :
    s.sink.room = some (limit - s.sink.written.size) := by
  rw [Sink.room, h.bound]
  rfl

/-- The writer sends some of what it has fetched. -/
theorem spends_send {b : UInt8} {bs : List UInt8} {n : Nat} {sink : Sink}
    (h : s.Spends g a limit shutdown) (hw : s.writer = .sending (b :: bs))
    (hwrite : s.sink.write (b :: bs) = .ok (n + 1, sink)) :
    State.Spends g a limit shutdown { s with writer := .sending (bs.drop n), sink } := by
  obtain ⟨hsent, hresult⟩ := prospect_send g hw n sink
  obtain ⟨_, hle, hfits, hwrote⟩ := Sink.of_write h.takes hwrite
  refine ⟨sound_send h.sound hw sink, ?_, hresult.trans h.result, hwrote.limit.trans h.bound, ?_,
    hwrote.perWrite ▸ h.takes, hwrote.shutdownFailure.trans h.ending, rfl⟩
  · rw [← h.output, hsent, ← List.append_assoc, ← hwrote.written]
  · have hroom := congrArg List.length hfits
    rw [room_of_spends h, Sink.upTo, List.length_take, List.length_take,
      Nat.min_eq_left hle] at hroom
    have hsize := hwrote.size
    rw [List.length_take, Nat.min_eq_left hle] at hsize
    have := h.fits
    show sink.written.size ≤ limit
    omega

/-- The writer fails to send what it has fetched: the output is full. -/
theorem of_write_failed {b : UInt8} {bs : List UInt8} (h : s.Spends g a limit shutdown)
    (hw : s.writer = .sending (b :: bs)) (hstep : writer? s = some t)
    (hfails : ∀ n sink, s.sink.write (b :: bs) ≠ .ok (n + 1, sink)) :
    s.sink.written.size = limit ∧ t = { s with writer := .ended (some Sink.full) } := by
  have hroom : s.sink.room = some 0 := by
    by_contra hne
    obtain ⟨k, sink, hwrite, _⟩ := Sink.write_of_room h.takes hne
    exact hfails k sink hwrite
  have hwrite : s.sink.write (b :: bs) = .error Sink.full := by
    rw [Sink.write, if_pos hroom]
  unfold writer? at hstep
  rw [hw] at hstep
  dsimp only at hstep
  rw [hwrite] at hstep
  refine ⟨?_, (Option.some.inj hstep).symm⟩
  have hleft : limit - s.sink.written.size = 0 :=
    Option.some.inj ((room_of_spends h).symm.trans hroom)
  have := h.fits
  omega

/-- **A step of the writer** spends some of the account, or ends the connection. -/
theorem spends_or_concludes_writer (h : s.Spends g a limit shutdown) (hstep : writer? s = some t) :
    t.Spends g a limit shutdown ∨ t.Concludes a limit shutdown := by
  rcases writer_cases h.sound hstep with
    ⟨hkeeps, hgoing⟩ | ⟨b, bs, n, sink, hw, hwrite, rfl⟩ | ⟨b, bs, hw, hfails, _⟩ |
    ⟨hw, htaken, hr, rfl⟩
  · exact .inl (spends_of_keeps h hkeeps hgoing)
  · exact .inl (spends_send h hw hwrite)
  · obtain ⟨hroom, rfl⟩ := of_write_failed h hw hstep hfails
    exact .inr (concludes_full h hw hroom)
  · exact .inr (concludes_end h hw htaken hr)

/-- **Every step** spends some of the account or none, or ends the connection. -/
theorem spends_or_concludes_step {p : Party} (h : s.Spends g a limit shutdown)
    (hstep : g.step? p s = some t) : t.Spends g a limit shutdown ∨ t.Concludes a limit shutdown := by
  cases (steps_of_step? hstep).2 with
  | reader hr => exact .inl (spends_of_other h (keeps_reader h.sound hr)
      (writer_reads (reads_of_reader? h.sound hr)))
  | writer hw => exact spends_or_concludes_writer h hw
  | task ht => exact .inl (spends_of_other h (keeps_task h.sound ht) (rests_task ht).writer)
  | clock hc => exact .inl (spends_of_other h (keeps_clock h.sound hc) (rests_clock hc).writer)

/-! ## 3. Runs -/

/-- Before the first byte, nothing of the account is spent. -/
theorem spends_start (g : Engine) (arrivals : Arrivals) (limit : Nat) {perWrite : Option Nat}
    (shutdown : Option Failure) (hper : perWrite ≠ some 0) :
    (State.start g arrivals (.ofLimits (some limit) perWrite shutdown)).Spends g
      (g.account arrivals.toSource) limit shutdown := by
  have hprospect := prospect_start g arrivals (.ofLimits (some limit) perWrite shutdown)
  refine ⟨sound_start g arrivals _, ?_, ?_, rfl, Nat.zero_le _, hper, rfl, rfl⟩
  · rw [hprospect]
    rfl
  · rw [hprospect]

/-- **At every moment** a connection has spent some of its account, or it has ended. -/
theorem spends_or_concludes (h : s.Spends g a limit shutdown) (hst : Reaches g s t) :
    t.Spends g a limit shutdown ∨ t.Concludes a limit shutdown := by
  induction hst with
  | refl => exact .inl h
  | step p _ hstep ih =>
    rcases ih with hspends | hconcludes
    · exact spends_or_concludes_step hspends hstep
    · obtain ⟨r, hr, _⟩ := hconcludes.result
      rw [result?_of_step hstep] at hr
      cases hr

/-- What has been sent is a beginning of what there is room for. -/
theorem prefix_take (h : s.Spends g a limit shutdown ∨ s.Concludes a limit shutdown) :
    s.sink.written.toList <+: a.output.take limit := by
  rcases h with hspends | hconcludes
  · rw [List.prefix_take_iff]
    refine ⟨⟨_, hspends.output⟩, ?_⟩
    rw [ByteQueue.length_toList]
    exact hspends.fits
  · exact hconcludes.written ▸ List.prefix_rfl

/-- **Where no party can take a step**, the connection has ended: as long as it has no result, some
    party can. -/
theorem concludes_of_stuck (h : s.Spends g a limit shutdown ∨ s.Concludes a limit shutdown)
    (hpipe : 0 < g.config.pipeSize) (hstuck : ∀ p, g.step? p s = none) :
    s.Concludes a limit shutdown := by
  refine h.resolve_left fun hspends => ?_
  have hnone : s.result? = none := by
    refine Option.not_isSome_iff_eq_none.mp fun hsome => ?_
    obtain ⟨_, hw⟩ := writer_ended_of_result? hsome
    have hgoing := hspends.going
    rw [State.writerEnded, hw] at hgoing
    cases hgoing
  obtain ⟨p, t, hstep⟩ := exists_step_of_sound hspends.sound hpipe hnone
  rw [hstuck p] at hstep
  cases hstep

/-- **A failing output never loses a response silently.** Whatever comes in which pieces and after
    which pauses, whatever the handlers do, and however many bytes the output takes, in all and at a
    time: let `a` be the account, whose output is what the connection sends where there is no limit.
    No order of steps goes on forever, and at every moment what has been sent is a beginning of the
    first `limit` bytes of that output; no request that is parsed is ever dropped. Where no party can
    take a step these bytes have been sent, and the connection has a result: success exactly where the
    requests had no fault, there was room for everything and the output ended well; the first fault
    of the requests wherever there was one and room for everything; and of all other errors either
    that fault, or the failure of the output. -/
theorem serve_limited (g : Engine) (items : List Item) (failure : Option Failure) (limit : Nat)
    (perWrite : Option Nat) (shutdown : Option Failure) (hread : 0 < g.config.readSize)
    (hpipe : 0 < g.config.pipeSize) (hper : perWrite ≠ some 0) :
    let arrivals := Arrivals.ofItems g.config.readSize items failure
    let a := g.account (.ofSegments [script items] failure)
    (∀ u, Reaches g (.start g arrivals .unlimited) u → (∀ p, g.step? p u = none) →
      u.sink.written.toList = a.output ∧ u.result? = some (a.result.mapError .request)) ∧
    (WellFounded fun t s : State => ∃ p, g.step? p s = some t) ∧
    ∀ s, Reaches g (.start g arrivals (.ofLimits (some limit) perWrite shutdown)) s →
      s.sink.written.toList <+: a.output.take limit ∧
      (∀ request framing t, s.reader = .offering request framing → g.step? .reader s = some t →
        t = g.enroll s request framing) ∧
      ((∀ p, g.step? p s = none) →
        s.sink.written.toList = a.output.take limit ∧
        s.result?.isSome = true ∧
        (s.result? = some (.ok ()) ↔
          a.result = .ok () ∧ a.output.length ≤ limit ∧ shutdown = none) ∧
        (∀ e, a.result = .error e → a.output.length ≤ limit →
          s.result? = some (.error (.request e))) ∧
        ∀ error, s.result? = some (.error error) →
          (∃ f, (limit < a.output.length ∧ f = Sink.full ∨
              a.output.length ≤ limit ∧ shutdown = some f) ∧
            error = .response (.transport f)) ∨
          ∃ e, a.result = .error e ∧ error = .request e) := by
  intro arrivals a
  obtain ⟨hbytes, hfailure⟩ := Arrivals.toSource_ofItems hread items failure
  have haccount : g.account arrivals.toSource = a :=
    accountFrom_congr (by rw [hbytes, Source.bytes_ofSegments, List.flatten_singleton]) hfailure
  refine ⟨?_, wellFounded_step g, ?_⟩
  · intro u hu hstuck
    have htells := tells_of_reaches (tells_start (Sink.takes_unlimited _) rfl) hu
    rw [haccount] at htells
    exact ended_of_stuck htells hpipe hstuck
  · intro s hs
    have hstart := spends_start g arrivals limit shutdown hper
    rw [haccount] at hstart
    have hends : s.Spends g a limit shutdown ∨ s.Concludes a limit shutdown :=
      spends_or_concludes hstart hs
    refine ⟨prefix_take hends, fun _ _ _ hr hstep => enroll_of_step hs hr hstep, fun hstuck => ?_⟩
    have hconcludes := concludes_of_stuck hends hpipe hstuck
    obtain ⟨r, hr, hends⟩ := hconcludes.result
    rw [hr]
    refine ⟨hconcludes.written, rfl, ?_, ?_, ?_⟩
    · rw [Option.some_inj]
      exact hends.ok_iff
    · intro e he hfits
      rw [hends.eq_of_fault he hfits]
    · intro error herror
      obtain rfl : r = .error error := Option.some.inj herror
      exact hends.blame

/-- An output with room for twenty bytes, three at a time, that cannot be ended. -/
theorem serve_limited_echoing :
    let items := [.bytes (Utf8.encode "POST / HTTP/1.1\nContent-Length: 3\n\n".toList), .pause 5,
      .bytes [97, 98, 99]]
    let s := echoing.serve (.ofItems 1 items none) (.ofLimits (some 20) (some 3) (some .writeZero))
    s.sink.written.toList =
        (echoing.account (.ofSegments [script items] none)).output.take 20 ∧
      s.result? ≠ some (.ok ()) := by
  intro items s
  obtain ⟨hwritten, _, hok, _⟩ := ((serve_limited echoing items none 20 (some 3) (some .writeZero)
    (by decide) (by decide) (by decide)).2.2 s (reaches_run _)).2.2 (step?_run _)
  exact ⟨hwritten, fun hr => nomatch (hok.mp hr).2.2⟩

end Engine

end Sluice.Connection
