/-
  File:      Sluice/Proofs/Connection/Passage.lean
  Subject:   A body passes through its pipe as it is copied, whoever drops it and when.

  * `Feeder.flow`, `copy_eq_flow`: what a machine makes of a stream, and a copy that has room for it;
  * `Exchange.Draws`: what a handler has read, what its body pipe holds and what is still to come make
    up the body, as long as it is not dropped;
  * `State.Bears`: the same of a connection, with how its reader will end the body; `bears_step` is
    its step, `bears_of_logs` its run;
  * `leaves_of_step`: how the reader leaves a body;
  * **`passes_as_copied`**: a reader that passes on a body ends as a copy into a receiver without limits
    does, and the handler gets a beginning of what such a copy writes.
-/
import Sluice.Proofs.Connection.Backlog

namespace Sluice.Wire

open Sluice.Http (MessageError)

/-! ## 1. Flows -/

/-- What a machine makes of a stream: its result, what it leaves of the stream, and its output. -/
structure Flow (ρ : Type) where
  result : Except MessageError ρ
  source : Source
  output : List UInt8

/-- The same behind some further output. -/
def Flow.behind {ρ : Type} (front : List UInt8) (w : Flow ρ) : Flow ρ :=
  { w with output := front ++ w.output }

namespace Feeder

variable {σ ρ : Type}

/-- Feeds a machine from a stream until it is done or fails, with no receiver of its output. -/
def flow (f : Feeder σ ρ) (s : σ) (source : Source) : Flow ρ :=
  match _ha : source.available with
  | .error e => ⟨.error (.transport e), source, []⟩
  | .ok [] => ⟨f.atEnd s, source, []⟩
  | .ok (b :: bs) =>
    let step := f.feed s (b :: bs)
    match _hv : step.verdict with
    | .fault e => ⟨.error e, source.consume step.consumed, []⟩
    | .done r => ⟨.ok r, source.consume step.consumed, step.output⟩
    | .more => (f.flow step.next (source.consume step.consumed)).behind step.output
termination_by source.size
decreasing_by exact Source.size_consume_lt _ha (f.consumed_pos s b bs _hv)

/-- One step of a flow. -/
theorem flow_eq (f : Feeder σ ρ) (s : σ) (source : Source) :
    f.flow s source =
      match source.available with
      | .error e => ⟨.error (.transport e), source, []⟩
      | .ok [] => ⟨f.atEnd s, source, []⟩
      | .ok (b :: bs) =>
        match (f.feed s (b :: bs)).verdict with
        | .fault e => ⟨.error e, source.consume (f.feed s (b :: bs)).consumed, []⟩
        | .done r =>
          ⟨.ok r, source.consume (f.feed s (b :: bs)).consumed, (f.feed s (b :: bs)).output⟩
        | .more => (f.flow (f.feed s (b :: bs)).next
            (source.consume (f.feed s (b :: bs)).consumed)).behind (f.feed s (b :: bs)).output := by
  rw [flow.eq_def]
  split
  · rename_i ha
    rw [ha]
  · rename_i ha
    rw [ha]
  · rename_i b bs ha
    rw [ha]
    dsimp only
    split <;> rename_i hv <;> rw [hv]

end Feeder

section Limitless

variable {sink : Sink} {bytes : List UInt8}

/-- Without a limit, there is always room. -/
theorem Sink.room_limitless (hlimit : sink.limit = none) : sink.room = none := by
  rw [Sink.room, hlimit]
  rfl

/-- Without limits, one write takes all bytes. -/
theorem Sink.write_limitless (hlimit : sink.limit = none) (hper : sink.perWrite = none) :
    sink.write bytes = .ok (bytes.length, { sink with written := sink.written.append bytes }) := by
  rw [Sink.write, Sink.room_limitless hlimit, if_neg (Option.some_ne_none 0).symm, hper]
  rfl

/-- Without limits, writing on does not fail. -/
theorem Sink.writeAll_limitless (hlimit : sink.limit = none) (hper : sink.perWrite = none) :
    ∃ t, sink.writeAll bytes = (none, t) ∧ sink.Wrote bytes t := by
  obtain ⟨hwrote, hfailure⟩ := Sink.writeAll_eq bytes (s := sink)
    (hper ▸ (Option.some_ne_none 0).symm)
  rw [Sink.room_limitless hlimit] at hwrote hfailure
  rw [if_pos (show Sink.upTo none bytes = bytes from rfl)] at hfailure
  exact ⟨_, Prod.ext hfailure rfl, hwrote⟩

/-- **A run into a receiver without limits** is a flow, its output behind what was written. -/
theorem Feeder.run_eq_flow {σ ρ : Type} (f : Feeder σ ρ) (s : σ) (source : Source)
    (hlimit : sink.limit = none) (hper : sink.perWrite = none) :
    (f.run s source sink).result = (f.flow s source).result ∧
      (f.run s source sink).source = (f.flow s source).source ∧
      (f.run s source sink).sink.written.toList =
        sink.written.toList ++ (f.flow s source).output := by
  fun_induction Feeder.run f s source sink with
  | case1 s source sink e ha =>
    rw [Feeder.flow_eq, ha]
    exact ⟨rfl, rfl, (List.append_nil _).symm⟩
  | case2 s source sink ha =>
    rw [Feeder.flow_eq, ha]
    exact ⟨rfl, rfl, (List.append_nil _).symm⟩
  | case3 s source sink b bs ha step e hv =>
    rw [Feeder.flow_eq, ha]
    dsimp only
    rw [hv]
    exact ⟨rfl, rfl, (List.append_nil _).symm⟩
  | case4 s source sink b bs ha step r hv e t hw =>
    obtain ⟨t', ht', -⟩ := Sink.writeAll_limitless hlimit hper
    cases hw.symm.trans ht'
  | case5 s source sink b bs ha step r hv t hw =>
    obtain ⟨t', ht', hwrote⟩ := Sink.writeAll_limitless hlimit hper
    cases hw.symm.trans ht'
    rw [Feeder.flow_eq, ha]
    dsimp only
    rw [hv]
    exact ⟨rfl, rfl, hwrote.written⟩
  | case6 s source sink b bs ha step hv e t hw =>
    obtain ⟨t', ht', -⟩ := Sink.writeAll_limitless hlimit hper
    cases hw.symm.trans ht'
  | case7 s source sink b bs ha step hv t hw ih =>
    obtain ⟨t', ht', hwrote⟩ := Sink.writeAll_limitless hlimit hper
    cases hw.symm.trans ht'
    obtain ⟨hresult, hsource, hwritten⟩ :=
      ih (hwrote.limit.trans hlimit) (hwrote.perWrite.trans hper)
    rw [Feeder.flow_eq f s source, ha]
    dsimp only
    rw [hv]
    refine ⟨hresult, hsource, ?_⟩
    rw [hwritten, hwrote.written, List.append_assoc]
    rfl

end Limitless

end Sluice.Wire

namespace Sluice.Http

open Sluice.Wire

/-- Copying up to the end of the input is a flow, where there is no limit. -/
theorem drain_eq_flow (copied : Nat) (source : Source) {sink : Sink} (hlimit : sink.limit = none)
    (hper : sink.perWrite = none) :
    (drain copied source sink).result = (bodyFeeder.flow (.untilClose copied) source).result ∧
      (drain copied source sink).source = (bodyFeeder.flow (.untilClose copied) source).source ∧
      (drain copied source sink).sink.written.toList =
        sink.written.toList ++ (bodyFeeder.flow (.untilClose copied) source).output := by
  fun_induction drain copied source sink with
  | case1 copied source sink e ha =>
    rw [Feeder.flow_eq, ha]
    exact ⟨rfl, rfl, (List.append_nil _).symm⟩
  | case2 copied source sink ha =>
    rw [Feeder.flow_eq, ha]
    exact ⟨rfl, rfl, (List.append_nil _).symm⟩
  | case3 copied source sink b bs ha e hw => cases hw.symm.trans (Sink.write_limitless hlimit hper)
  | case4 copied source sink b bs ha t hw => cases hw.symm.trans (Sink.write_limitless hlimit hper)
  | case5 copied source sink b bs ha n t hw ih =>
    cases hw.symm.trans (Sink.write_limitless hlimit hper)
    obtain ⟨hresult, hsource, hwritten⟩ := ih hlimit hper
    rw [Feeder.flow_eq _ _ source, ha]
    refine ⟨hresult, hsource, ?_⟩
    rw [hwritten, ByteQueue.toList_append, List.append_assoc]
    rfl

/-- **A copy into a receiver without limits** is the flow of the body. -/
theorem Framing.copy_eq_flow {f : Framing} {b : BodyState} (h : BodyState.ofFraming f = some b)
    (source : Source) :
    (f.copy source .unlimited).result = (bodyFeeder.flow b source).result ∧
      (f.copy source .unlimited).source = (bodyFeeder.flow b source).source ∧
      (f.copy source .unlimited).sink.written.toList = (bodyFeeder.flow b source).output := by
  unfold Framing.copy
  by_cases hclose : f = .untilClose
  · subst hclose
    cases h
    rw [if_pos rfl]
    exact drain_eq_flow 0 source rfl rfl
  · rw [if_neg hclose, h]
    exact bodyFeeder.run_eq_flow b source rfl rfl

/-- The fault of a body is never one of the transport. -/
theorem BodyState.not_transport (b : BodyState) (bytes : List UInt8) (f : Failure) :
    (bodyFeeder.feed b bytes).verdict ≠ .fault (.transport f) ∧
      bodyFeeder.atEnd b ≠ .error (.transport f) := by
  cases b with
  | length total remaining =>
    refine ⟨?_, nofun⟩
    dsimp only [bodyFeeder, BodyState.feed]
    split <;> nofun
  | chunked progress =>
    dsimp only [bodyFeeder, BodyState.feed, BodyState.atEnd, chunkFeeder]
    refine ⟨?_, ?_⟩
    · split <;> nofun
    · split <;> nofun
  | untilClose copied => exact ⟨nofun, nofun⟩

/-- **A flow fails** only where its stream does. -/
theorem failure_of_flow {b : BodyState} {source : Source} {f : Failure}
    (h : (bodyFeeder.flow b source).result = .error (.transport f)) : source.failure = some f := by
  fun_induction Feeder.flow bodyFeeder b source with
  | case1 b source e ha =>
    cases h
    exact (Source.bytes_of_available_error ha).2
  | case2 b source ha => exact absurd h (b.not_transport [] f).2
  | case3 b source x xs ha step e hv =>
    cases h
    exact absurd hv (b.not_transport (x :: xs) f).1
  | case4 b source x xs ha step r hv => cases h
  | case5 b source x xs ha step hv ih =>
    have hfailure := ih h
    rwa [Source.failure_consume] at hfailure

end Sluice.Http

namespace Sluice.Connection

open Sluice.Http Sluice.Wire

/-! ## 2. One handler -/

/-- **What a handler draws**: what it has read is a beginning of the body; and as long as it has not
    dropped the body, this, what the pipe holds and what is still to come make it up, and nothing is to
    come through a pipe that is closed. -/
def Exchange.Draws (x : Exchange) (data more : List UInt8) : Prop :=
  ∀ actions received ending, x.task = .running actions received ending →
    received.reverse <+: data ∧ (x.body.dropped = false →
      received.reverse ++ x.body.content.toList ++ more = data ∧ (x.body.closed = true → more = []))

namespace Exchange

variable {x y : Exchange} {data more : List UInt8}

/-- A handler that starts has read nothing. -/
theorem draws_start (conduct : Conduct) {pipe : Pipe} (h : pipe.content.toList = [])
    (hclosed : pipe.closed = true → data = []) (size : Nat) :
    (start conduct pipe size).Draws data data := by
  rintro actions received ending ⟨⟩
  refine ⟨List.nil_prefix, fun _ => ⟨?_, hclosed⟩⟩
  show [] ++ pipe.content.toList ++ data = data
  rw [h]
  rfl

/-- A handler that is over draws nothing more. -/
theorem draws_of_over (h : x.task.isRunning = false) (data more : List UInt8) :
    x.Draws data more := by
  intro actions received ending ht
  rw [ht] at h
  cases h

/-- **An action** reads from the front of what the pipe holds, or nothing. -/
theorem Draws.act {actions : List Action} {received : List UInt8} {ending : List UInt8 → Ending}
    (h : x.Draws data more) (ht : x.task = .running actions received ending)
    (hy : x.act? received ending actions = some y) : y.Draws data more := by
  obtain ⟨hfront, hall⟩ := h _ _ _ ht
  cases acts_of_act? hy with
  | resume | wake | readAll =>
    rintro _ _ _ ⟨⟩
    exact ⟨hfront, hall⟩
  | drop rest =>
    rintro _ _ _ ⟨⟩
    exact ⟨hfront, nofun⟩
  | reply | failed | crashed => exact draws_of_over rfl _ _
  | @read most bytes body rest hmost hdropped hf =>
    obtain ⟨hwhole, hclosed⟩ := hall hdropped
    obtain ⟨hcontent, -⟩ := Pipe.fetch_data hf
    obtain ⟨-, hsame, -⟩ := Pipe.ends_of_fetch hf
    rw [hcontent, ← List.append_assoc] at hwhole
    rw [← hsame] at hclosed
    rintro _ _ _ ⟨⟩
    rw [List.reverseAux_eq, List.reverse_append, List.reverse_reverse]
    refine ⟨?_, fun _ => ⟨hwhole, hclosed⟩⟩
    rw [← hwhole, List.append_assoc]
    exact List.prefix_append ..

/-- **A step of the task** draws on. -/
theorem Draws.step (h : x.Draws data more) (hy : x.step? = some y) : y.Draws data more := by
  cases Exchange.proceeds_of_step? hy with
  | act ht ha => exact h.act ht ha
  | finish | broken | write => exact draws_of_over rfl _ _

/-- Sleeping draws nothing. -/
theorem Draws.elapse (h : x.Draws data more) (ms : Nat) : (x.elapse ms).Draws data more := by
  unfold Exchange.elapse
  split
  · rename_i left rest received ending ht
    rintro _ _ _ ⟨⟩
    exact h _ _ _ ht
  · exact h

/-- What is written into the pipe no longer has to come. -/
theorem Draws.write {body : Pipe} {n : Nat} {left : List UInt8} (h : x.Draws data (left ++ more))
    (hw : x.body.write left = .accepted n body) :
    ({ x with body } : Exchange).Draws data (left.drop n ++ more) := by
  intro actions received ending ht
  obtain ⟨hfront, hall⟩ := h _ _ _ ht
  obtain ⟨hdropped, -, hsame, -⟩ := Pipe.ends_of_write hw
  obtain ⟨hwhole, hclosed⟩ := hall hdropped
  refine ⟨hfront, fun _ => ⟨?_, fun hc => ?_⟩⟩
  · show received.reverse ++ body.content.toList ++ (left.drop n ++ more) = data
    rw [← hwhole, (Pipe.write_accepted hw).1]
    simp only [List.append_assoc]
    rw [← List.append_assoc (left.take n), List.take_append_drop]
  · obtain ⟨rfl, rfl⟩ := List.append_eq_nil_iff.mp (hclosed (hsame ▸ hc))
    rw [List.drop_nil]
    rfl

/-- To a handler that has dropped its body, anything may come. -/
theorem Draws.of_dropped {more' : List UInt8} (h : x.Draws data more) (hd : x.body.dropped = true) :
    x.Draws data more' := by
  intro actions received ending ht
  refine ⟨(h _ _ _ ht).1, fun hkept => ?_⟩
  rw [hd] at hkept
  cases hkept

end Exchange

/-! ## 3. One connection -/

/-- How a reader will end the body that it passes on, and what it will still pass on of it. -/
def Reader.flow (source : Source) : Reader → Option (Flow Nat)
  | .copying b left none => some ((bodyFeeder.flow b source).behind left)
  | .copying _ left (some total) => some ⟨.ok total, source, left⟩
  | _ => none

/-- What a reader will still pass on. -/
def Reader.due (source : Source) (r : Reader) : List UInt8 :=
  match r.flow source with
  | some w => w.output
  | none => []

/-- **What a connection makes of a body** of which `w` was to come, `n` requests and refusals behind its
    own: its reader will end it as it was to, and its handler draws what was to come. -/
structure State.Bears (w : Flow Nat) (n : Nat) (s : State) : Prop where
  flow : n = 0 → ∀ v, s.reader.flow s.arrivals.toSource = some v →
    v.result = w.result ∧ v.source = w.source
  draws : ∀ i x, i + n + 1 = s.exchanges.length → s.exchanges[i]? = some x →
    x.Draws w.output (if n = 0 then s.reader.due s.arrivals.toSource else [])

namespace Engine

variable {g : Engine} {s t : State} {x y : Exchange} {w : Flow Nat} {n : Nat} {b : BodyState}
  {left : List UInt8} {total : Option Nat}

/-- A reader that is not in a body passes on nothing. -/
theorem flow_of_not_copying {r : Reader} (h : r.isCopying = false) (source : Source) :
    r.flow source = none := by
  cases r with
  | copying b left total => cases h
  | _ => rfl

/-- Where the exchanges move on by themselves, and the reader is where it was, or is in no body. -/
theorem bears_of_apart (h : s.Bears w n)
    (hflow : t.reader.flow t.arrivals.toSource = s.reader.flow s.arrivals.toSource)
    (hlen : t.exchanges.length = s.exchanges.length)
    (hdraws : ∀ (i : Nat) (y : Exchange), t.exchanges[i]? = some y →
      ∃ x, s.exchanges[i]? = some x ∧ ∀ data more, x.Draws data more → y.Draws data more) :
    t.Bears w n := by
  refine ⟨?_, fun i y hi hy => ?_⟩
  · rw [hflow]
    exact h.flow
  · obtain ⟨x, hx, hxy⟩ := hdraws i y hy
    have hdue : t.reader.due t.arrivals.toSource = s.reader.due s.arrivals.toSource := by
      unfold Reader.due
      rw [hflow]
    rw [hdue]
    exact hxy _ _ (h.draws i x (hlen ▸ hi) hx)

/-- Where the exchanges are as they were. -/
theorem bears_of_same (h : s.Bears w n)
    (hflow : t.reader.flow t.arrivals.toSource = s.reader.flow s.arrivals.toSource)
    (hexchanges : t.exchanges = s.exchanges) : t.Bears w n := by
  refine bears_of_apart h hflow (congrArg _ hexchanges) fun i y hy => ?_
  rw [hexchanges] at hy
  exact ⟨y, hy, fun _ _ h => h⟩

/-- Another exchange in a place that draws the same. -/
theorem draws_set {i : Nat} (hx : s.exchanges[i]? = some x)
    (hxy : ∀ data more, x.Draws data more → y.Draws data more) (j : Nat) (z : Exchange)
    (hz : (s.exchanges.set i y)[j]? = some z) :
    ∃ x, s.exchanges[j]? = some x ∧ ∀ data more, x.Draws data more → z.Draws data more := by
  by_cases hj : i = j
  · subst hj
    rw [List.getElem?_set_self (List.getElem?_eq_some_iff.mp hx).1] at hz
    obtain rfl : y = z := Option.some.inj hz
    exact ⟨x, hx, hxy⟩
  · rw [List.getElem?_set_ne hj] at hz
    exact ⟨z, hz, fun _ _ h => h⟩

/-- **Where the reader goes on with a body**, and only the exchange of that body goes on with it. -/
theorem bears_current (h : s.Bears w n) (hx : s.exchanges[s.current]? = some x)
    (hexchanges : t.exchanges = s.exchanges.set s.current y)
    (hflow : ∀ v, t.reader.flow t.arrivals.toSource = some v → ∃ u,
      s.reader.flow s.arrivals.toSource = some u ∧ v.result = u.result ∧ v.source = u.source)
    (hdraws : ∀ data, x.Draws data (s.reader.due s.arrivals.toSource) →
      y.Draws data (t.reader.due t.arrivals.toSource)) : t.Bears w n := by
  have hlt := (List.getElem?_eq_some_iff.mp hx).1
  refine ⟨fun hn v hv => ?_, fun i z hi hz => ?_⟩
  · obtain ⟨u, hu, hresult, hsource⟩ := hflow v hv
    obtain ⟨hresult', hsource'⟩ := h.flow hn u hu
    exact ⟨hresult.trans hresult', hsource.trans hsource'⟩
  · rw [hexchanges, List.length_set] at hi
    rw [hexchanges] at hz
    have hcurrent : s.current + 1 = s.exchanges.length := by
      unfold State.current at hlt ⊢
      omega
    by_cases hn : n = 0
    · obtain rfl : s.current = i := by omega
      rw [List.getElem?_set_self hlt] at hz
      obtain rfl : y = z := Option.some.inj hz
      have hdrawn := h.draws _ x hi hx
      rw [if_pos hn] at hdrawn ⊢
      exact hdraws _ hdrawn
    · rw [List.getElem?_set_ne (by omega)] at hz
      have hdrawn := h.draws i z hi hz
      rw [if_neg hn] at hdrawn ⊢
      exact hdrawn

/-- **One exchange more** stands behind that of the body. -/
theorem bears_enqueue (h : s.Bears w n) (hr : s.reader.isCopying = false) (y : Exchange) (r : Reader)
    (started : Nat) : State.Bears w (n + 1) { s.enqueue y with reader := r, started } := by
  refine ⟨nofun, fun i z hi hz => ?_⟩
  change i + (n + 1) + 1 = (s.exchanges.drop s.past ++ [y]).length at hi
  change (s.exchanges.drop s.past ++ [y])[i]? = some z at hz
  rw [List.length_append, List.length_drop, List.length_singleton] at hi
  rw [List.getElem?_append_left (by rw [List.length_drop]; omega), List.getElem?_drop] at hz
  have hdrawn := h.draws (s.past + i) z (by omega) hz
  have hdue : s.reader.due s.arrivals.toSource = [] := by
    unfold Reader.due
    rw [flow_of_not_copying hr]
  rw [hdue, ite_self] at hdrawn
  exact hdrawn

/-! ## 4. The reader in a body -/

/-- What is left of a piece is passed on in front of the rest. -/
theorem due_copying (source : Source) (b : BodyState) (left : List UInt8) (total : Option Nat) :
    (Reader.copying b left total).due source =
      left ++ (Reader.copying b [] total).due source := by
  cases total with
  | none => rfl
  | some n => exact (List.append_nil left).symm

/-- How a body ends does not depend on what is left of a piece. -/
theorem flow_copying {source : Source} {left' : List UInt8} {v : Flow Nat}
    (h : (Reader.copying b left' total).flow source = some v) :
    ∃ u, (Reader.copying b left total).flow source = some u ∧
      v.result = u.result ∧ v.source = u.source := by
  cases total <;> cases h <;> exact ⟨_, rfl, rfl, rfl⟩

/-- **Passing on** puts the first bytes of what is left into the pipe, or passes over all of it, where
    the handler has dropped its body. -/
theorem bears_passOn (h : s.Bears w n) (hr : s.reader = .copying b left total)
    (hstep : passOn? s b left total = some t) : t.Bears w n := by
  unfold passOn? at hstep
  cases hx : s.exchanges[s.current]? with
  | none =>
    rw [hx] at hstep
    cases hstep
  | some x =>
    rw [hx] at hstep
    dsimp only at hstep
    cases hw : x.body.write left with
    | blocked =>
      rw [hw] at hstep
      cases hstep
    | broken =>
      rw [hw] at hstep
      cases hstep
      refine bears_current h hx (set_of_getElem? hx).symm (fun v hv => ?_) fun data hdrawn => ?_
      · rw [hr]
        exact flow_copying hv
      · exact hdrawn.of_dropped (Pipe.write_broken hw)
    | accepted m body =>
      rw [hw] at hstep
      cases hstep
      refine bears_current h hx rfl (fun v hv => ?_) fun data hdrawn => ?_
      · rw [hr]
        exact flow_copying hv
      · rw [hr, due_copying] at hdrawn
        rw [due_copying]
        exact hdrawn.write hw

/-- **The end of a body**: nothing more comes, and nothing more was to come. -/
theorem bears_endBody (h : s.Bears w n) (hx : s.exchanges[s.current]? = some x) (arrivals : Arrivals)
    (hdue : s.reader.due s.arrivals.toSource = []) {r : Reader} (hr : r.isCopying = false) :
    (endBody { s with arrivals } r).Bears w n := by
  have hflow := flow_of_not_copying hr arrivals.toSource
  rw [endBody_eq (s := { s with arrivals }) hx]
  refine bears_current h hx rfl (fun v hv => ?_) fun data hdrawn => ?_
  · change r.flow arrivals.toSource = some v at hv
    rw [hflow] at hv
    cases hv
  · show Exchange.Draws _ data (r.due arrivals.toSource)
    unfold Reader.due
    rw [hdue] at hdrawn
    rw [hflow]
    intro actions received ending ht
    obtain ⟨hfront, hall⟩ := hdrawn _ _ _ ht
    exact ⟨hfront, fun hd => ⟨(hall hd).1, fun _ => rfl⟩⟩

/-- **Reading on in a body** is a step of its flow: the reader goes on with the rest of the flow, or
    ends with its fault. -/
theorem flow_readBody {r : Except Failure (List UInt8)} (ha : s.arrivals.available = some r) :
    (readBody s b r).exchanges = s.exchanges ∧ (readBody s b r).reader.isCopying = true ∧
        (readBody s b r).reader.flow (readBody s b r).arrivals.toSource =
          some (bodyFeeder.flow b s.arrivals.toSource) ∨
      ∃ e arrivals, readBody s b r = endBody { s with arrivals } (.ended (.error e)) ∧
        bodyFeeder.flow b s.arrivals.toSource = ⟨.error e, arrivals.toSource, []⟩ := by
  rw [Feeder.flow_eq, Arrivals.available_toSource ha]
  unfold readBody
  cases r with
  | error f => exact .inr ⟨_, s.arrivals, rfl, rfl⟩
  | ok bytes =>
    cases bytes with
    | nil =>
      dsimp only
      cases hend : b.atEnd with
      | error e =>
        refine .inr ⟨e, s.arrivals, rfl, ?_⟩
        rw [show bodyFeeder.atEnd b = .error e from hend]
      | ok total =>
        refine .inl ⟨rfl, rfl, ?_⟩
        rw [show bodyFeeder.atEnd b = .ok total from hend]
        rfl
    | cons x xs =>
      dsimp only
      cases hv : (bodyFeeder.feed b (x :: xs)).verdict with
      | fault e =>
        refine .inr ⟨e, _, rfl, ?_⟩
        dsimp only
        rw [Arrivals.toSource_consume]
      | more =>
        refine .inl ⟨rfl, rfl, ?_⟩
        dsimp only [Reader.flow]
        rw [Arrivals.toSource_consume]
      | done total =>
        refine .inl ⟨rfl, rfl, ?_⟩
        dsimp only [Reader.flow]
        rw [Arrivals.toSource_consume]

/-- Before the first piece all of a flow is to come. -/
theorem flow_of_reading (hr : s.reader = .copying b [] none) :
    s.reader.flow s.arrivals.toSource = some (bodyFeeder.flow b s.arrivals.toSource) := by
  rw [hr]
  rfl

theorem bears_readBody (h : s.Bears w n) (hx : s.exchanges[s.current]? = some x)
    (hr : s.reader = .copying b [] none) {r : Except Failure (List UInt8)}
    (ha : s.arrivals.available = some r) : (readBody s b r).Bears w n := by
  have hflow := flow_of_reading hr
  rcases flow_readBody (b := b) ha with ⟨hexchanges, -, hsame⟩ | ⟨e, arrivals, hend, hfault⟩
  · exact bears_of_same h (hsame.trans hflow.symm) hexchanges
  · rw [hend]
    refine bears_endBody h hx arrivals ?_ rfl
    unfold Reader.due
    rw [hflow, hfault]

/-! ## 5. Every step -/

/-- Writing a refusal has nothing to do with bodies. -/
theorem bears_answer {e : MessageError} (h : s.Bears w n) (hr : s.reader = .answering e left)
    (hstep : answer? s e left = some t) : t.Bears w n := by
  have hnone : ∀ {r : Reader}, r.isCopying = false →
      r.flow s.arrivals.toSource = s.reader.flow s.arrivals.toSource := by
    intro r hcopying
    rw [flow_of_not_copying hcopying, flow_of_not_copying (by rw [hr]; rfl)]
  unfold answer? at hstep
  cases hx : s.exchanges[s.current]? with
  | none =>
    rw [hx] at hstep
    cases hstep
  | some x =>
    rw [hx] at hstep
    dsimp only at hstep
    split at hstep
    · cases hstep
      exact bears_of_apart h (hnone rfl) List.length_set (draws_set hx fun _ _ h => h)
    · split at hstep
      · cases hstep
      · cases hstep
        exact bears_of_same h (hnone rfl) rfl
      · cases hstep
        exact bears_of_apart h (hnone rfl) List.length_set (draws_set hx fun _ _ h => h)

/-- **A step of the reader.** -/
theorem bears_reads (h : s.Bears w n) (hs : s.Sound g) (hstep : Reads g s t) :
    t.Bears w (n + (placedIn (event? .reader s t).toList).length) := by
  cases hstep with
  | @head head r hr ha =>
    obtain ⟨hexchanges, -⟩ := frame_readHead g s head r
    obtain ⟨hcopying, -⟩ := phase_readHead g s head r
    have hnone : placedIn (event? .reader s (g.readHead s head r)).toList = [] := by
      rcases event_of_head (t := g.readHead s head r) hr with hev | ⟨e, hev, -⟩
      · rw [hev]
        cases (g.readHead s head r).reader <;> rfl
      · rw [hev]
        rfl
    rw [hnone]
    refine bears_of_same h ?_ hexchanges
    rw [flow_of_not_copying hcopying, flow_of_not_copying (by rw [hr]; rfl)]
  | start hr _ =>
    rw [event_of_enroll hr]
    exact bears_enqueue h (by rw [hr]; rfl) _ _ _
  | refuse hr _ =>
    rw [event_of_refuse hr]
    exact bears_enqueue h (by rw [hr]; rfl) _ _ _
  | answer hr h' =>
    rw [event_of_busy (.inr (by rw [hr]; rfl))]
    exact bears_answer h hr h'
  | passOn hr h' =>
    rw [event_of_busy (.inl (by rw [hr]; rfl))]
    exact bears_passOn h hr h'
  | behind hr =>
    obtain ⟨x, hx, -⟩ := hs.copying (by rw [hr]; rfl)
    rw [event_of_busy (.inl (by rw [hr]; rfl))]
    exact bears_endBody h hx s.arrivals (by rw [hr]; rfl) rfl
  | body hr ha =>
    obtain ⟨x, hx, -⟩ := hs.copying (by rw [hr]; rfl)
    rw [event_of_busy (.inl (by rw [hr]; rfl))]
    exact bears_readBody h hx hr ha

/-- A step of the writer has nothing to do with bodies. -/
theorem bears_writes (h : s.Bears w n) (hstep : Writes s t) :
    t.Bears w n := by
  cases hstep with
  | take | finish | send | fail | close => exact bears_of_same h rfl rfl
  | fetch hw hx _ => exact bears_of_apart h rfl List.length_set (draws_set hx fun _ _ h => h)

/-- **Every step**, of whichever party. -/
theorem bears_step {p : Party} (h : s.Bears w n) (hs : s.Sound g) (hstep : g.step? p s = some t) :
    t.Bears w (n + (placedIn (event? p s t).toList).length) := by
  cases (steps_of_step? hstep).2 with
  | reader hr => exact bears_reads h hs (reads_of_reader? hs hr)
  | writer hw =>
    have hwrites := writes_of_writer? hw
    obtain ⟨-, -, -, hevent⟩ := reader_writes hwrites
    have hnone : placedIn (event? .writer s t).toList = [] := by
      cases hev : event? .writer s t with
      | none => rfl
      | some e =>
        obtain ⟨handled, rfl⟩ := hevent e hev
        rfl
    rw [hnone]
    exact bears_writes h hwrites
  | task ht =>
    show t.Bears w n
    obtain ⟨x, y, hx, hy, rfl⟩ := of_task? ht
    exact bears_of_apart h rfl List.length_set (draws_set hx fun _ _ hd => hd.step hy)
  | clock hc =>
    show t.Bears w n
    have hrests := rests_clock hc
    obtain ⟨ms, -, rfl⟩ := of_clock? hc
    refine bears_of_apart h ?_ (List.length_map _) fun i y hy => ?_
    · rw [hrests.source]
    · obtain ⟨x, hx, rfl⟩ := Option.map_eq_some_iff.mp (List.getElem?_map .. ▸ hy)
      exact ⟨x, hx, fun _ _ hd => hd.elapse ms⟩

/-- **At every moment** of a run, whatever the parties do. -/
theorem bears_of_logs {arrivals : Arrivals} {sink : Sink} {log : List Event}
    (hs : Reaches g (.start g arrivals sink) s) (h : s.Bears w 0) (hlogs : Logs g s log t) :
    t.Bears w (placedIn log).length := by
  induction hlogs with
  | start => exact h
  | @step log t u p hlogs hstep ih =>
    have hsound : t.Sound g := sound_of_step (hs.trans (reaches_iff_logs.mpr ⟨log, hlogs⟩)) hstep
    have hnext := bears_step ih hsound hstep
    rwa [placedIn_append, List.length_append]

/-! ## 6. Whole bodies -/

/-- **How the reader leaves a body**: behind its last byte, or with its fault. -/
theorem leaves_of_step {p : Party} (h : s.Bears w 0) (hs : s.Sound g)
    (hr : s.reader.isCopying = true) (hstep : g.step? p s = some t)
    (ht : t.reader.isCopying = false) :
    t.arrivals.toSource = w.source ∧
      ((∃ b total, s.reader = .copying b [] (some total) ∧ w.result = .ok total ∧
          t.reader = .head (.fresh g.store)) ∨
        ∃ e, w.result = .error e ∧ t.reader = .ended (.error e)) := by
  have hmoved : t.reader ≠ s.reader := by
    intro hsame
    rw [hsame, hr] at ht
    cases ht
  cases (steps_of_step? hstep).2 with
  | writer hw => exact absurd (reader_writes (writes_of_writer? hw)).2.1 hmoved
  | task hi => exact absurd (rests_task hi).reader hmoved
  | clock hc => exact absurd (rests_clock hc).reader hmoved
  | reader hreader =>
    cases reads_of_reader? hs hreader with
    | head hr' _ | start hr' _ | refuse hr' _ | answer hr' _ =>
      rw [hr'] at hr
      cases hr
    | passOn _ h' =>
      obtain ⟨_, _, _, rfl⟩ := of_passOn? h'
      cases ht
    | @behind b total hr' =>
      obtain ⟨hresult, hsource⟩ := h.flow rfl ⟨.ok total, s.arrivals.toSource, []⟩ (by rw [hr']; rfl)
      exact ⟨hsource, .inl ⟨b, total, hr', hresult.symm, rfl⟩⟩
    | body hr' ha =>
      rcases flow_readBody ha with ⟨-, hcopying, -⟩ | ⟨e, arrivals, hend, hfault⟩
      · rw [hcopying] at ht
        cases ht
      · obtain ⟨hresult, hsource⟩ := h.flow rfl _ (flow_of_reading hr')
        rw [hfault] at hresult hsource
        rw [hend]
        exact ⟨hsource, .inr ⟨e, hresult.symm, rfl⟩⟩

/-- The flow that a copy into a receiver without limits is. -/
def copyFlow (framing : Framing) (source : Source) : Flow Nat :=
  let c := framing.copy source .unlimited
  ⟨c.result, c.source, c.sink.written.toList⟩

/-- **When its handler starts**, all of a body is to come. -/
theorem bears_enroll (g : Engine) (s : State) (request : Request) (framing : Framing) :
    (g.enroll s request framing).Bears (copyFlow framing s.arrivals.toSource) 0 := by
  have hlast : ∀ {i : Nat} {x y : Exchange}, i + 0 + 1 = (s.enqueue y).exchanges.length →
      (s.enqueue y).exchanges[i]? = some x → x = y := by
    intro i x y hi hx
    change i + 0 + 1 = (s.exchanges.drop s.past ++ [y]).length at hi
    rw [List.length_append, List.length_singleton] at hi
    obtain rfl : i = (s.exchanges.drop s.past).length := by omega
    exact Option.some.inj (hx.symm.trans List.getElem?_concat_length)
  cases hbody : BodyState.ofFraming framing with
  | none =>
    have hcopy : copyFlow framing s.arrivals.toSource = ⟨.ok 0, s.arrivals.toSource, []⟩ := by
      unfold copyFlow
      rw [Framing.copy_of_isNone ((isNone_iff framing).mpr hbody)]
      rfl
    rw [hcopy, enroll_of_none request hbody]
    refine ⟨nofun, fun i x hi hx => ?_⟩
    obtain rfl := hlast hi hx
    exact Exchange.draws_start _ rfl (fun _ => rfl) _
  | some b =>
    obtain ⟨hresult, hsource, hwritten⟩ := Framing.copy_eq_flow hbody s.arrivals.toSource
    rw [enroll_of_some request hbody]
    refine ⟨?_, fun i x hi hx => ?_⟩
    · rintro - v ⟨⟩
      exact ⟨hresult.symm, hsource.symm⟩
    · obtain rfl := hlast hi hx
      show Exchange.Draws _ (framing.copy s.arrivals.toSource .unlimited).sink.written.toList
        ([] ++ (bodyFeeder.flow b s.arrivals.toSource).output)
      rw [hwritten]
      exact Exchange.draws_start _ rfl (by rintro ⟨⟩) _

/-- A copy into a receiver without limits fails only where its stream does. -/
theorem failure_of_copy {framing : Framing} {source : Source} {f : Failure}
    (h : (framing.copy source .unlimited).result = .error (.transport f)) :
    source.failure = some f := by
  cases hbody : BodyState.ofFraming framing with
  | none =>
    rw [Framing.copy_of_isNone ((isNone_iff framing).mpr hbody)] at h
    cases h
  | some b =>
    rw [(Framing.copy_eq_flow hbody source).1] at h
    exact failure_of_flow h

/-- Where no party can take a step, and the reader is in a body, the output has failed. -/
theorem failed_of_stuck {arrivals : Arrivals} {sink : Sink} (hpipe : 0 < g.config.pipeSize)
    (h : Reaches g (.start g arrivals sink) s) (hr : s.reader.isCopying = true)
    (hstuck : ∀ p, g.step? p s = none) : ∃ f, s.writer = .ended (some f) := by
  have hresult : s.result?.isSome = true := by
    by_contra hnone
    have hs := (sound_of_reaches h).resolve_right hnone
    obtain ⟨p, t, hstep⟩ :=
      exists_step_of_sound hs hpipe (Option.not_isSome_iff_eq_none.mp hnone)
    rw [hstuck p] at hstep
    cases hstep
  unfold State.result? at hresult
  split at hresult
  · rename_i hreader _
    rw [hreader] at hr
    cases hr
  · rename_i f hw _
    exact ⟨f, hw⟩
  · rename_i hreader _
    rw [hreader] at hr
    cases hr
  · cases hresult

/-- **A body is passed on as it is copied.** A request gets its handler, and from there on the parties
    take their steps in any order, whatever the handler reads of its body and whenever it drops it. The
    reader comes to the end of the body, unless the output fails before; and it leaves the body as a
    copy into a receiver without limits does, with the same number of bytes or the same fault, and with
    the same input unread. A failure of the transport is one of the input, so that no pipe that broke
    shows. What the handler has read is a beginning of what such a copy writes; where it comes to the
    end of the body, it is all of it. -/
theorem passes_as_copied (g : Engine) (arrivals : Arrivals) (sink : Sink)
    (hpipe : 0 < g.config.pipeSize) {s s' : State} {request : Request} {framing : Framing}
    (hs : Reaches g (.start g arrivals sink) s) (hr : s.reader = .offering request framing)
    (hstep : g.step? .reader s = some s') :
    let c := framing.copy s.arrivals.toSource .unlimited
    s' = g.enroll s request framing ∧
    (∀ f, c.result = .error (.transport f) → s.arrivals.failure = some f) ∧
    (if framing.isNone then
        s'.reader = .head (.fresh g.store) ∧ s'.arrivals.toSource = c.source ∧ c.result = .ok 0
      else s'.reader.isCopying = true) ∧
    (WellFounded fun u t : State => ∃ p, g.step? p t = some u) ∧
    ∀ log t, Logs g s' log t →
      (placedIn log = [] → t.reader.isCopying = true →
        ((∀ p, g.step? p t = none) → ∃ f, t.writer = .ended (some f)) ∧
        ∀ p u, g.step? p t = some u → u.reader.isCopying = false →
          u.arrivals.toSource = c.source ∧
            ((∃ b n, t.reader = .copying b [] (some n) ∧ c.result = .ok n ∧
                u.reader = .head (.fresh g.store)) ∨
              ∃ e, c.result = .error e ∧ u.reader = .ended (.error e))) ∧
      ∀ i x actions received ending, i + (placedIn log).length + 1 = t.exchanges.length →
        t.exchanges[i]? = some x → x.task = .running actions received ending →
        received.reverse <+: c.sink.written.toList ∧
          (x.body.dropped = false → ∀ most, x.body.fetch most = .ended →
            received.reverse = c.sink.written.toList) := by
  intro c
  obtain rfl : s' = g.enroll s request framing := enroll_of_step hs hr hstep
  have hs' := Reaches.step .reader hs hstep
  have hbears := bears_enroll g s request framing
  refine ⟨rfl, fun f => failure_of_copy, ?_, wellFounded_step g, fun log t hlogs => ?_⟩
  · cases hnone : framing.isNone with
    | true =>
      have hcopy : c = ⟨.ok 0, s.arrivals.toSource, .unlimited⟩ := Framing.copy_of_isNone hnone _ _
      rw [enroll_of_none request ((isNone_iff framing).mp hnone), hcopy]
      exact ⟨rfl, rfl, rfl⟩
    | false =>
      cases hbody : BodyState.ofFraming framing with
      | none =>
        rw [(isNone_iff framing).mpr hbody] at hnone
        cases hnone
      | some b =>
        rw [enroll_of_some request hbody]
        rfl
  · have ht := bears_of_logs hs' hbears hlogs
    have hreaches := hs'.trans (reaches_iff_logs.mpr ⟨log, hlogs⟩)
    refine ⟨fun hlog hcopying => ⟨failed_of_stuck hpipe hreaches hcopying, fun p u hp hu => ?_⟩, ?_⟩
    · rw [hlog] at ht
      exact leaves_of_step ht (sound_of_step hreaches hp) hcopying hp hu
    · intro i x actions received ending hi hx htask
      obtain ⟨hfront, hall⟩ := ht.draws i x hi hx _ _ _ htask
      refine ⟨hfront, fun hkept most hend => ?_⟩
      obtain ⟨hwhole, hclosed⟩ := hall hkept
      obtain ⟨hempty, hc⟩ := Pipe.fetch_ended hend
      rw [hempty, hclosed hc, List.append_nil, List.append_nil] at hwhole
      exact hwhole

/-- One party goes on, and what its step does is logged. -/
def logStep? (g : Engine) (r : List Event × State) (p : Party) : Option (List Event × State) :=
  (g.step? p r.2).map fun t => (r.1 ++ (event? p r.2 t).toList, t)

/-- The parties that go on, one after the other, lead somewhere, and leave a log. -/
theorem logs_of_foldlM {parties : List Party} {log log' : List Event} {u : State}
    (hlogs : Logs g s log t) (h : parties.foldlM g.logStep? (log, t) = some (log', u)) :
    Logs g s log' u := by
  induction parties generalizing log t with
  | nil =>
    cases h
    exact hlogs
  | cons p parties ih =>
    obtain ⟨r, hr, hrest⟩ := Option.bind_eq_some_iff.mp h
    obtain ⟨v, hv, rfl⟩ := Option.map_eq_some_iff.mp hr
    exact ih (.step p hlogs hv) hrest

/-- The steps of a body of three bytes in a pipe of one byte: the reader waits before the full pipe, the
    handler wakes up and drops its body unread, and the reader passes over the rest. -/
def overtaken : List Party := [.reader, .reader, .clock, .task 0, .task 0, .reader]

/-- The reader leaves a body that was dropped while it waited as if it had been copied. -/
theorem passes_as_copied_holding :
    ∃ (s s' t u : State) (request : Request) (framing : Framing) (log : List Event),
      Reaches holding crowded s ∧ s.reader = .offering request framing ∧
      holding.step? .reader s = some s' ∧ Logs holding s' log t ∧
      t.exchanges.any (·.body.dropped) = true ∧ holding.step? .reader t = some u ∧
      u.reader = .head (.fresh holding.store) ∧
      (framing.copy s.arrivals.toSource .unlimited).result = .ok 3 ∧
      u.arrivals.toSource = (framing.copy s.arrivals.toSource .unlimited).source := by
  have hruns : ((List.replicate 3 Party.reader).foldlM (fun s p => holding.step? p s) crowded).any
      (fun s => (holding.step? .reader s).any fun s' =>
        (overtaken.foldlM holding.logStep? ([], s')).any fun r =>
          (holding.step? .reader r.2).any fun u =>
            s.reader.offered.any (fun r =>
              (r.2.copy s.arrivals.toSource .unlimited).result.toOption == some 3) &&
            (placedIn r.1).isEmpty && r.2.reader.isCopying && r.2.exchanges.any (·.body.dropped) &&
            !u.reader.isCopying) = true := by
    decide +kernel
  obtain ⟨s, hs, hruns⟩ := (Option.any_eq_true _ _).mp hruns
  obtain ⟨s', hs', hruns⟩ := (Option.any_eq_true _ _).mp hruns
  obtain ⟨⟨log, t⟩, ht, hruns⟩ := (Option.any_eq_true _ _).mp hruns
  obtain ⟨u, hu, hruns⟩ := (Option.any_eq_true _ _).mp hruns
  simp only [Bool.and_eq_true, Bool.not_eq_true', List.isEmpty_iff] at hruns
  obtain ⟨⟨⟨⟨hcopied, hplaced⟩, hcopying⟩, hdropped⟩, hleft⟩ := hruns
  have hreaches := reaches_of_foldlM hs
  have hlogs : Logs holding s' log t := logs_of_foldlM .start ht
  obtain ⟨⟨request, framing⟩, hmem, hcopied⟩ := List.any_eq_true.mp hcopied
  have hr : s.reader = .offering request framing := by
    cases hreader : s.reader with
    | offering request' framing' =>
      rw [hreader] at hmem
      cases List.mem_singleton.mp hmem
      rfl
    | _ =>
      rw [hreader] at hmem
      cases hmem
  obtain ⟨-, -, -, -, hall⟩ := passes_as_copied holding _ _ (by decide) hreaches hr hs'
  obtain ⟨hsource, hend⟩ := ((hall log t hlogs).1 hplaced hcopying).2 .reader u hu hleft
  rcases hend with ⟨b, n, -, hok, hhead⟩ | ⟨e, herror, -⟩
  · rw [hok] at hcopied
    obtain rfl : n = 3 := Option.some.inj (beq_iff_eq.mp hcopied)
    exact ⟨s, s', t, u, request, framing, log, hreaches, hr, hs', hlogs, hdropped, hu, hhead, hok,
      hsource⟩
  · rw [herror] at hcopied
    cases hcopied

end Engine

end Sluice.Connection
