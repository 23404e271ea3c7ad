/-
  File:      Sluice/Proofs/Connection/Backlog.lean
  Subject:   How far the requests of a connection may run ahead of their responses.

  * `Event`, `Engine.event?`, `Logs`: what the steps of a connection do to its requests, logged as the
    run goes on; `reaches_iff_logs` says that every run has a log;
  * `enroll_of_started`, `ended_of_written`: what it takes that a handler is logged as started, and a
    response as sent;
  * `State.Backlog`: what was put into the queue is what was sent, at most one response that the writer
    holds, and what waits, in this order;
  * `State.Follows`: the handlers that were started, and the requests still to come, are those of the
    stream, in its order;
  * `started_of_logs`: each handler is started with its own number;
  * **`serve_bounded`**: the bounds, in every reachable state.
-/
import Sluice.Proofs.Connection.Refinement
import Sluice.Proofs.Connection.Requests

namespace Sluice.Connection

open Sluice.Http Sluice.Wire

/-! ## 1. Logs -/

/-- What happens to the requests of a connection: a head is read, and the request is accepted or
    rejected; a handler is started, or the refusal of a request gets its place in the queue; a response
    has been sent to its end, that of a handler or a refusal. -/
inductive Event where
  | parsed (request : Request) (framing : Framing)
  | rejected (e : MessageError)
  | started (request : Request) (framing : Framing)
  | refused
  | written (handled : Bool)

namespace Event

/-- The request that was accepted. -/
def parsed? : Event → Option (Request × Framing)
  | .parsed request framing => some (request, framing)
  | _ => none

/-- The request whose handler was started. -/
def started? : Event → Option (Request × Framing)
  | .started request framing => some (request, framing)
  | _ => none

/-- A request was rejected. -/
def isRejected : Event → Bool
  | .rejected _ => true
  | _ => false

/-- The response that was put into the queue: whether it is that of a handler. -/
def placed? : Event → Option Bool
  | .started _ _ => some true
  | .refused => some false
  | _ => none

/-- The response that was sent to its end: whether it is that of a handler. -/
def written? : Event → Option Bool
  | .written handled => some handled
  | _ => none

end Event

/-- The requests that were accepted, in order. -/
def parsedIn (log : List Event) : List (Request × Framing) := log.filterMap Event.parsed?

/-- The requests whose handlers were started, in order. -/
def startedIn (log : List Event) : List (Request × Framing) := log.filterMap Event.started?

/-- How many requests were rejected. -/
def rejectedIn (log : List Event) : Nat := log.countP Event.isRejected

/-- The responses that were put into the queue, in order: whether they are those of handlers. -/
def placedIn (log : List Event) : List Bool := log.filterMap Event.placed?

/-- The responses that were sent to their end, in order: whether they are those of handlers. -/
def writtenIn (log : List Event) : List Bool := log.filterMap Event.written?

/-- How many handlers had their response sent to its end. -/
def answeredIn (log : List Event) : Nat := (writtenIn log).count true

namespace Engine

/-- What a step does to the requests. -/
def event? (p : Party) (s t : State) : Option Event :=
  match p with
  | .reader =>
    match s.reader, t.reader with
    | .head _, .offering request framing => some (.parsed request framing)
    | .head _, .refusing e _ => some (.rejected e)
    | .offering request framing, .head _ => some (.started request framing)
    | .offering request framing, .copying _ _ _ => some (.started request framing)
    | .refusing _ _, .answering _ _ => some .refused
    | _, _ => none
  | .writer =>
    match s.writer, t.writer with
    | .sending _, .waiting => (handled s.exchanges)[s.taken - 1]?.map .written
    | _, _ => none
  | .task _ | .clock => none

/-- **What comes of a connection** by steps in any order, with the log of what they did to the
    requests. -/
inductive Logs (g : Engine) (s : State) : List Event → State → Prop where
  | start : Logs g s [] s
  | step {log : List Event} {t u : State} (p : Party) (h : Logs g s log t)
      (hstep : g.step? p t = some u) : Logs g s (log ++ (event? p t u).toList) u

variable {g : Engine} {s t : State} {log : List Event} {source : Source}

/-- **Every run has a log.** -/
theorem reaches_iff_logs : Reaches g s t ↔ ∃ log, Logs g s log t := by
  constructor
  · intro h
    induction h with
    | refl => exact ⟨[], .start⟩
    | step p _ hstep ih =>
      obtain ⟨log, hlog⟩ := ih
      exact ⟨_, .step p hlog hstep⟩
  · rintro ⟨log, h⟩
    induction h with
    | start => exact .refl s
    | step p _ hstep ih => exact .step p ih hstep

/-- One handler was started for each of its responses that was put into the queue. -/
theorem count_placedIn (log : List Event) : (placedIn log).count true = (startedIn log).length := by
  unfold placedIn startedIn
  induction log with
  | nil => rfl
  | cons e log ih =>
    cases e with
    | started request framing =>
      show (true :: log.filterMap Event.placed?).count true =
        ((request, framing) :: log.filterMap Event.started?).length
      rw [List.count_cons_self, ih, List.length_cons]
    | refused =>
      show (false :: log.filterMap Event.placed?).count true = _
      rw [List.count_cons_of_ne (by decide)]
      exact ih
    | _ => exact ih

/-! ## 2. The events of a reader -/

end Engine

/-- The request that a reader has in hand. -/
def Reader.offered : Reader → List (Request × Framing)
  | .offering request framing => [(request, framing)]
  | _ => []

/-- The reader will come to no further request. -/
def Reader.isOver : Reader → Bool
  | .refusing _ _ | .answering _ _ | .ended _ => true
  | _ => false

namespace Engine

variable {g : Engine} {s t : State} {log : List Event} {source : Source}

/-- What is logged of a head that is read: the request that the reader then has in hand, or that it
    was rejected. -/
theorem event_of_head {h : HeadState RequestLine} (hr : s.reader = .head h) :
    (event? .reader s t).toList = t.reader.offered.map (fun r => .parsed r.1 r.2) ∨
      ∃ e, (event? .reader s t).toList = [.rejected e] ∧ t.reader.offered = [] ∧
        t.reader.isOver = true := by
  unfold event?
  rw [hr]
  cases t.reader with
  | refusing e status => exact .inr ⟨e, rfl, rfl, rfl⟩
  | _ => exact .inl rfl

/-- Nothing is logged of a body that is passed on, nor of a refusal. -/
theorem event_of_busy (hr : s.reader.isCopying = true ∨ s.reader.isAnswering = true) :
    event? .reader s t = none := by
  unfold event?
  cases hs : s.reader with
  | copying b left total | answering e left | ended result => rfl
  | _ =>
    rw [hs] at hr
    rcases hr with h | h <;> cases h

/-- What is logged of a request that gets its place. -/
theorem event_of_enroll {request : Request} {framing : Framing}
    (hr : s.reader = .offering request framing) :
    event? .reader s (g.enroll s request framing) = some (.started request framing) := by
  unfold event?
  rw [hr]
  cases hbody : BodyState.ofFraming framing with
  | none => rw [enroll_of_none request hbody]
  | some b => rw [enroll_of_some request hbody]

/-- **A handler is logged as started** when the request in hand gets its place, and it runs from
    there. -/
theorem enroll_of_started {request : Request} {framing : Framing} (h : Reads g s t)
    (he : event? .reader s t = some (.started request framing)) :
    s.reader = .offering request framing ∧ t = g.enroll s request framing := by
  cases h with
  | @start request' framing' hr hplace =>
    rw [event_of_enroll hr] at he
    cases he
    exact ⟨hr, rfl⟩
  | @head head r hr _ =>
    unfold event? at he
    rw [hr] at he
    cases hn : (g.readHead s head r).reader <;> rw [hn] at he <;> cases he
  | refuse hr _ =>
    unfold event? at he
    rw [hr] at he
    cases he
  | answer hr _ =>
    rw [event_of_busy (.inr (by rw [hr]; rfl))] at he
    cases he
  | passOn hr _ | behind hr | body hr _ =>
    rw [event_of_busy (.inl (by rw [hr]; rfl))] at he
    cases he

/-- What is logged of a refusal that gets its place. -/
theorem event_of_refuse {e : MessageError} {status : Nat} {left : List UInt8} {x : Exchange}
    (hr : s.reader = .refusing e status) :
    event? .reader s { s.enqueue x with reader := .answering e left } = some .refused := by
  unfold event?
  rw [hr]

/-! ## 3. The queue -/

end Engine

/-- The response that the writer holds: it has taken it, and not sent it to its end. -/
def State.Holds (s : State) (held : List Bool) : Prop :=
  match s.writer with
  | .waiting => held = []
  | .sending _ => 0 < s.taken ∧ held = (handled s.exchanges)[s.taken - 1]?.toList
  | .ended _ => held.length ≤ 1

theorem State.Holds.length_le {s : State} {held : List Bool} (h : s.Holds held) :
    held.length ≤ 1 := by
  unfold State.Holds at h
  split at h
  · rw [h]
    exact Nat.zero_le 1
  · rw [h.2]
    exact Option.length_toList_le
  · exact h

/-- **What was put into the queue** is what was sent, what the writer holds, and what waits, in this
    order; and no more waits than the queue has places. -/
structure State.Backlog (g : Engine) (s : State) (log : List Event) : Prop where
  taken : s.taken ≤ s.exchanges.length
  queued : s.queued ≤ g.config.queueSize
  order : ∃ held, s.Holds held ∧
    placedIn log = writtenIn log ++ held ++ (handled s.exchanges).drop s.taken

namespace Engine

variable {g : Engine} {s t : State} {log : List Event} {source : Source}

theorem placedIn_append (log more : List Event) :
    placedIn (log ++ more) = placedIn log ++ placedIn more := List.filterMap_append ..

theorem writtenIn_append (log more : List Event) :
    writtenIn (log ++ more) = writtenIn log ++ writtenIn more := List.filterMap_append ..

/-- Where nothing is put into the queue and nothing is sent to its end. -/
theorem backlog_of_same (h : s.Backlog g log) (hholds : ∀ held, s.Holds held → t.Holds held)
    (htaken : t.taken = s.taken) (hhandled : handled t.exchanges = handled s.exchanges)
    {more : List Event} (hmore : placedIn more = [] ∧ writtenIn more = []) :
    t.Backlog g (log ++ more) := by
  have hlen : t.exchanges.length = s.exchanges.length := by
    rw [← length_handled, hhandled, length_handled]
  obtain ⟨held, hheld, horder⟩ := h.order
  refine ⟨?_, ?_, held, hholds held hheld, ?_⟩
  · rw [htaken, hlen]
    exact h.taken
  · unfold State.queued
    rw [htaken, hlen]
    exact h.queued
  · rw [placedIn_append, writtenIn_append, hmore.1, hmore.2, htaken, hhandled, List.append_nil,
      List.append_nil]
    exact horder

/-- A writer that is where it was holds what it held. -/
theorem holds_of_same (hwriter : t.writer = s.writer) (htaken : t.taken = s.taken)
    (hhandled : handled t.exchanges = handled s.exchanges) (held : List Bool) (h : s.Holds held) :
    t.Holds held := by
  unfold State.Holds
  rw [hwriter, htaken, hhandled]
  exact h

/-- Where the writer and what it has taken are as they were. -/
theorem backlog_of_apart (h : s.Backlog g log) (hwriter : t.writer = s.writer)
    (htaken : t.taken = s.taken) (hhandled : handled t.exchanges = handled s.exchanges)
    {more : List Event} (hmore : placedIn more = [] ∧ writtenIn more = []) :
    t.Backlog g (log ++ more) :=
  backlog_of_same h (holds_of_same hwriter htaken hhandled) htaken hhandled hmore

/-- A new exchange comes behind those that are not past. -/
theorem handled_enqueue (s : State) (x : Exchange) :
    handled (s.enqueue x).exchanges = (handled s.exchanges).drop s.past ++ handled [x] := by
  show handled (s.exchanges.drop s.past ++ [x]) = _
  unfold handled
  rw [List.map_append, List.map_drop]

/-- The writer holds what it held, also where those that are past are forgotten. -/
theorem holds_enqueue {held : List Bool} (htaken : s.taken ≤ s.exchanges.length) (h : s.Holds held)
    (x : Exchange) : (s.enqueue x).Holds held := by
  have hhandled := handled_enqueue s x
  unfold State.Holds at h ⊢
  show match s.writer with
    | .waiting => held = []
    | .sending _ => 0 < s.taken - s.past ∧
        held = (handled (s.enqueue x).exchanges)[s.taken - s.past - 1]?.toList
    | .ended _ => held.length ≤ 1
  split at h
  · exact h
  · rename_i left hw
    -- the exchange that the writer sends comes to the first place
    have hpast : s.past = s.taken - 1 := by
      unfold State.past
      rw [hw]
    obtain ⟨hpos, hheld⟩ := h
    have hin : s.taken - s.past - 1 < ((handled s.exchanges).drop s.past).length := by
      rw [List.length_drop, length_handled]
      omega
    refine ⟨by omega, ?_⟩
    rw [hhandled, List.getElem?_append_left hin, List.getElem?_drop,
      show s.past + (s.taken - s.past - 1) = s.taken - 1 by omega]
    exact hheld
  · exact h

/-- **A response put into the queue**, where there is a place for it. -/
theorem backlog_enqueue (h : s.Backlog g log) (hplace : g.hasPlace s = true) {x : Exchange}
    (r : Reader) (n : Nat) {e : Event} (hplaced : placedIn [e] = handled [x])
    (hwritten : writtenIn [e] = []) :
    State.Backlog g { s.enqueue x with reader := r, started := n } (log ++ [e]) := by
  have hlt : s.queued < g.config.queueSize := of_decide_eq_true hplace
  have htaken := h.taken
  have hpast := past_le_taken s
  have hlen : (s.enqueue x).exchanges.length = s.exchanges.length - s.past + 1 := by
    show (s.exchanges.drop s.past ++ [x]).length = _
    rw [List.length_append, List.length_drop, List.length_singleton]
  have hdrop : (handled (s.enqueue x).exchanges).drop (s.taken - s.past) =
      (handled s.exchanges).drop s.taken ++ handled [x] := by
    rw [handled_enqueue, List.drop_append_of_le_length
      (by rw [List.length_drop, length_handled]; omega), List.drop_drop,
      show s.past + (s.taken - s.past) = s.taken by omega]
  obtain ⟨held, hheld, horder⟩ := h.order
  refine ⟨?_, ?_, held, holds_enqueue htaken hheld x, ?_⟩
  · show s.taken - s.past ≤ (s.enqueue x).exchanges.length
    omega
  · show (s.enqueue x).exchanges.length - (s.taken - s.past) ≤ _
    unfold State.queued at hlt
    omega
  · show _ = _ ++ held ++ (handled (s.enqueue x).exchanges).drop (s.taken - s.past)
    rw [placedIn_append, writtenIn_append, hplaced, hwritten, horder, hdrop, List.append_nil,
      List.append_assoc]

/-- **A step of the reader** keeps the order of the queue. -/
theorem backlog_reads (h : s.Backlog g log) (hr : Reads g s t) :
    t.Backlog g (log ++ (event? .reader s t).toList) := by
  cases hr with
  | @head head r hr ha =>
    obtain ⟨hexchanges, htaken, -, hwriter, -⟩ := frame_readHead g s head r
    refine backlog_of_apart h hwriter htaken (congrArg handled hexchanges) ?_
    rcases event_of_head (t := g.readHead s head r) hr with hev | ⟨e, hev, _, _⟩
    · rw [hev]
      cases (g.readHead s head r).reader <;> exact ⟨rfl, rfl⟩
    · rw [hev]
      exact ⟨rfl, rfl⟩
  | @start request framing hr hplace =>
    rw [event_of_enroll hr]
    exact backlog_enqueue h hplace _ _ rfl rfl
  | @refuse e status hr hplace =>
    rw [event_of_refuse hr]
    exact backlog_enqueue h hplace _ _ rfl rfl
  | answer hr h' =>
    obtain ⟨_, _, _, hhandled, ht⟩ := of_answer? h'
    rw [event_of_busy (.inr (by rw [hr]; rfl))]
    exact backlog_of_apart h (by rw [ht]) (by rw [ht]) (by rw [ht]; exact hhandled) ⟨rfl, rfl⟩
  | passOn hr h' =>
    obtain ⟨_, _, hhandled, ht⟩ := of_passOn? h'
    rw [event_of_busy (.inl (by rw [hr]; rfl))]
    exact backlog_of_apart h (by rw [ht]) (by rw [ht]) (by rw [ht]; exact hhandled) ⟨rfl, rfl⟩
  | behind hr =>
    obtain ⟨hwriter, htaken, hhandled⟩ := frame_endBody s (.head (.fresh g.store))
    rw [event_of_busy (.inl (by rw [hr]; rfl))]
    exact backlog_of_apart h hwriter htaken hhandled ⟨rfl, rfl⟩
  | @body b r hr ha =>
    obtain ⟨hwriter, htaken, hhandled⟩ := frame_readBody s b r
    rw [event_of_busy (.inl (by rw [hr]; rfl))]
    exact backlog_of_apart h hwriter htaken hhandled ⟨rfl, rfl⟩

/-- Nothing is logged of a writer that waits. -/
theorem event_of_waiting (hw : s.writer = .waiting) : event? .writer s t = none := by
  unfold event?
  rw [hw]

/-- Nothing is logged of a response that is not at its end. -/
theorem event_of_sending {left : List UInt8} (hw : s.writer = .sending left)
    (ht : t.writer ≠ .waiting) : event? .writer s t = none := by
  unfold event?
  rw [hw]
  cases hwriter : t.writer <;> first | rfl | exact absurd hwriter ht

/-- What is logged of a response that comes to its end. -/
theorem event_of_finish {x : Exchange} (hw : s.writer = .sending [])
    (hx : s.exchanges[s.taken - 1]? = some x) :
    event? .writer s { s with writer := .waiting } = some (.written (!x.task.isNobody)) := by
  unfold event? handled
  rw [hw, List.getElem?_map, hx]
  rfl

/-- **A response is logged as sent** when all that was put into its pipe is, and no more is to come. -/
theorem ended_of_written {b : Bool} (hw : Writes s t) (h : event? .writer s t = some (.written b)) :
    s.writer = .sending [] ∧ ∃ x, s.exchanges[s.taken - 1]? = some x ∧ b = !x.task.isNobody ∧
      x.response.fetch fetchSize = .ended := by
  have hquiet : ∀ left, s.writer = .sending left → t.writer ≠ .waiting →
      event? .writer s t = none := fun _ => event_of_sending
  cases hw with
  | take hw | close hw =>
    rw [event_of_waiting hw] at h
    cases h
  | @finish x hw hx hend =>
    rw [event_of_finish hw hx] at h
    cases h
    exact ⟨hw, x, hx, rfl, hend⟩
  | fetch hw | send hw | fail hw =>
    rw [hquiet _ hw nofun] at h
    cases h

/-- **A step of the writer** keeps the order of the queue. -/
theorem backlog_writes (h : s.Backlog g log) (hw : Writes s t) :
    t.Backlog g (log ++ (event? .writer s t).toList) := by
  have hquiet : ∀ left, s.writer = .sending left → t.writer ≠ .waiting →
      event? .writer s t = none := fun _ => event_of_sending
  cases hw with
  | take hw hlt =>
    obtain ⟨held, hheld, horder⟩ := h.order
    unfold State.Holds at hheld
    rw [hw] at hheld
    rw [event_of_waiting hw, Option.toList_none, List.append_nil]
    refine ⟨hlt, Nat.le_trans (Nat.sub_le_sub_left (Nat.le_succ _) _) h.queued, _,
      ⟨Nat.succ_pos _, rfl⟩, ?_⟩
    rw [horder, show held = [] from hheld, List.append_nil, List.append_assoc]
    exact congrArg _ (List.drop_eq_getElem?_toList_append)
  | @finish x hw hx hend =>
    obtain ⟨held, hheld, horder⟩ := h.order
    unfold State.Holds at hheld
    rw [hw] at hheld
    rw [event_of_finish hw hx]
    refine ⟨h.taken, h.queued, [], rfl, ?_⟩
    have hheld' : held = [!x.task.isNobody] := by
      rw [hheld.2]
      unfold handled
      rw [List.getElem?_map, hx]
      rfl
    have hevents : placedIn [.written (!x.task.isNobody)] = [] ∧
        writtenIn [.written (!x.task.isNobody)] = held := ⟨rfl, hheld'.symm⟩
    rw [Option.toList_some, placedIn_append, writtenIn_append, hevents.1, hevents.2, horder,
      List.append_nil, List.append_nil]
  | @fetch x bytes response hw hx hfetch =>
    rw [hquiet [] hw nofun]
    have hhandled : handled (s.exchanges.set (s.taken - 1) { x with response }) =
        handled s.exchanges := handled_set hx rfl
    refine backlog_of_same h ?_ ?_ hhandled ⟨rfl, rfl⟩
    · intro held hheld
      unfold State.Holds at hheld
      rw [hw] at hheld
      exact ⟨hheld.1, by rw [hhandled]; exact hheld.2⟩
    · rfl
  | send hw hwrite =>
    rw [hquiet _ hw nofun]
    refine backlog_of_same h ?_ ?_ ?_ ⟨rfl, rfl⟩
    · intro held hheld
      unfold State.Holds at hheld
      rw [hw] at hheld
      exact hheld
    · rfl
    · rfl
  | fail hw hfails =>
    rw [hquiet _ hw nofun]
    refine backlog_of_same h ?_ ?_ ?_ ⟨rfl, rfl⟩
    · exact fun held hheld => hheld.length_le
    · rfl
    · rfl
  | close hw htaken hr =>
    rw [event_of_waiting hw]
    refine backlog_of_same h ?_ ?_ ?_ ⟨rfl, rfl⟩
    · exact fun held hheld => hheld.length_le
    · rfl
    · rfl

/-- **Every step** keeps the order of the queue. -/
theorem backlog_step {p : Party} (h : s.Backlog g log) (hs : s.Sound g)
    (hstep : g.step? p s = some t) : t.Backlog g (log ++ (event? p s t).toList) := by
  have hrests : s.Rests t → t.Backlog g (log ++ []) := fun hr =>
    backlog_of_apart h hr.writer hr.taken hr.handled ⟨rfl, rfl⟩
  cases (steps_of_step? hstep).2 with
  | reader hr => exact backlog_reads h (reads_of_reader? hs hr)
  | writer hw => exact backlog_writes h (writes_of_writer? hw)
  | task ht => exact hrests (rests_task ht)
  | clock hc => exact hrests (rests_clock hc)

/-! ## 4. The stream -/

end Engine

/-- **The handlers that were started**, and counted, are those of the first requests of the stream:
    those that were accepted are the same but for the one that the reader has in hand, those to come
    follow, and at most one request was rejected, behind which none comes. -/
structure State.Follows (g : Engine) (source : Source) (s : State) (log : List Event) : Prop where
  number : s.started = (startedIn log).length
  parsed : parsedIn log = startedIn log ++ s.reader.offered
  requests : startedIn log ++ g.coming s.arrivals.toSource s.reader = g.requests source
  rejected : rejectedIn log ≤ 1
  last : 0 < rejectedIn log → s.reader.isOver = true

namespace Engine

variable {g : Engine} {s t : State} {log : List Event} {source : Source}

/-- Behind its last request a reader has none in hand, and comes to none. -/
theorem of_isOver (g : Engine) (source : Source) {r : Reader} (h : r.isOver = true) :
    r.offered = [] ∧ g.coming source r = [] := by
  cases r <;> first | exact ⟨rfl, rfl⟩ | cases h

theorem parsedIn_append (log more : List Event) :
    parsedIn (log ++ more) = parsedIn log ++ parsedIn more := List.filterMap_append ..

theorem startedIn_append (log more : List Event) :
    startedIn (log ++ more) = startedIn log ++ startedIn more := List.filterMap_append ..

theorem rejectedIn_append (log more : List Event) :
    rejectedIn (log ++ more) = rejectedIn log + rejectedIn more := List.countP_append

/-- Where no request is accepted, rejected or started. -/
theorem follows_of_quiet (h : s.Follows g source log) {more : List Event}
    (hmore : parsedIn more = [] ∧ startedIn more = [] ∧ rejectedIn more = 0)
    (hnumber : t.started = s.started) (hoffered : t.reader.offered = s.reader.offered)
    (hcoming : g.coming t.arrivals.toSource t.reader = g.coming s.arrivals.toSource s.reader)
    (hover : s.reader.isOver = true → t.reader.isOver = true) :
    t.Follows g source (log ++ more) := by
  obtain ⟨hparsed, hstarted, hrejected⟩ := hmore
  refine ⟨?_, ?_, ?_, ?_, ?_⟩
  · rw [startedIn_append, hstarted, List.append_nil, hnumber]
    exact h.number
  · rw [parsedIn_append, startedIn_append, hparsed, hstarted, List.append_nil, List.append_nil,
      hoffered]
    exact h.parsed
  · rw [startedIn_append, hstarted, List.append_nil, hcoming]
    exact h.requests
  · rw [rejectedIn_append, hrejected]
    exact h.rejected
  · rw [rejectedIn_append, hrejected]
    exact fun hr => hover (h.last hr)

/-- **A head that is read**: the reader has its request in hand, or the request was rejected. -/
theorem follows_head {head : HeadState RequestLine} {r : Except Failure (List UInt8)}
    (h : s.Follows g source log) (hr : s.reader = .head head) (ha : s.arrivals.available = some r) :
    (g.readHead s head r).Follows g source
      (log ++ (event? .reader s (g.readHead s head r)).toList) := by
  have hcoming := coming_readHead (g := g) (h := head) ha
  obtain ⟨-, -, hnumber, -⟩ := frame_readHead g s head r
  have hnone : rejectedIn log = 0 := by
    refine Nat.eq_zero_of_not_pos fun hpos => ?_
    have hover := h.last hpos
    rw [hr] at hover
    cases hover
  have hparsed := h.parsed
  have hrequests := h.requests
  rw [hr] at hparsed hrequests
  change parsedIn log = startedIn log ++ [] at hparsed
  change startedIn log ++ g.requestsOn head _ = _ at hrequests
  generalize g.readHead s head r = t at hcoming hnumber ⊢
  have hevents : startedIn (event? .reader s t).toList = [] ∧
      parsedIn (event? .reader s t).toList = t.reader.offered ∧
      rejectedIn (event? .reader s t).toList ≤ 1 ∧
      (0 < rejectedIn (event? .reader s t).toList → t.reader.isOver = true) := by
    rcases event_of_head (t := t) hr with hev | ⟨e, hev, hoffered, hover⟩
    · rw [hev]
      cases t.reader <;> exact ⟨rfl, rfl, Nat.zero_le 1, nofun⟩
    · rw [hev, hoffered]
      exact ⟨rfl, rfl, Nat.le_refl 1, fun _ => hover⟩
  obtain ⟨hstarted', hparsed', hrejected', hover'⟩ := hevents
  refine ⟨?_, ?_, ?_, ?_, ?_⟩
  · rw [startedIn_append, hstarted', List.append_nil, hnumber]
    exact h.number
  · rw [parsedIn_append, startedIn_append, hstarted', hparsed', hparsed, List.append_nil]
  · rw [startedIn_append, hstarted', List.append_nil, hcoming]
    exact hrequests
  · rw [rejectedIn_append, hnone, Nat.zero_add]
    exact hrejected'
  · rw [rejectedIn_append, hnone, Nat.zero_add]
    exact hover'

/-- **The start of a handler**: it is that of the request that the reader has in hand. -/
theorem follows_start {request : Request} {framing : Framing} (h : s.Follows g source log)
    (hr : s.reader = .offering request framing) :
    (g.enroll s request framing).Follows g source (log ++ [.started request framing]) := by
  have hcoming := coming_enroll g s request framing
  have hoffered : (g.enroll s request framing).reader.offered = [] := by
    cases hbody : BodyState.ofFraming framing with
    | none => rw [enroll_of_none request hbody]; rfl
    | some b => rw [enroll_of_some request hbody]; rfl
  have hnone : ¬ 0 < rejectedIn log := by
    intro hpos
    have hover := h.last hpos
    rw [hr] at hover
    cases hover
  have hparsed := h.parsed
  have hrequests := h.requests
  rw [hr] at hparsed hrequests
  refine ⟨?_, ?_, ?_, ?_, ?_⟩
  · rw [startedIn_append, List.length_append, ← h.number]
    cases hbody : BodyState.ofFraming framing with
    | none => rw [enroll_of_none request hbody]; rfl
    | some b => rw [enroll_of_some request hbody]; rfl
  · rw [parsedIn_append, startedIn_append, hparsed, hoffered]
    simp [parsedIn, startedIn, Event.parsed?, Event.started?, Reader.offered]
  · rw [startedIn_append, ← hrequests, ← hcoming, List.append_assoc]
    rfl
  · rw [rejectedIn_append]
    exact h.rejected
  · rw [rejectedIn_append]
    exact fun hpos => absurd hpos hnone

/-- **A step of the reader** keeps to the stream. -/
theorem follows_reads (h : s.Follows g source log) (hs : s.Sound g) (hstep : Reads g s t) :
    t.Follows g source (log ++ (event? .reader s t).toList) := by
  cases hstep with
  | head hr ha => exact follows_head h hr ha
  | start hr _ =>
    rw [event_of_enroll hr]
    exact follows_start h hr
  | @refuse e status hr _ =>
    rw [event_of_refuse hr]
    exact follows_of_quiet h ⟨rfl, rfl, rfl⟩ rfl (by rw [hr]; rfl) (by rw [hr]; rfl) fun _ => rfl
  | answer hr h' =>
    obtain ⟨reader, _, hover, _, ht⟩ := of_answer? h'
    have hover' : t.reader.isOver = true := by
      rw [ht]
      rcases hover with h | h <;> cases reader <;> first | rfl | cases h
    obtain ⟨hoffered, hcoming⟩ := of_isOver g t.arrivals.toSource hover'
    rw [event_of_busy (.inr (by rw [hr]; rfl))]
    exact follows_of_quiet h ⟨rfl, rfl, rfl⟩ (by rw [ht]) (by rw [hoffered, hr]; rfl)
      (by rw [hcoming, hr]; rfl) fun _ => hover'
  | @passOn b left total _ hr h' =>
    obtain ⟨left', _, _, ht⟩ := of_passOn? h'
    have hcoming : g.coming s.arrivals.toSource (.copying b left' total) =
        g.coming s.arrivals.toSource (.copying b left total) := by
      cases total <;> rfl
    rw [event_of_busy (.inl (by rw [hr]; rfl))]
    exact follows_of_quiet h ⟨rfl, rfl, rfl⟩ (by rw [ht]) (by rw [ht, hr]; rfl)
      (by rw [ht, hr]; exact hcoming) (by rw [hr]; nofun)
  | behind hr =>
    rw [event_of_busy (.inl (by rw [hr]; rfl))]
    refine follows_of_quiet h ⟨rfl, rfl, rfl⟩ rfl (by rw [hr]; rfl) ?_ (by rw [hr]; nofun)
    rw [hr]
    exact coming_fresh g s.arrivals.toSource
  | @body b r hr ha =>
    have hcoming := coming_readBody (g := g) (hs.going b [] hr) ha
    rw [event_of_busy (.inl (by rw [hr]; rfl))]
    refine follows_of_quiet h ⟨rfl, rfl, rfl⟩ (started_readBody s b r) ?_ ?_ (by rw [hr]; nofun)
    · rw [hr]
      unfold readBody
      split
      · rfl
      · split <;> rfl
      · dsimp only
        split <;> rfl
    · rw [hr]
      exact hcoming

/-- A step of the writer leaves the reader alone, and what is logged of it are no requests. -/
theorem reader_writes (h : Writes s t) : t.started = s.started ∧ t.reader = s.reader ∧
    t.arrivals = s.arrivals ∧ ∀ e ∈ event? .writer s t, ∃ handled, e = .written handled := by
  have hevent : ∀ e ∈ event? .writer s t, ∃ handled, e = .written handled := by
    unfold event?
    dsimp only
    split
    · intro e he
      obtain ⟨handled, _, rfl⟩ := Option.map_eq_some_iff.mp he
      exact ⟨handled, rfl⟩
    · nofun
  cases h <;> exact ⟨rfl, rfl, rfl, hevent⟩

/-- **Every step** keeps to the stream. -/
theorem follows_step {p : Party} (h : s.Follows g source log) (hs : s.Sound g)
    (hstep : g.step? p s = some t) : t.Follows g source (log ++ (event? p s t).toList) := by
  have hrests : s.Rests t → t.Follows g source (log ++ []) := fun hr =>
    follows_of_quiet h ⟨rfl, rfl, rfl⟩ hr.started (by rw [hr.reader]) (by rw [hr.source, hr.reader])
      (by rw [hr.reader]; exact id)
  cases (steps_of_step? hstep).2 with
  | reader hr => exact follows_reads h hs (reads_of_reader? hs hr)
  | writer hw =>
    obtain ⟨hnumber, hreader, harrivals, hevent⟩ := reader_writes (writes_of_writer? hw)
    refine follows_of_quiet h ?_ hnumber (by rw [hreader]) (by rw [hreader, harrivals])
      (by rw [hreader]; exact id)
    cases hev : event? .writer s t with
    | none => exact ⟨rfl, rfl, rfl⟩
    | some e =>
      obtain ⟨handled, rfl⟩ := hevent e hev
      exact ⟨rfl, rfl, rfl⟩
  | task ht => exact hrests (rests_task ht)
  | clock hc => exact hrests (rests_clock hc)

/-! ## 5. Runs -/

/-- **At every moment** the order of the queue and that of the stream are kept. -/
theorem kept_of_logs {arrivals : Arrivals} {sink : Sink}
    (h : Logs g (.start g arrivals sink) log s) :
    s.Backlog g log ∧ s.Follows g arrivals.toSource log := by
  induction h with
  | start =>
    refine ⟨⟨Nat.le_refl 0, Nat.zero_le _, [], rfl, rfl⟩, ⟨rfl, rfl, ?_, Nat.zero_le 1, nofun⟩⟩
    exact coming_fresh g arrivals.toSource
  | @step log s t p hlogs hstep ih =>
    have hs : s.Sound g := sound_of_step (reaches_iff_logs.mpr ⟨log, hlogs⟩) hstep
    exact ⟨backlog_step ih.1 hs hstep, follows_step ih.2 hs hstep⟩

/-- **Each handler is started with its own number**: the one that is to start next comes behind as many
    as the log has. -/
theorem started_of_logs {arrivals : Arrivals} {sink : Sink}
    (h : Logs g (.start g arrivals sink) log s) : s.started = (startedIn log).length :=
  (kept_of_logs h).2.number

/-- **A connection is served within bounds**, in every state that steps in any order lead to: with
    `c` places in the queue, at most `c + 1` handlers were started whose responses are not sent to
    their end, at most `c` responses wait, and at most one request was read, accepted or not, whose
    handler was not started. The handlers are started in the order of the requests in the stream, one
    for each that is accepted: for all of them once the reader is at its end. None is started for one
    that is rejected, behind which no request comes. -/
theorem serve_bounded (g : Engine) (arrivals : Arrivals) (sink : Sink) :
    (∀ s, Reaches g (.start g arrivals sink) s ↔ ∃ log, Logs g (.start g arrivals sink) log s) ∧
    ∀ log s, Logs g (.start g arrivals sink) log s →
      (startedIn log).length ≤ answeredIn log + (max 1 g.config.inFlight + 1) ∧
      s.queued ≤ max 1 g.config.inFlight ∧
      (∃ held, s.Holds held ∧ held.length ≤ 1 ∧
        placedIn log = writtenIn log ++ held ++ (handled s.exchanges).drop s.taken) ∧
      (parsedIn log).length + rejectedIn log ≤ (startedIn log).length + 1 ∧
      parsedIn log = startedIn log ++ s.reader.offered ∧
      parsedIn log <+: g.requests arrivals.toSource ∧
      (∀ request framing, (request, framing) ∈ parsedIn log → request.framing = .ok framing) ∧
      (0 < rejectedIn log ∨ s.readerEnded = true →
        parsedIn log = startedIn log ∧ startedIn log = g.requests arrivals.toSource) := by
  refine ⟨fun s => reaches_iff_logs, fun log s hlogs => ?_⟩
  obtain ⟨⟨_, hqueued, held, hheld, horder⟩, hfollows⟩ := kept_of_logs hlogs
  have hlength := hheld.length_le
  -- a request in hand is the first of those to come
  have hfirst : parsedIn log <+: g.requests arrivals.toSource := by
    rw [hfollows.parsed, ← hfollows.requests]
    refine List.prefix_append_right_inj _ |>.mpr ?_
    cases s.reader with
    | offering request framing => exact ⟨_, rfl⟩
    | _ => exact List.nil_prefix
  have hstarted : (startedIn log).length ≤ answeredIn log + (max 1 g.config.inFlight + 1) := by
    have hcount := count_placedIn log
    have hheld' := List.count_le_length (a := true) (l := held)
    have hwaiting := List.count_le_length (a := true) (l := (handled s.exchanges).drop s.taken)
    rw [horder, List.count_append, List.count_append] at hcount
    rw [List.length_drop, length_handled] at hwaiting
    change s.exchanges.length - s.taken ≤ max 1 g.config.inFlight at hqueued
    unfold answeredIn
    omega
  have hinhand : (parsedIn log).length + rejectedIn log ≤ (startedIn log).length + 1 := by
    rw [hfollows.parsed, List.length_append]
    have hrejected := hfollows.rejected
    rcases Nat.eq_zero_or_pos (rejectedIn log) with hnone | hpos
    · have hoffered : s.reader.offered.length ≤ 1 := by
        cases s.reader <;> first | exact Nat.le_refl 1 | exact Nat.zero_le 1
      omega
    · rw [(of_isOver g s.arrivals.toSource (hfollows.last hpos)).1,
        List.length_nil]
      omega
  refine ⟨hstarted, hqueued, ⟨held, hheld, hlength, horder⟩, hinhand, hfollows.parsed, hfirst, ?_,
    ?_⟩
  · intro request framing hmem
    exact framing_of_mem_requests (hfirst.subset hmem)
  · intro hend
    have hover : s.reader.isOver = true := by
      rcases hend with hpos | hended
      · exact hfollows.last hpos
      · unfold State.readerEnded at hended
        cases hr : s.reader <;> rw [hr] at hended <;> first | rfl | cases hended
    obtain ⟨hoffered, hcoming⟩ := of_isOver g s.arrivals.toSource hover
    refine ⟨?_, ?_⟩
    · rw [hfollows.parsed, hoffered, List.append_nil]
    · rw [← hfollows.requests, hcoming, List.append_nil]

/-- Two requests come at once, and the queue has one place. -/
theorem serve_bounded_echoing :
    let arrivals := .ofItems 64 [.bytes (Utf8.encode
      "POST / HTTP/1.1\nContent-Length: 3\n\nabcGET / HTTP/1.1\n\n".toList)] none
    let s := echoing.serve arrivals .unlimited
    ∃ log, Logs echoing (.start echoing arrivals .unlimited) log s ∧
      (startedIn log).length ≤ answeredIn log + 2 ∧ s.queued ≤ 1 ∧
      (parsedIn log).length ≤ (startedIn log).length + 1 := by
  intro arrivals s
  obtain ⟨log, hlogs⟩ := ((serve_bounded echoing arrivals .unlimited).1 s).mp (reaches_run _)
  obtain ⟨hstarted, hqueued, _, hinhand, _⟩ := (serve_bounded echoing arrivals .unlimited).2 log s hlogs
  exact ⟨log, hlogs, hstarted, hqueued, Nat.le_of_add_right_le hinhand⟩

end Engine

end Sluice.Connection
