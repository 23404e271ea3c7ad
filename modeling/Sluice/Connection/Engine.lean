/-
  File:      Sluice/Connection/Engine.lean
  Subject:   A connection that serves pipelined requests concurrently.

  One reader parses requests in turn. Each gets a place in the queue, a handler of its own, and its
  body through a pipe while the handler runs. One writer sends the responses in the order of the
  requests, whatever order the handlers finish in. All between them is bounded, and whoever finds
  a pipe full, a pipe empty or the queue full waits.

  * `Reader`, `Writer`, `State`: how far the parties are;
  * `Engine.reader?`, `writer?`, `task?`, `clock?`: one step of each, unless it has to wait;
  * `Engine.step?`, `Engine.Steps`: one step of the connection;
  * `State.result?`: how the connection ended.
-/
import Sluice.Connection.Arrivals
import Sluice.Connection.Config
import Sluice.Connection.Exchange
import Sluice.Http.Body

namespace Sluice.Connection

open Sluice.Http Sluice.Wire

/-- What a connection is served with. -/
structure Engine where
  config : Config
  store : Store
  handler : Handler

/-! ## 1. States -/

/-- How far the reader is: in a head; waiting for a place in the queue, for a request or for a
    refusal; writing a refusal; passing on a body, of which `left` is read and not yet passed on,
    and of which the `total` is known once all of it is read; or at its end. -/
inductive Reader where
  | head (s : HeadState RequestLine)
  | offering (request : Request) (framing : Framing)
  | refusing (e : MessageError) (status : Nat)
  | answering (e : MessageError) (left : List UInt8)
  | copying (s : BodyState) (left : List UInt8) (total : Option Nat)
  | ended (result : Except MessageError Unit)

/-- How far the writer is: waiting for the next exchange; sending the one it took last, of which
    `left` is fetched and not yet sent; or at its end. -/
inductive Writer where
  | waiting
  | sending (left : List UInt8)
  | ended (failure : Option Failure)
  deriving DecidableEq, Repr

/-- A connection at work. The exchanges are those of the requests so far, in their order, without
    those that were past when the last one began; the writer has taken the first `taken` of them.
    So far `started` handlers were started. -/
structure State where
  reader : Reader
  arrivals : Arrivals
  exchanges : List Exchange
  taken : Nat
  started : Nat
  writer : Writer
  sink : Sink

namespace State

/-- Before the first byte. -/
def start (g : Engine) (arrivals : Arrivals) (sink : Sink) : State :=
  ⟨.head (.fresh g.store), arrivals, [], 0, 0, .waiting, sink⟩

/-- How the connection ended, if it did. A writer that fails ends it at once; otherwise both have to
    come to their end, and the reader's error counts first. -/
def result? (s : State) : Option (Except ConnectionError Unit) :=
  match s.reader, s.writer with
  | .ended (.error e), .ended _ => some (.error (.request e))
  | _, .ended (some f) => some (.error (.response (.transport f)))
  | .ended (.ok ()), .ended none => some (.ok ())
  | _, _ => none

/-- The responses that wait for the writer. -/
def queued (s : State) : Nat := s.exchanges.length - s.taken

/-- How many exchanges are past: the writer has taken them, and is not sending their response. -/
def past (s : State) : Nat :=
  match s.writer with
  | .sending _ => s.taken - 1
  | .waiting | .ended _ => s.taken

/-- A new exchange behind the others; those that are past are forgotten. -/
def enqueue (s : State) (x : Exchange) : State :=
  { s with exchanges := s.exchanges.drop s.past ++ [x], taken := s.taken - s.past }

/-- The place of the exchange that the reader is at. -/
def current (s : State) : Nat := s.exchanges.length - 1

/-- The reader can go on only with bytes that are to come. -/
def reading (s : State) : Bool :=
  match s.reader with
  | .head _ => true
  | .copying _ left total => left.isEmpty && total.isNone
  | _ => false

/-- The writer is at its end. -/
def writerEnded (s : State) : Bool :=
  match s.writer with
  | .ended _ => true
  | _ => false

/-- The reader is at its end. -/
def readerEnded (s : State) : Bool :=
  match s.reader with
  | .ended _ => true
  | _ => false

end State

/-! ## 2. The reader -/

namespace Engine

/-- What the reader does with a faulty request: it is refused, or, if the transport failed, not
    answered at all. -/
def refuse (e : MessageError) : Reader :=
  match e.responseStatus? with
  | some status => .refusing e status
  | none => .ended (.error e)

/-- The body is at its end, complete or not: nothing more comes through its pipe. -/
def endBody (s : State) (reader : Reader) : State :=
  { s with
    reader
    exchanges := s.exchanges.modify s.current fun x => { x with body := x.body.close } }

/-- The reader in a head, with what can be read now. -/
def readHead (g : Engine) (s : State) (h : HeadState RequestLine) :
    Except Failure (List UInt8) → State
  | .error f => { s with reader := .ended (.error (.transport f)) }
  | .ok [] =>
    match h.atEnd with
    | .error e => { s with reader := refuse e }
    | .ok _ => { s with reader := .ended (.ok ()) }
  | .ok (b :: bs) =>
    let step := (headFeeder RequestLine.ofText g.store).feed h (b :: bs)
    let arrivals := s.arrivals.consume step.consumed
    match step.verdict with
    | .fault e => { s with reader := refuse e, arrivals }
    | .more => { s with reader := .head step.next, arrivals }
    | .done none => { s with reader := .ended (.ok ()), arrivals }
    | .done (some head) =>
      let request := Request.ofHead head
      match request.framing with
      | .error e => { s with reader := refuse e, arrivals }
      | .ok framing => { s with reader := .offering request framing, arrivals }

/-- The reader with a request, once there is a place in the queue: the handler starts, and the body
    follows through a pipe if there is one. -/
def enroll (g : Engine) (s : State) (request : Request) (framing : Framing) : State :=
  let conduct := g.handler s.started request (!framing.isNone)
  let pipe := if framing.isNone then .nothing else .ofCapacity g.config.pipeSize
  let reader :=
    match framing.isNone, BodyState.ofFraming framing with
    | false, some body => .copying body [] none
    | _, _ => .head (.fresh g.store)
  { s.enqueue (.start conduct pipe g.config.pipeSize) with reader, started := s.started + 1 }

/-- The reader in a body, with what can be read now. -/
def readBody (s : State) (b : BodyState) : Except Failure (List UInt8) → State
  | .error f => endBody s (.ended (.error (.transport f)))
  | .ok [] =>
    match b.atEnd with
    | .error e => endBody s (.ended (.error e))
    | .ok total => { s with reader := .copying b [] (some total) }
  | .ok (x :: xs) =>
    let step := bodyFeeder.feed b (x :: xs)
    let arrivals := s.arrivals.consume step.consumed
    match step.verdict with
    | .fault e => endBody { s with arrivals } (.ended (.error e))
    | .more => { s with reader := .copying step.next step.output none, arrivals }
    | .done total => { s with reader := .copying step.next step.output (some total), arrivals }

/-- The reader passes on what it has of a body. Once the handler has dropped the body, all of it is
    passed over. -/
def passOn? (s : State) (b : BodyState) (left : List UInt8) (total : Option Nat) : Option State :=
  match s.exchanges[s.current]? with
  | none => none
  | some x =>
    match x.body.write left with
    | .blocked => none
    | .broken => some { s with reader := .copying b [] total }
    | .accepted n body =>
      some { s with
        reader := .copying b (left.drop n) total
        exchanges := s.exchanges.set s.current { x with body } }

/-- The reader writes a refusal. -/
def answer? (s : State) (e : MessageError) (left : List UInt8) : Option State :=
  match s.exchanges[s.current]? with
  | none => none
  | some x =>
    match left with
    | [] =>
      some { s with
        reader := .ended (.error e)
        exchanges := s.exchanges.set s.current { x with response := x.response.close } }
    | b :: bs =>
      match x.response.write (b :: bs) with
      | .blocked => none
      | .broken => some { s with reader := .ended (.error e) }
      | .accepted n response =>
        some { s with
          reader := .answering e ((b :: bs).drop n)
          exchanges := s.exchanges.set s.current { x with response } }

/-- The queue has a place, or no writer any more. -/
def hasPlace (g : Engine) (s : State) : Bool := s.queued < g.config.queueSize

/-- One step of the reader. A queue whose writer is gone takes nothing: a request is dropped, and
    a refusal is not sent. -/
def reader? (g : Engine) (s : State) : Option State :=
  match s.reader with
  | .head h => s.arrivals.available.map (g.readHead s h)
  | .offering request framing =>
    if s.writerEnded then some { s with reader := .ended (.ok ()) }
    else if g.hasPlace s then some (g.enroll s request framing)
    else none
  | .refusing e status =>
    if s.writerEnded then some { s with reader := .ended (.error e) }
    else if g.hasPlace s then
      some { s.enqueue (.refusal g.config.pipeSize) with
        reader := .answering e (Reply.ofStatus status).bytes }
    else none
  | .answering e left => answer? s e left
  | .copying b (x :: xs) total => passOn? s b (x :: xs) total
  | .copying _ [] (some _) => some (endBody s (.head (.fresh g.store)))
  | .copying b [] none => s.arrivals.available.map (readBody s b)
  | .ended _ => none

/-! ## 3. The writer, the tasks and the clock -/

/-- The most bytes that the writer fetches at a time. -/
def fetchSize : Nat := 8192

/-- The failure of a writer whose output takes nothing. -/
def nothingTaken : Failure := .other "write zero byte into writer"

/-- One step of the writer: it takes the next exchange, fetches some of its response, and sends
    what it fetched, one write at a time. When no more exchanges come it ends the output. -/
def writer? (s : State) : Option State :=
  match s.writer with
  | .ended _ => none
  | .waiting =>
    if s.taken < s.exchanges.length then
      some { s with writer := .sending [], taken := s.taken + 1 }
    else if s.readerEnded then
      let (failure, sink) := s.sink.shutdown
      some { s with writer := .ended failure, sink }
    else none
  | .sending [] =>
    match s.exchanges[s.taken - 1]? with
    | none => none
    | some x =>
      match x.response.fetch fetchSize with
      | .blocked => none
      | .ended => some { s with writer := .waiting }
      | .data bytes response =>
        some { s with
          writer := .sending bytes
          exchanges := s.exchanges.set (s.taken - 1) { x with response } }
  | .sending (b :: bs) =>
    match s.sink.write (b :: bs) with
    | .error f => some { s with writer := .ended (some f) }
    | .ok (0, sink) => some { s with writer := .ended (some nothingTaken), sink }
    | .ok (n + 1, sink) => some { s with writer := .sending (bs.drop n), sink }

/-- One step of the task at a place. -/
def task? (s : State) (i : Nat) : Option State :=
  match s.exchanges[i]? with
  | none => none
  | some x => x.step?.map fun x => { s with exchanges := s.exchanges.set i x }

/-- How long each party that waits for the time still has to wait. -/
def waits (s : State) : List Nat :=
  (if s.reading then [s.arrivals.wait] else []) ++ s.exchanges.map (·.asleep)

/-- The time until the first wait is over. -/
def nextWait? (s : State) : Option Nat := ((waits s).filter (0 < ·)).min?

/-- Time passes until the first wait is over. -/
def clock? (s : State) : Option State :=
  match nextWait? s with
  | none => none
  | some ms =>
    some { s with
      arrivals := if s.reading then s.arrivals.elapse ms else s.arrivals
      exchanges := s.exchanges.map (·.elapse ms) }

theorem of_task? {s t : State} {i : Nat} (h : task? s i = some t) :
    ∃ x y, s.exchanges[i]? = some x ∧ x.step? = some y ∧
      t = { s with exchanges := s.exchanges.set i y } := by
  unfold task? at h
  split at h
  · cases h
  · rename_i x hx
    obtain ⟨y, hy, rfl⟩ := Option.map_eq_some_iff.mp h
    exact ⟨x, y, hx, hy, rfl⟩

theorem of_clock? {s t : State} (h : clock? s = some t) :
    ∃ ms, nextWait? s = some ms ∧ t = { s with
      arrivals := if s.reading then s.arrivals.elapse ms else s.arrivals
      exchanges := s.exchanges.map (·.elapse ms) } := by
  unfold clock? at h
  split at h
  · cases h
  · exact ⟨_, ‹_›, (Option.some.inj h).symm⟩

/-! ## 4. The connection -/

/-- Who takes a step. -/
inductive Party where
  | reader
  | writer
  | task (i : Nat)
  | clock
  deriving DecidableEq, Repr

/-- One step of a connection that has not ended. -/
def step? (g : Engine) (p : Party) (s : State) : Option State :=
  if s.result?.isSome then none
  else
    match p with
    | .reader => g.reader? s
    | .writer => writer? s
    | .task i => task? s i
    | .clock => clock? s

/-- Whose step it is. -/
inductive Steps (g : Engine) (s t : State) : Party → Prop where
  | reader (h : g.reader? s = some t) : Steps g s t .reader
  | writer (h : writer? s = some t) : Steps g s t .writer
  | task {i : Nat} (h : task? s i = some t) : Steps g s t (.task i)
  | clock (h : clock? s = some t) : Steps g s t .clock

/-- A connection takes steps as long as it has not ended. -/
theorem steps_of_step? {g : Engine} {p : Party} {s t : State} (h : g.step? p s = some t) :
    s.result? = none ∧ Steps g s t p := by
  unfold step? at h
  split at h
  · cases h
  · refine ⟨Option.not_isSome_iff_eq_none.mp ‹_›, ?_⟩
    cases p with
    | reader => exact .reader h
    | writer => exact .writer h
    | task i => exact .task h
    | clock => exact .clock h

/-- What comes of a connection by steps in any order. -/
inductive Reaches (g : Engine) : State → State → Prop where
  | refl (s : State) : Reaches g s s
  | step {s t u : State} (p : Party) : Reaches g s t → g.step? p t = some u → Reaches g s u

end Engine

end Sluice.Connection
