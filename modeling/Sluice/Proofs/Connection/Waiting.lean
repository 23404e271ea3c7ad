/-
  File:      Sluice/Proofs/Connection/Waiting.lean
  Subject:   Who waits for whom on a connection, and why somebody can always go on.

  Every pipe and the queue are bounded, so the reader waits for handlers and for the writer, the
  handlers for the reader and for the writer, and the writer for a handler or for the reader.

  * `Exchange.AwaitsBody`, `Exchange.AwaitsRoom`: what a handler waits for;
  * `WaitsFor`: which party waits for which;
  * `step?_eq_none_iff`: where no time has to pass, a party stands still for another only;
  * `going_of_waits`: nobody waits for a party that is at its end;
  * **`acc_waits`**: the waits come to an end, and so run in no circle;
  * **`exists_step_of_reaches`**: as long as a connection has not ended, somebody goes on.
-/
import Mathlib.Logic.Relation
import Mathlib.Order.WellFounded
import Sluice.Connection.Schedule
import Sluice.Proofs.Connection.Steps

namespace Sluice.Connection

open Sluice.Http Sluice.Wire

/-! ## 1. A handler that waits -/

namespace Exchange

variable {x : Exchange}

/-- The handler reads, and nothing of the body is at hand. -/
def AwaitsBody (x : Exchange) : Prop :=
  ∃ (most : Option Nat) (rest : List Action) (received : List UInt8) (ending : List UInt8 → Ending),
    x.task = .running (.read most :: rest) received ending ∧ most ≠ some 0 ∧
      x.body.dropped = false ∧ x.body.fetch (most.getD x.body.content.size) = .blocked

/-- The response pipe is full, and not all of the response is in it. -/
def AwaitsRoom (x : Exchange) : Prop :=
  ∃ left : List UInt8, x.task = .replying left ∧ left ≠ [] ∧ x.response.write left = .blocked

/-- The task is over, or there is none. -/
def IsOver (x : Exchange) : Prop := x.task.isDone = true ∨ x.task.isNobody = true

/-- **Why a task stands still** that does not sleep. -/
theorem stopped (hx : x.step? = none) (hasleep : x.asleep = 0) :
    x.IsOver ∨ x.AwaitsBody ∨ x.AwaitsRoom := by
  unfold step? at hx
  cases ht : x.task with
  | nobody => exact .inl (.inr (by rw [ht]; rfl))
  | done => exact .inl (.inl (by rw [ht]; rfl))
  | running actions received ending =>
    rw [ht] at hx
    refine .inr (.inl ?_)
    dsimp only at hx
    unfold act? at hx
    split at hx
    · split at hx <;> cases hx
    · cases hx
    · cases hx
    · rename_i ms rest
      rw [asleep, ht] at hasleep
      cases hasleep
    · cases hx
    · rename_i most rest hmost
      by_cases hd : x.body.dropped = true
      · rw [if_pos hd] at hx
        cases hx
      · rw [if_neg hd] at hx
        split at hx
        · exact ⟨most, rest, received, ending, ht, hmost, eq_false_of_ne_true hd, ‹_›⟩
        · cases hx
        · cases hx
  | replying left =>
    rw [ht] at hx
    refine .inr (.inr ?_)
    cases left with
    | nil => cases hx
    | cons b bs =>
      dsimp only at hx
      split at hx
      · exact ⟨b :: bs, ht, List.cons_ne_nil b bs, ‹_›⟩
      · cases hx
      · cases hx

/-- A handler that waits for its body cannot take a step. -/
theorem AwaitsBody.stands (h : x.AwaitsBody) : x.step? = none := by
  obtain ⟨most, rest, received, ending, ht, hmost, hdropped, hfetch⟩ := h
  unfold step?
  rw [ht]
  cases most with
  | none => simp only [act?, hdropped, hfetch, Bool.false_eq_true, if_false]
  | some n =>
    cases n with
    | zero => exact absurd rfl hmost
    | succ n => simp only [act?, hdropped, hfetch, Bool.false_eq_true, if_false]

/-- Nor can one that waits for room in the response pipe. -/
theorem AwaitsRoom.stands (h : x.AwaitsRoom) : x.step? = none := by
  obtain ⟨left, ht, hleft, hwrite⟩ := h
  unfold step?
  rw [ht]
  cases left with
  | nil => exact absurd rfl hleft
  | cons b bs =>
    dsimp only
    rw [hwrite]

/-- The body of a handler that waits for it is open, and all that came is read. -/
theorem AwaitsBody.body (h : x.AwaitsBody) :
    x.body.content.size = 0 ∧ x.body.closed = false ∧ x.body.dropped = false := by
  obtain ⟨_, _, _, _, _, _, hdropped, hfetch⟩ := h
  obtain ⟨hsize, hopen⟩ := Pipe.fetch_blocked hfetch
  exact ⟨hsize, hopen, hdropped⟩

/-- A handler that waits for room has dropped its body, and there is something to fetch. -/
theorem AwaitsRoom.response {g : Engine} {r : Reader} {last : Prop} (h : x.AwaitsRoom)
    (hstands : x.Stands g r last) (hpipe : 0 < g.config.pipeSize) :
    0 < x.response.content.size ∧ x.body.dropped = true := by
  obtain ⟨left, ht, _, hwrite⟩ := h
  refine ⟨?_, hstands.dropped (by rw [ht]; rfl) (by rw [ht]; rfl)⟩
  exact Pipe.size_pos_of_blocked hwrite (hstands.capacity ▸ hpipe)

end Exchange

/-! ## 2. Who waits for whom -/

/-- The reader asks for a place in the queue. -/
def Reader.isAsking : Reader → Bool
  | .offering _ _ | .refusing _ _ => true
  | _ => false

theorem Reader.exclusive_of_isAsking {r : Reader} (h : r.isAsking = true) :
    r.isCopying = false ∧ r.isAnswering = false ∧ r.isEnded = false := by
  cases r <;> first | exact ⟨rfl, rfl, rfl⟩ | cases h

namespace Engine

/-- **A party waits for another.** -/
inductive WaitsFor (g : Engine) (s : State) : Party → Party → Prop where
  /-- A full body pipe: the reader waits for the handler to read. -/
  | full {b : BodyState} {left : List UInt8} {total : Option Nat} {x : Exchange}
      (hreader : s.reader = .copying b left total) (hleft : left ≠ [])
      (hx : s.exchanges[s.current]? = some x) (hwrite : x.body.write left = .blocked) :
      WaitsFor g s .reader (.task s.current)
  /-- A full queue: the reader waits for the writer to take a response. -/
  | queue (hreader : s.reader.isAsking = true) (hwriter : s.writerEnded = false)
      (hplace : g.hasPlace s = false) : WaitsFor g s .reader .writer
  /-- A full response pipe: the reader waits for the writer to fetch of its refusal. -/
  | refusal {e : MessageError} {left : List UInt8} {x : Exchange}
      (hreader : s.reader = .answering e left) (hleft : left ≠ [])
      (hx : s.exchanges[s.current]? = some x) (hwrite : x.response.write left = .blocked) :
      WaitsFor g s .reader .writer
  /-- An empty body pipe: the handler waits for the reader to pass on more. -/
  | body {i : Nat} {x : Exchange} (hx : s.exchanges[i]? = some x) (h : x.AwaitsBody) :
      WaitsFor g s (.task i) .reader
  /-- A full response pipe: the handler waits for the writer to fetch. -/
  | room {i : Nat} {x : Exchange} (hx : s.exchanges[i]? = some x) (h : x.AwaitsRoom) :
      WaitsFor g s (.task i) .writer
  /-- An empty response pipe: the writer waits for the handler whose response it sends. -/
  | response {x : Exchange} (hwriter : s.writer = .sending [])
      (hx : s.exchanges[s.taken - 1]? = some x) (hfetch : x.response.fetch fetchSize = .blocked)
      (hnobody : x.task.isNobody = false) : WaitsFor g s .writer (.task (s.taken - 1))
  /-- An empty response pipe of a request that is refused: the writer waits for the reader. -/
  | answer {x : Exchange} (hwriter : s.writer = .sending [])
      (hx : s.exchanges[s.taken - 1]? = some x) (hfetch : x.response.fetch fetchSize = .blocked)
      (hnobody : x.task.isNobody = true) : WaitsFor g s .writer .reader
  /-- An empty queue: the writer waits for the reader to come with a request, or to its end. -/
  | next (hwriter : s.writer = .waiting) (htaken : ¬ s.taken < s.exchanges.length)
      (hreader : s.readerEnded = false) : WaitsFor g s .writer .reader

/-- The party has nothing more to do. -/
def IsOver (s : State) : Party → Prop
  | .reader => s.reader.isEnded = true
  | .writer => s.writerEnded = true
  | .task i => ∀ x, s.exchanges[i]? = some x → x.IsOver
  | .clock => True

variable {g : Engine} {s : State} {p q : Party} {i : Nat}

theorem task?_of_stands {x : Exchange} (hx : s.exchanges[i]? = some x) (h : x.step? = none) :
    task? s i = none := by
  unfold task?
  rw [hx]
  exact Option.map_eq_none_iff.mpr h

theorem writer?_of_blocked {x : Exchange} (hwriter : s.writer = .sending [])
    (hx : s.exchanges[s.taken - 1]? = some x) (hfetch : x.response.fetch fetchSize = .blocked) :
    writer? s = none := by
  unfold writer?
  rw [hwriter]
  dsimp only
  rw [hx]
  dsimp only
  rw [hfetch]

theorem reader?_of_waits (h : WaitsFor g s .reader q) : g.reader? s = none := by
  unfold reader?
  cases h with
  | @full b left total x hreader hleft hx hwrite =>
    obtain ⟨y, ys, rfl⟩ := List.exists_cons_of_ne_nil hleft
    rw [hreader]
    dsimp only
    unfold passOn?
    rw [hx]
    dsimp only
    rw [hwrite]
  | queue hreader hwriter hplace =>
    rw [hwriter, hplace]
    cases hr : s.reader <;> rw [hr] at hreader <;> first | rfl | cases hreader
  | @refusal e left x hreader hleft hx hwrite =>
    obtain ⟨y, ys, rfl⟩ := List.exists_cons_of_ne_nil hleft
    rw [hreader]
    dsimp only
    unfold answer?
    rw [hx]
    dsimp only
    rw [hwrite]

/-- **A party that waits** for another cannot take a step. -/
theorem step?_of_waits (h : WaitsFor g s p q) : g.step? p s = none := by
  unfold step?
  split
  · rfl
  · cases p with
    | reader => exact reader?_of_waits h
    | task i =>
      cases h with
      | body hx h => exact task?_of_stands hx h.stands
      | room hx h => exact task?_of_stands hx h.stands
    | writer =>
      cases h with
      | response hwriter hx hfetch => exact writer?_of_blocked hwriter hx hfetch
      | answer hwriter hx hfetch => exact writer?_of_blocked hwriter hx hfetch
      | next hwriter htaken hreader =>
        show writer? s = none
        unfold writer?
        rw [hwriter, hreader]
        dsimp only
        rw [if_neg htaken]
        rfl
    | clock => cases h

/-! ## 3. Whoever cannot go on waits for another -/

/-- Time stands still only where nobody waits for it. -/
theorem waits_of_clock? (h : clock? s = none) :
    (s.reading = true → s.arrivals.wait = 0) ∧ ∀ x ∈ s.exchanges, x.asleep = 0 := by
  have hwaits : ∀ w ∈ waits s, w = 0 := by
    unfold clock? at h
    split at h
    · rename_i hnone
      intro w hw
      have hempty := List.min?_eq_none_iff.mp hnone
      have hnot := List.filter_eq_nil_iff.mp hempty w hw
      simpa using hnot
    · cases h
  unfold waits at hwaits
  refine ⟨fun hr => hwaits _ (List.mem_append_left _ ?_), fun x hx =>
    hwaits _ (List.mem_append_right _ (List.mem_map.mpr ⟨x, hx, rfl⟩))⟩
  rw [if_pos hr]
  exact List.mem_singleton_self _

/-- Where time stands still and the reader reads, something can be read. -/
theorem available_of_clock? (h : clock? s = none) (hr : s.reading = true) :
    ∃ r, s.arrivals.available = some r := by
  have hwait := (waits_of_clock? h).1 hr
  unfold Arrivals.available
  rw [if_pos hwait]
  split
  · exact ⟨_, rfl⟩
  · split <;> exact ⟨_, rfl⟩

/-- A reader that asks for a place goes on when there is one, or no queue. -/
theorem waits_of_asking (hr : s.reader.isAsking = true) (h : g.reader? s = none) :
    WaitsFor g s .reader .writer := by
  have hboth : s.writerEnded = false ∧ g.hasPlace s = false := by
    unfold reader? at h
    cases hs : s.reader <;> rw [hs] at h hr <;> dsimp only at h <;> try cases hr
    all_goals
      split at h
      · cases h
      · rename_i hwriter
        split at h
        · cases h
        · rename_i hplace
          exact ⟨eq_false_of_ne_true hwriter, eq_false_of_ne_true hplace⟩
  exact .queue hr hboth.1 hboth.2

theorem waits_of_reader? (hs : s.Sound g) (hclock : clock? s = none) (h : g.reader? s = none)
    (hr : s.reader.isEnded = false) : ∃ q, WaitsFor g s .reader q := by
  cases hreader : s.reader with
  | head hd =>
    obtain ⟨r, ha⟩ := available_of_clock? hclock (by rw [State.reading, hreader])
    unfold reader? at h
    rw [hreader] at h
    dsimp only at h
    rw [ha] at h
    cases h
  | offering request framing => exact ⟨.writer, waits_of_asking (by rw [hreader]; rfl) h⟩
  | refusing e status => exact ⟨.writer, waits_of_asking (by rw [hreader]; rfl) h⟩
  | answering e left =>
    obtain ⟨_, x, hx, _⟩ := hs.answering (by rw [hreader]; rfl)
    unfold reader? answer? at h
    rw [hreader] at h
    dsimp only at h
    rw [hx] at h
    dsimp only at h
    cases left with
    | nil => cases h
    | cons b bs =>
      dsimp only at h
      split at h
      · exact ⟨.writer, .refusal hreader (List.cons_ne_nil b bs) hx ‹_›⟩
      · cases h
      · cases h
  | copying b left total =>
    obtain ⟨x, hx, _⟩ := hs.copying (by rw [hreader]; rfl)
    unfold reader? at h
    rw [hreader] at h
    cases left with
    | nil =>
      cases total with
      | some n => cases h
      | none =>
        obtain ⟨r, ha⟩ := available_of_clock? hclock (by rw [State.reading, hreader]; rfl)
        dsimp only at h
        rw [ha] at h
        cases h
    | cons y ys =>
      dsimp only at h
      unfold passOn? at h
      rw [hx] at h
      dsimp only at h
      split at h
      · exact ⟨_, .full hreader (List.cons_ne_nil y ys) hx ‹_›⟩
      · cases h
      · cases h
  | ended result =>
    rw [hreader] at hr
    cases hr

theorem waits_of_writer? (hs : s.Sound g) (h : writer? s = none) (hw : s.writerEnded = false) :
    ∃ q, WaitsFor g s .writer q := by
  cases hwriter : s.writer with
  | ended failure =>
    rw [State.writerEnded, hwriter] at hw
    cases hw
  | waiting =>
    unfold writer? at h
    rw [hwriter] at h
    dsimp only at h
    split at h
    · cases h
    · split at h
      · cases h
      · exact ⟨.reader, .next hwriter ‹_› (eq_false_of_ne_true ‹_›)⟩
  | sending left =>
    unfold writer? at h
    rw [hwriter] at h
    cases left with
    | nil =>
      have hlt : s.taken - 1 < s.exchanges.length := by
        have hpos := hs.sending [] hwriter
        have hle := hs.taken
        omega
      have hx := List.getElem?_eq_getElem hlt
      dsimp only at h
      rw [hx] at h
      dsimp only at h
      split at h
      · rename_i hfetch
        cases hnobody : s.exchanges[s.taken - 1].task.isNobody with
        | false => exact ⟨_, .response hwriter hx hfetch hnobody⟩
        | true => exact ⟨.reader, .answer hwriter hx hfetch hnobody⟩
      · cases h
      · cases h
    | cons b bs =>
      dsimp only at h
      split at h <;> cases h

theorem waits_of_task? (hclock : clock? s = none) (h : task? s i = none)
    (hover : ¬ IsOver s (.task i)) : ∃ q, WaitsFor g s (.task i) q := by
  unfold task? at h
  cases hx : s.exchanges[i]? with
  | none =>
    refine absurd ?_ hover
    intro x hx'
    rw [hx] at hx'
    cases hx'
  | some x =>
    rw [hx, Option.map_eq_none_iff] at h
    rcases Exchange.stopped h ((waits_of_clock? hclock).2 x (List.mem_of_getElem? hx)) with
      hend | hbody | hroom
    · refine absurd ?_ hover
      intro y hy
      rw [hx] at hy
      cases hy
      exact hend
    · exact ⟨.reader, .body hx hbody⟩
    · exact ⟨.writer, .room hx hroom⟩

/-- **A party that is not at its end** stands still exactly where it waits for another, unless time
    has to pass. -/
theorem step?_eq_none_iff (hs : s.Sound g) (hresult : s.result? = none) (hclock : clock? s = none)
    (hover : ¬ IsOver s p) : g.step? p s = none ↔ ∃ q, WaitsFor g s p q := by
  constructor
  · intro h
    unfold step? at h
    rw [hresult, if_neg (by decide)] at h
    cases p with
    | reader => exact waits_of_reader? hs hclock h (eq_false_of_ne_true hover)
    | writer => exact waits_of_writer? hs h (eq_false_of_ne_true hover)
    | task i => exact waits_of_task? hclock h hover
    | clock => exact absurd trivial hover
  · rintro ⟨q, hq⟩
    exact step?_of_waits hq

/-- The writer of a connection that has not ended is not at its end. -/
theorem writerEnded_of_result? (hs : s.Sound g) (hresult : s.result? = none) :
    s.writerEnded = false := by
  unfold State.writerEnded
  cases hw : s.writer with
  | waiting => rfl
  | sending left => rfl
  | ended failure =>
    obtain ⟨rfl, hr, _⟩ := hs.ended failure hw
    unfold State.result? at hresult
    rw [hw] at hresult
    cases hreader : s.reader with
    | ended result => cases result <;> rw [hreader] at hresult <;> cases hresult
    | _ =>
      rw [hreader] at hr
      cases hr

/-- **Nobody waits for a party that is at its end.** -/
theorem going_of_waits (hs : s.Sound g) (hresult : s.result? = none) (h : WaitsFor g s p q) :
    ¬ IsOver s q := by
  have hwriter : ¬ s.writerEnded = true := by
    rw [writerEnded_of_result? hs hresult]
    decide
  cases h with
  | queue | refusal | room => exact hwriter
  | full hreader hleft hx hwrite =>
    intro hover
    have hc : s.reader.isCopying = true := by rw [hreader]; rfl
    obtain ⟨y, hy, _, hnobody, _⟩ := hs.copying hc
    rw [hx] at hy
    cases hy
    -- a handler that is done has dropped its body
    rcases hover _ hx with hdone | hn
    · have hrun : Task.isRunning _ = false := Task.isRunning_of_isDone hdone
      have hdropped := (hs.stands _ _ hx).dropped hrun hnobody
      rw [(Pipe.write_blocked hwrite).1] at hdropped
      cases hdropped
    · rw [hnobody] at hn
      cases hn
  | body hx h =>
    intro hended
    have hc := ((hs.stands _ _ hx).opened h.body.2.1).2
    rw [(Reader.exclusive_of_isEnded hended).1] at hc
    cases hc
  | response hwriter hx hfetch hnobody =>
    intro hover
    -- a handler that is done has closed its response pipe
    rcases hover _ hx with hdone | hn
    · have hclosed := (hs.stands _ _ hx).closed hdone
      rw [(Pipe.fetch_blocked hfetch).2] at hclosed
      cases hclosed
    · rw [hnobody] at hn
      cases hn
  | answer hwriter hx hfetch hnobody =>
    intro hended
    rcases ((hs.stands _ _ hx).refused hnobody).2 with ⟨ha, _⟩ | ⟨_, hclosed⟩
    · rw [(Reader.exclusive_of_isEnded hended).2] at ha
      cases ha
    · rw [(Pipe.fetch_blocked hfetch).2] at hclosed
      cases hclosed
  | next hwriter htaken hreader =>
    intro hended
    rw [readerEnded_eq, show s.reader.isEnded = true from hended] at hreader
    cases hreader

/-! ## 4. No circle -/

/-- A handler before whose full body pipe the reader stands does not wait for more of the body. -/
theorem not_awaitsBody_of_full {x : Exchange} {left : List UInt8} (hs : s.Sound g)
    (hpipe : 0 < g.config.pipeSize) (hr : s.reader.isCopying = true)
    (hx : s.exchanges[s.current]? = some x) (hwrite : x.body.write left = .blocked) :
    ¬ x.AwaitsBody := by
  intro h
  obtain ⟨y, hy, _, _, hcapacity⟩ := hs.copying hr
  rw [hx] at hy
  cases hy
  have hpos := Pipe.size_pos_of_blocked hwrite (hcapacity ▸ hpipe)
  have hzero := h.body.1
  omega

/-- A handler that waits for its body waits for a reader that waits for nobody. -/
theorem not_waits_of_body (hs : s.Sound g) (hpipe : 0 < g.config.pipeSize)
    (h : WaitsFor g s (.task i) .reader) (q : Party) : ¬ WaitsFor g s .reader q := by
  cases h with
  | @body i x hx h =>
    obtain ⟨hlast, hc⟩ := (hs.stands i x hx).opened h.body.2.1
    intro hreader
    cases hreader with
    | full _ _ hy hwrite =>
      have hcurrent : s.current = i := by
        unfold State.current
        omega
      have hnot := not_awaitsBody_of_full hs hpipe hc hy hwrite
      rw [hcurrent, hx] at hy
      cases hy
      exact hnot h
    | queue hreader =>
      rw [(Reader.exclusive_of_isAsking hreader).1] at hc
      cases hc
    | refusal hreader =>
      rw [hreader] at hc
      cases hc

/-- A reader that waits for a handler waits for one that waits for nobody: it has not dropped its
    body for a response. -/
theorem not_waits_of_full (hs : s.Sound g) (hpipe : 0 < g.config.pipeSize)
    (h : WaitsFor g s .reader (.task i)) (q : Party) : ¬ WaitsFor g s (.task i) q := by
  intro htask
  cases h with
  | full hreader hleft hx hwrite =>
    cases htask with
    | body hy hbody =>
      have hnot := not_awaitsBody_of_full hs hpipe (by rw [hreader]; rfl) hx hwrite
      rw [hx] at hy
      cases hy
      exact hnot hbody
    | room hy hresponse =>
      rw [hx] at hy
      cases hy
      have hdropped := (hresponse.response (hs.stands _ _ hx) hpipe).2
      rw [(Pipe.write_blocked hwrite).1] at hdropped
      cases hdropped

/-- The writer waits for no handler that waits for it: the response pipe is empty. -/
theorem not_waits_of_response (hs : s.Sound g) (hpipe : 0 < g.config.pipeSize)
    (h : WaitsFor g s .writer (.task i)) : ¬ WaitsFor g s (.task i) .writer := by
  intro htask
  cases h with
  | @response x hwriter hx hfetch hnobody =>
    cases htask with
    | @room _ y hy hresponse =>
      rw [hx] at hy
      cases hy
      have hpos := (hresponse.response (hs.stands _ _ hx) hpipe).1
      have hzero := (Pipe.fetch_blocked hfetch).1
      omega

/-- The writer waits for no reader that waits for it: the queue is empty and the reader has put
    nothing into a response pipe. -/
theorem not_waits_of_next (hs : s.Sound g) (hpipe : 0 < g.config.pipeSize)
    (h : WaitsFor g s .writer .reader) : ¬ WaitsFor g s .reader .writer := by
  intro hback
  cases h with
  | @answer x hwriter hx hfetch hnobody =>
    have hstands := hs.stands _ x hx
    obtain ⟨hsize, hopen⟩ := Pipe.fetch_blocked hfetch
    obtain ⟨hlast, ⟨hanswering, _⟩ | ⟨_, hclosed⟩⟩ := hstands.refused hnobody
    · cases hback with
      | queue hreader =>
        rw [(Reader.exclusive_of_isAsking hreader).2.1] at hanswering
        cases hanswering
      | @refusal e left y hreader hleft hy hwrite =>
        have hcurrent : s.current = s.taken - 1 := by
          unfold State.current
          omega
        rw [hcurrent, hx] at hy
        cases hy
        have hpos := Pipe.size_pos_of_blocked hwrite (hstands.capacity ▸ hpipe)
        omega
    · rw [hopen] at hclosed
      cases hclosed
  | next hwriter htaken hreader =>
    cases hback with
    | queue _ _ hplace =>
      have hfull : ¬ s.queued < g.config.queueSize := of_decide_eq_false hplace
      have hqueue := g.config.queueSize_pos
      unfold State.queued at hfull
      omega
    | refusal hanswering =>
      have hpast := (hs.answering (by rw [hanswering]; rfl)).1
      unfold State.past at hpast
      rw [hwriter] at hpast
      exact htaken hpast

/-- **The waits run in no circle**: from each party they come to an end. -/
theorem acc_waits (hs : s.Sound g) (hpipe : 0 < g.config.pipeSize) (p : Party) :
    Acc (fun q p => WaitsFor g s p q) p := by
  -- a party that waits for nobody
  have hfree : ∀ {p}, (∀ q, ¬ WaitsFor g s p q) → Acc (fun q p => WaitsFor g s p q) p :=
    fun h => ⟨_, fun q hq => absurd hq (h q)⟩
  have htask : ∀ {i}, ¬ WaitsFor g s (.task i) .writer →
      Acc (fun q p => WaitsFor g s p q) (.task i) := by
    intro i hwriter
    refine ⟨_, fun q hq => ?_⟩
    cases hq with
    | body hx h => exact hfree (not_waits_of_body hs hpipe (.body hx h))
    | room hx h => exact absurd (.room hx h) hwriter
  have hwriter : Acc (fun q p => WaitsFor g s p q) .writer := by
    refine ⟨_, fun q hq => ?_⟩
    cases q with
    | task i => exact htask (not_waits_of_response hs hpipe hq)
    | reader =>
      refine ⟨_, fun r hr => ?_⟩
      cases r with
      | task i => exact hfree (not_waits_of_full hs hpipe hr)
      | writer => exact absurd hr (not_waits_of_next hs hpipe hq)
      | reader => nomatch hr
      | clock => nomatch hr
    | writer => nomatch hq
    | clock => nomatch hq
  have hreader : Acc (fun q p => WaitsFor g s p q) .reader := by
    refine ⟨_, fun q hq => ?_⟩
    cases q with
    | task i => exact hfree (not_waits_of_full hs hpipe hq)
    | writer => exact hwriter
    | reader => nomatch hq
    | clock => nomatch hq
  cases p with
  | reader => exact hreader
  | writer => exact hwriter
  | task i =>
    refine ⟨_, fun q hq => ?_⟩
    cases hq with
    | body => exact hreader
    | room => exact hwriter
  | clock => exact hfree (by rintro _ ⟨⟩)

/-! ## 5. Somebody goes on -/

/-- **Somebody can go on**: whoever waits waits for a party that is not at its end, and the waits
    do not go on forever. -/
theorem exists_step_of_sound (hs : s.Sound g) (hpipe : 0 < g.config.pipeSize)
    (hresult : s.result? = none) : ∃ p t, g.step? p s = some t := by
  by_contra hnone
  have hstuck : ∀ p, g.step? p s = none := by
    intro p
    refine Option.eq_none_iff_forall_ne_some.mpr ?_
    intro t ht
    exact hnone ⟨p, t, ht⟩
  have hclock : clock? s = none := by
    have h := hstuck .clock
    unfold step? at h
    rw [hresult] at h
    exact h
  have hover : ∀ p, IsOver s p := by
    intro p
    induction acc_waits hs hpipe p with
    | intro p _ ih =>
      by_contra hgoing
      obtain ⟨q, hq⟩ := (step?_eq_none_iff hs hresult hclock hgoing).mp (hstuck p)
      exact going_of_waits hs hresult hq (ih q hq)
  have hwriter := hover .writer
  rw [IsOver, writerEnded_of_result? hs hresult] at hwriter
  cases hwriter

/-- **A connection never gets stuck.** Whatever arrives in whichever pieces and after whichever
    pauses, whatever the handlers do with their bodies and however the output fails: as long as the
    connection has not ended, some party takes a step, and no parties wait for each other in a
    circle. -/
theorem exists_step_of_reaches (g : Engine) (arrivals : Arrivals) (sink : Sink)
    (hpipe : 0 < g.config.pipeSize) (hs : Reaches g (.start g arrivals sink) s)
    (hresult : s.result? = none) :
    (∃ p t, g.step? p s = some t) ∧ ∀ p, ¬ Relation.TransGen (WaitsFor g s) p p := by
  have hsound : s.Sound g := by
    refine (sound_of_reaches hs).resolve_right ?_
    rw [hresult]
    decide
  refine ⟨exists_step_of_sound hsound hpipe hresult, ?_⟩
  intro p hcircle
  have hwf : WellFounded (Relation.TransGen fun q p => WaitsFor g s p q) :=
    WellFounded.transGen ⟨acc_waits hsound hpipe⟩
  exact hwf.irrefl.irrefl p (Relation.transGen_swap.mpr hcircle)

/-- The parties that go on, one after the other, lead somewhere. -/
theorem reaches_of_foldlM {t : State} {parties : List Party}
    (h : parties.foldlM (fun s p => g.step? p s) s = some t) : Reaches g s t := by
  induction parties generalizing s with
  | nil =>
    cases h
    exact .refl _
  | cons p parties ih =>
    obtain ⟨u, hu, hrest⟩ := Option.bind_eq_some_iff.mp h
    exact (Reaches.step p (.refl s) hu).trans (ih hrest)

/-- Handlers that hold a body for a while and drop it unread, in pipes of one byte. -/
def holding : Engine where
  config := ⟨0, 1, 64⟩
  store := .ofChunkSize 16 (by decide)
  handler _ _ _ := ⟨[.sleep 3, .drop], fun _ => .reply Reply.ok⟩

/-- A request whose body does not fit into its pipe. -/
def crowded : State :=
  .start holding (.ofItems 64
    [.bytes (Utf8.encode "POST / HTTP/1.1\nContent-Length: 3\n\nabc".toList)] none) .unlimited

/-- The reader stands before the full body pipe of a handler that holds its body. -/
theorem exists_step_of_reaches_holding :
    ∃ s, Reaches holding crowded s ∧ s.result? = none ∧ holding.step? .reader s = none ∧
      (∃ p t, holding.step? p s = some t) ∧ ∀ p, ¬ Relation.TransGen (WaitsFor holding s) p p := by
  have hruns : ((List.replicate 6 Party.reader).foldlM (fun s p => holding.step? p s)
      crowded).any (fun s => s.result?.isNone && (holding.step? .reader s).isNone) = true := by
    decide +kernel
  obtain ⟨s, hs, hstands⟩ := (Option.any_eq_true _ _).mp hruns
  obtain ⟨hnone, hreader⟩ := Bool.and_eq_true_iff.mp hstands
  have hreaches := reaches_of_foldlM hs
  have hresult : s.result? = none := Option.isNone_iff_eq_none.mp hnone
  exact ⟨s, hreaches, hresult, Option.isNone_iff_eq_none.mp hreader,
    exists_step_of_reaches holding _ _ (by decide) hreaches hresult⟩

end Engine

end Sluice.Connection
