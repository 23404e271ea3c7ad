/-
  File:      Sluice/Proofs/Connection/Steps.lean
  Subject:   No step changes what a connection will send.

  * `State.Keeps`: a step that leaves the prospect as it is, and sends nothing;
  * `Reads`, `reads_of_reader?`: what a step of the reader does;
  * `Writes`, `writes_of_writer?`: what a step of the writer does;
  * `keeps_reader`, `keeps_task`, `keeps_clock`: the steps of the reader, the tasks and the clock;
  * `sound_of_reaches`: what holds at every moment, also where the output fails; `enroll_of_step`: no
    request is dropped for want of a writer;
  * **`tells_step`**: every step keeps the prospect, or sends the first bytes of it.
-/
import Sluice.Proofs.Connection.Prospect

namespace Sluice.Connection

open Sluice.Http Sluice.Wire

/-! ## 1. Parts of a step -/

/-- A step that leaves the prospect as it is, and sends nothing. -/
structure State.Keeps (g : Engine) (s t : State) : Prop where
  sound : t.Sound g
  prospect : t.prospect g = s.prospect g
  sink : t.sink = s.sink

/-- Which of the exchanges are those of a handler: the others are refusals. -/
def handled (l : List Exchange) : List Bool := l.map (!·.task.isNobody)

/-- A step that neither the reader nor the writer takes. -/
structure State.Rests (s t : State) : Prop where
  reader : t.reader = s.reader
  started : t.started = s.started
  writer : t.writer = s.writer
  taken : t.taken = s.taken
  handled : handled t.exchanges = handled s.exchanges
  source : t.arrivals.toSource = s.arrivals.toSource

namespace Engine

variable {g : Engine} {s t : State} {x y : Exchange}

theorem prospect_congr (hwriter : t.writer = s.writer)
    (howed : owed (t.exchanges.drop t.past) (t.reader.more t.arrivals.toSource) =
      owed (s.exchanges.drop s.past) (s.reader.more s.arrivals.toSource))
    (hlater : g.later t.started t.arrivals.toSource t.reader = g.later s.started s.arrivals.toSource s.reader) :
    t.prospect g = s.prospect g := by
  unfold State.prospect
  rw [hwriter, howed, hlater]

theorem past_congr (hwriter : t.writer = s.writer) (htaken : t.taken = s.taken) :
    t.past = s.past := by
  unfold State.past
  rw [hwriter, htaken]

theorem past_le_taken (s : State) : s.past ≤ s.taken := by
  unfold State.past
  split <;> omega

/-- Another exchange in the last place that owes the same, whatever of them is past. -/
theorem owed_drop_set_last {l : List Exchange} {more more' : List UInt8}
    (hx : l[l.length - 1]? = some x) (h : y.owes more' = x.owes more) (p : Nat) :
    owed ((l.set (l.length - 1) y).drop p) more' = owed (l.drop p) more := by
  rw [List.drop_set]
  by_cases hp : l.length - 1 < p
  · have hdrop : l.drop p = [] := List.drop_eq_nil_of_le (by omega)
    rw [if_pos hp, hdrop]
    rfl
  · have hlen : l.length - 1 - p = (l.drop p).length - 1 := by
      rw [List.length_drop]
      omega
    rw [if_neg hp, hlen]
    refine owed_set_last ?_ h
    rw [← hlen, List.getElem?_drop, show p + (l.length - 1 - p) = l.length - 1 by omega]
    exact hx

/-- Where only the last exchange, the reader and the input change. -/
theorem prospect_set (hx : s.exchanges[s.current]? = some x)
    (hexchanges : t.exchanges = s.exchanges.set s.current y) (htaken : t.taken = s.taken)
    (hwriter : t.writer = s.writer)
    (howes : y.owes (t.reader.more t.arrivals.toSource) =
      x.owes (s.reader.more s.arrivals.toSource))
    (hlater : g.later t.started t.arrivals.toSource t.reader = g.later s.started s.arrivals.toSource s.reader) :
    t.prospect g = s.prospect g := by
  refine prospect_congr hwriter ?_ hlater
  rw [hexchanges, past_congr hwriter htaken]
  exact owed_drop_set_last hx howes _

theorem set_of_getElem? {α : Type} {l : List α} {x : α} {i : Nat} (h : l[i]? = some x) :
    l.set i x = l := by
  obtain ⟨hi, rfl⟩ := List.getElem?_eq_some_iff.mp h
  exact List.set_getElem_self hi

theorem length_handled (l : List Exchange) : (handled l).length = l.length := List.length_map _

/-- Another exchange in the place of one is a handler's if that one was. -/
theorem handled_set {l : List Exchange} {i : Nat} (hx : l[i]? = some x)
    (h : y.task.isNobody = x.task.isNobody) : handled (l.set i y) = handled l := by
  unfold handled
  rw [List.map_set, h]
  exact set_of_getElem? (by rw [List.getElem?_map, hx]; rfl)

/-- The writer is not at its end before the reader is. -/
theorem writer_ne_ended (h : s.Sound g) (hr : s.reader.isEnded = false) (failure : Option Failure) :
    s.writer ≠ .ended failure := by
  intro hw
  have hended := (h.ended failure hw).2.1
  rw [hr] at hended
  cases hended

theorem writerEnded_eq_false (h : s.Sound g) (hr : s.reader.isEnded = false) :
    s.writerEnded = false := by
  unfold State.writerEnded
  cases hw : s.writer with
  | ended failure => exact absurd hw (writer_ne_ended h hr failure)
  | waiting => rfl
  | sending left => rfl

/-- **Where the reader goes on** outside of bodies and refusals, what holds of the connection still
    holds. -/
theorem sound_go_on (h : s.Sound g) (hexchanges : t.exchanges = s.exchanges)
    (htaken : t.taken = s.taken) (hwriter : t.writer = s.writer)
    (hs : s.reader.isCopying = false ∧ s.reader.isAnswering = false ∧ s.reader.isEnded = false)
    (ht : t.reader.isCopying = false ∧ t.reader.isAnswering = false) : t.Sound g where
  stands i x hx := by
    rw [hexchanges] at hx
    refine (h.stands i x hx).settle ?_ ?_
    · rw [hs.1]
      intro h
      rcases h with ⟨_, ⟨⟩⟩
    · rw [hs.2.1, hs.2.2]
      rintro ⟨_, hl | hl⟩ <;> cases hl
  taken := by
    rw [htaken, hexchanges]
    exact h.taken
  sending left hw := by
    rw [htaken]
    exact h.sending left (hwriter ▸ hw)
  ended failure hw := absurd (hwriter ▸ hw) (writer_ne_ended h hs.2.2 failure)
  copying hc := by
    rw [ht.1] at hc
    cases hc
  answering ha := by
    rw [ht.2] at ha
    cases ha
  going b left hb := by
    rw [hb] at ht
    cases ht.1

/-- **Where the reader changes the last exchange**, what holds of the connection still holds. -/
theorem sound_set (h : s.Sound g) (hx : s.exchanges[s.current]? = some x)
    (hexchanges : t.exchanges = s.exchanges.set s.current y) (htaken : t.taken = s.taken)
    (hwriter : t.writer = s.writer) (hended : s.reader.isEnded = false)
    (hy : y.Stands g t.reader True)
    (hcopying : t.reader.isCopying = true → y.body.closed = false ∧ y.task.isNobody = false ∧
      y.body.capacity = g.config.pipeSize)
    (hanswering : t.reader.isAnswering = true → s.past < s.exchanges.length ∧
      y.task.isNobody = true)
    (hgoing : ∀ b left, t.reader = .copying b left none → b.Going) : t.Sound g := by
  have hlen : t.exchanges.length = s.exchanges.length := by rw [hexchanges, List.length_set]
  have hlt : s.current < s.exchanges.length := (List.getElem?_eq_some_iff.mp hx).1
  have hcurrent : t.exchanges[t.current]? = some y := by
    rw [State.current, hlen, hexchanges]
    exact List.getElem?_set_self hlt
  refine ⟨?_, ?_, ?_, ?_, ?_, ?_,
    hgoing⟩
  · intro i z hz
    rw [hlen]
    by_cases hi : i = s.current
    · subst hi
      rw [hexchanges, List.getElem?_set_self hlt] at hz
      obtain rfl : y = z := Option.some.inj hz
      have hlast : s.current + 1 = s.exchanges.length := by
        unfold State.current at hlt ⊢
        omega
      rw [eq_true hlast]
      exact hy
    · rw [hexchanges, List.getElem?_set_ne (Ne.symm hi)] at hz
      have hnot : ¬ i + 1 = s.exchanges.length := fun he => hi (by unfold State.current; omega)
      exact (h.stands i z hz).settle (fun hl => hnot hl.1) (fun hl => hnot hl.1)
  · rw [htaken, hlen]
    exact h.taken
  · intro left hw
    rw [htaken]
    exact h.sending left (hwriter ▸ hw)
  · intro failure hw
    exact absurd (hwriter ▸ hw) (writer_ne_ended h hended failure)
  · intro hc
    exact ⟨y, hcurrent, hcopying hc⟩
  · intro ha
    obtain ⟨hpast, hnobody⟩ := hanswering ha
    rw [past_congr hwriter htaken, hlen]
    exact ⟨hpast, y, hcurrent, hnobody⟩

/-! ## 2. The reader in a head -/

/-- Reading in a head has nothing to do with the exchanges and the writer. -/
theorem frame_readHead (g : Engine) (s : State) (h : HeadState RequestLine)
    (r : Except Failure (List UInt8)) :
    (g.readHead s h r).exchanges = s.exchanges ∧ (g.readHead s h r).taken = s.taken ∧
      (g.readHead s h r).started = s.started ∧ (g.readHead s h r).writer = s.writer ∧
      (g.readHead s h r).sink = s.sink := by
  unfold readHead
  split
  · exact ⟨rfl, rfl, rfl, rfl, rfl⟩
  · split <;> exact ⟨rfl, rfl, rfl, rfl, rfl⟩
  · dsimp only
    split
    · exact ⟨rfl, rfl, rfl, rfl, rfl⟩
    · exact ⟨rfl, rfl, rfl, rfl, rfl⟩
    · exact ⟨rfl, rfl, rfl, rfl, rfl⟩
    · split <;> exact ⟨rfl, rfl, rfl, rfl, rfl⟩

/-- Nothing is to come for an exchange where the reader neither passes on a body nor writes a
    refusal. -/
theorem more_eq_nil {r : Reader} (hcopying : r.isCopying = false) (hanswering : r.isAnswering = false)
    (source : Source) : r.more source = [] := by
  cases r with
  | answering e left => cases hanswering
  | copying b left total => cases hcopying
  | _ => rfl

theorem keeps_readHead {h : HeadState RequestLine} {r : Except Failure (List UInt8)}
    (hs : s.Sound g) (hr : s.reader = .head h) (ha : s.arrivals.available = some r) :
    s.Keeps g (g.readHead s h r) := by
  obtain ⟨hexchanges, htaken, hstarted, hwriter, hsink⟩ := frame_readHead g s h r
  obtain ⟨hcopying, hanswering⟩ := phase_readHead g s h r
  refine ⟨sound_go_on hs hexchanges htaken hwriter (by rw [hr]; exact ⟨rfl, rfl, rfl⟩)
    ⟨hcopying, hanswering⟩, prospect_congr hwriter ?_ ?_, hsink⟩
  · rw [hexchanges, past_congr hwriter htaken, more_eq_nil hcopying hanswering, hr]
    rfl
  · rw [hstarted, later_readHead ha, hr]
    rfl

/-! ## 3. The reader with a request -/

/-- Behind a new exchange no exchange is past. -/
theorem past_enqueue (h : s.Sound g) (x : Exchange) : (s.enqueue x).past = 0 := by
  unfold State.past State.enqueue
  cases hw : s.writer with
  | sending left =>
    have hpos := h.sending left hw
    simp only [State.past, hw]
    omega
  | waiting => simp [State.past, hw]
  | ended failure => simp [State.past, hw]

/-- What the exchanges owe with a new one behind them. -/
theorem prospect_enqueue (h : s.Sound g) (hmore : s.reader.more s.arrivals.toSource = [])
    {r : Reader} {n : Nat} (hlater : x.owes (r.more s.arrivals.toSource) ++
      (g.later n s.arrivals.toSource r).output =
        (g.later s.started s.arrivals.toSource s.reader).output)
    (hresult : (g.later n s.arrivals.toSource r).result =
      (g.later s.started s.arrivals.toSource s.reader).result) :
    State.prospect g { s.enqueue x with reader := r, started := n } = s.prospect g := by
  have hpast : State.past { s.enqueue x with reader := r, started := n } = 0 := past_enqueue h x
  have houtput : s.writer.left ++ owed (s.exchanges.drop s.past ++ [x])
      (r.more s.arrivals.toSource) ++ (g.later n s.arrivals.toSource r).output =
      s.writer.left ++ owed (s.exchanges.drop s.past) [] ++
        (g.later s.started s.arrivals.toSource s.reader).output := by
    rw [owed_concat, ← hlater]
    simp only [List.append_assoc]
  unfold State.prospect
  rw [hpast, List.drop_zero, hmore]
  exact congr (congrArg Account.mk houtput) hresult

/-- **Where the reader enqueues an exchange**, what holds of the connection still holds. -/
theorem sound_enqueue (h : s.Sound g)
    (hs : s.reader.isCopying = false ∧ s.reader.isAnswering = false ∧ s.reader.isEnded = false)
    {r : Reader} (n : Nat) (hx : x.Stands g r True)
    (hcopying : r.isCopying = true → x.body.closed = false ∧ x.task.isNobody = false ∧
      x.body.capacity = g.config.pipeSize)
    (hanswering : r.isAnswering = true → x.task.isNobody = true)
    (hgoing : ∀ b left, r = .copying b left none → b.Going) :
    State.Sound g { s.enqueue x with reader := r, started := n } := by
  have hpast : State.past { s.enqueue x with reader := r, started := n } = 0 := past_enqueue h x
  have hle := past_le_taken s
  have htaken := h.taken
  have hlen : (s.exchanges.drop s.past ++ [x]).length = s.exchanges.length - s.past + 1 := by
    rw [List.length_append, List.length_drop, List.length_singleton]
  have hcurrent : (s.exchanges.drop s.past ++ [x])[(s.exchanges.drop s.past ++ [x]).length - 1]? =
      some x := by
    rw [hlen, Nat.add_sub_cancel, ← List.length_drop]
    exact List.getElem?_concat_length
  refine ⟨?_, ?_, ?_, ?_, ?_, ?_,
    hgoing⟩
  · intro i z hz
    change (s.exchanges.drop s.past ++ [x])[i]? = some z at hz
    show z.Stands g r (i + 1 = (s.exchanges.drop s.past ++ [x]).length)
    rw [hlen]
    by_cases hi : i < s.exchanges.length - s.past
    · rw [List.getElem?_append_left (by rw [List.length_drop]; exact hi), List.getElem?_drop] at hz
      refine (h.stands _ z hz).settle ?_ ?_
      · rw [hs.1]
        intro h
        rcases h with ⟨_, ⟨⟩⟩
      · rw [hs.2.1, hs.2.2]
        rintro ⟨_, hl | hl⟩ <;> cases hl
    · have hbound := (List.getElem?_eq_some_iff.mp hz).1
      obtain rfl : i = s.exchanges.length - s.past := by omega
      rw [← List.length_drop, List.getElem?_concat_length] at hz
      obtain rfl : x = z := Option.some.inj hz
      rw [eq_true rfl]
      exact hx
  · show s.taken - s.past ≤ (s.exchanges.drop s.past ++ [x]).length
    rw [hlen]
    omega
  · intro left hw
    show 0 < s.taken - s.past
    have hw' : s.writer = .sending left := hw
    have hpos := h.sending left hw'
    unfold State.past
    rw [hw']
    dsimp only
    omega
  · intro failure hw
    exact absurd hw (writer_ne_ended h hs.2.2 failure)
  · intro hc
    exact ⟨x, hcurrent, hcopying hc⟩
  · intro ha
    refine ⟨?_, x, hcurrent, hanswering ha⟩
    rw [hpast]
    show 0 < (s.exchanges.drop s.past ++ [x]).length
    rw [hlen]
    exact Nat.succ_pos _

/-- No byte of body follows exactly where there is no machine to read it. -/
theorem isNone_iff (f : Framing) : f.isNone = true ↔ BodyState.ofFraming f = none := by
  cases f with
  | none => exact ⟨fun _ => rfl, fun _ => rfl⟩
  | length n =>
    unfold Framing.isNone BodyState.ofFraming
    by_cases hn : n = 0
    · simp [hn]
    · simp [hn]
  | chunked => exact ⟨nofun, nofun⟩
  | untilClose => exact ⟨nofun, nofun⟩

/-- A request without a body gets no pipe, and the reader goes on behind its head. -/
theorem enroll_of_none {framing : Framing} (request : Request)
    (h : BodyState.ofFraming framing = none) :
    g.enroll s request framing =
      { s.enqueue (.start (g.handler s.started request (!framing.isNone)) .nothing
          g.config.pipeSize) with
        reader := .head (.fresh g.store)
        started := s.started + 1 } := by
  unfold enroll
  rw [(isNone_iff framing).mpr h]
  rfl

/-- A request with a body gets a pipe for it, and the reader goes on in the body. -/
theorem enroll_of_some {framing : Framing} {b : BodyState} (request : Request)
    (h : BodyState.ofFraming framing = some b) :
    g.enroll s request framing =
      { s.enqueue (.start (g.handler s.started request (!framing.isNone))
          (.ofCapacity g.config.pipeSize) g.config.pipeSize) with
        reader := .copying b [] none
        started := s.started + 1 } := by
  have hnone : framing.isNone = false := by
    refine eq_false_of_ne_true ?_
    intro hn
    rw [(isNone_iff framing).mp hn] at h
    cases h
  unfold enroll
  rw [hnone, h]
  rfl

/-- Before its first step a handler owes its answer to the body that is to come. -/
theorem owes_start (conduct : Conduct) {pipe : Pipe} (hd : pipe.dropped = false)
    (hc : pipe.content = .empty) (n : Nat) (more : List UInt8) :
    (Exchange.start conduct pipe n).owes more = conduct.answer more := by
  unfold Exchange.owes Exchange.pending Exchange.readable Exchange.start
  dsimp only
  rw [hd, if_neg (by decide), hc]
  rfl

theorem keeps_enroll {request : Request} {framing : Framing} (hs : s.Sound g)
    (hr : s.reader = .offering request framing) : s.Keeps g (g.enroll s request framing) := by
  have hphase : s.reader.isCopying = false ∧ s.reader.isAnswering = false ∧
      s.reader.isEnded = false := by
    rw [hr]
    exact ⟨rfl, rfl, rfl⟩
  have hmore : s.reader.more s.arrivals.toSource = [] := by rw [hr]; rfl
  have hlater : g.later s.started s.arrivals.toSource s.reader =
      g.inBody s.started s.arrivals.toSource.failure request framing s.arrivals.toSource.bytes := by
    rw [hr]
    rfl
  cases hbody : BodyState.ofFraming framing with
  | none =>
    rw [inBody, Framing.yield_of_none hbody] at hlater
    rw [enroll_of_none request hbody]
    have hhead : g.later (s.started + 1) s.arrivals.toSource (.head (.fresh g.store)) =
        g.tell (s.started + 1) s.arrivals.toSource.failure s.arrivals.toSource.bytes :=
      readOn_fresh ..
    refine ⟨sound_enqueue hs hphase _ ⟨rfl, rfl, nofun, nofun, nofun, nofun, nofun⟩ nofun nofun nofun,
      prospect_enqueue hs hmore ?_ ?_, rfl⟩
    · rw [owes_start _ rfl rfl, hlater, hhead]
      rfl
    · rw [hlater, hhead]
      rfl
  | some b =>
    rw [inBody, Framing.yield_of_some hbody] at hlater
    rw [enroll_of_some request hbody]
    refine ⟨sound_enqueue hs hphase _
      ⟨rfl, rfl, nofun, nofun, nofun, fun _ => ⟨trivial, rfl⟩, nofun⟩
      (fun _ => ⟨rfl, rfl, rfl⟩) nofun ?_, prospect_enqueue hs hmore ?_ ?_, rfl⟩
    · intro b' left heq
      cases heq
      exact going_ofFraming hbody
    · rw [owes_start _ rfl rfl, hlater]
      rfl
    · rw [hlater]
      rfl

theorem keeps_refusing {e : MessageError} {status : Nat} (hs : s.Sound g)
    (hr : s.reader = .refusing e status) :
    s.Keeps g { s.enqueue (.refusal g.config.pipeSize) with
      reader := .answering e (Reply.ofStatus status).bytes } := by
  have hphase : s.reader.isCopying = false ∧ s.reader.isAnswering = false ∧
      s.reader.isEnded = false := by
    rw [hr]
    exact ⟨rfl, rfl, rfl⟩
  refine ⟨sound_enqueue hs hphase _ ⟨rfl, rfl, nofun, nofun, nofun, nofun,
    fun _ => ⟨trivial, .inl ⟨rfl, rfl⟩⟩⟩ nofun (fun _ => rfl) nofun,
    prospect_enqueue hs (by rw [hr]; rfl) ?_ ?_, rfl⟩
  · rw [hr]
    exact List.append_nil _
  · rw [hr]
    rfl

/-! ## 4. The reader at an exchange -/

/-- An exchange whose body is dropped owes the same whatever comes of it. -/
theorem owes_of_dropped {more more' : List UInt8} (hd : x.body.dropped = true)
    (hn : x.task.isNobody = false) : x.owes more = x.owes more' := by
  unfold Exchange.owes Exchange.pending Exchange.readable
  cases ht : x.task with
  | nobody =>
    rw [ht] at hn
    cases hn
  | running actions received ending =>
    dsimp only
    rw [if_pos hd, if_pos hd]
  | replying left => rfl
  | done => rfl

/-- What is written into the body pipe no longer has to come. -/
theorem owes_write {body : Pipe} {n : Nat} {left more : List UInt8} (hn : x.task.isNobody = false)
    (hw : x.body.write left = .accepted n body) :
    ({ x with body } : Exchange).owes (left.drop n ++ more) = x.owes (left ++ more) := by
  obtain ⟨hd, hd', _⟩ := Pipe.ends_of_write hw
  unfold Exchange.owes Exchange.pending Exchange.readable
  cases ht : x.task with
  | nobody =>
    rw [ht] at hn
    cases hn
  | running actions received ending =>
    dsimp only
    rw [hd, hd', if_neg (by decide), if_neg (by decide), (Pipe.write_accepted hw).1,
      List.append_assoc, ← List.append_assoc (left.take n), List.take_append_drop]
  | replying left => rfl
  | done => rfl

theorem more_copying (source : Source) (b : BodyState) (left : List UInt8) (total : Option Nat) :
    (Reader.copying b left total).more source = left ++ (Reader.copying b [] total).more source := by
  cases total with
  | none => rfl
  | some n => exact (List.append_nil left).symm

theorem later_copying (g : Engine) (n : Nat) (source : Source) (b : BodyState)
    (left left' : List UInt8) (total : Option Nat) :
    g.later n source (.copying b left total) = g.later n source (.copying b left' total) := by
  cases total <;> rfl

theorem keeps_passOn {b : BodyState} {left : List UInt8} {total : Option Nat} (hs : s.Sound g)
    (hr : s.reader = .copying b left total) (h : passOn? s b left total = some t) :
    s.Keeps g t := by
  obtain ⟨x, hx, hopen, hnobody, hcapacity⟩ := hs.copying (by rw [hr]; rfl)
  have hstands := hs.stands _ x hx
  have hended : s.reader.isEnded = false := by rw [hr]; rfl
  have hgoing : ∀ left' b' l, Reader.copying b left' total = .copying b' l none → b'.Going := by
    intro left' b' l heq
    cases heq
    exact hs.going _ _ hr
  unfold passOn? at h
  rw [hx] at h
  dsimp only at h
  cases hw : x.body.write left with
  | blocked =>
    rw [hw] at h
    cases h
  | broken =>
    rw [hw] at h
    cases h
    have hd := Pipe.write_broken hw
    have hset : s.exchanges = s.exchanges.set s.current x := (set_of_getElem? hx).symm
    refine ⟨sound_set hs hx hset rfl rfl hended ?_ (fun _ => ⟨hopen, hnobody, hcapacity⟩) nofun
      (hgoing _), prospect_set hx hset rfl rfl (owes_of_dropped hd hnobody) ?_, rfl⟩
    · refine ⟨hstands.capacity, hstands.kept, hstands.dropped, hstands.closed, hstands.unclosed,
        fun _ => ⟨trivial, rfl⟩, ?_⟩
      intro hn
      rw [hnobody] at hn
      cases hn
    · rw [hr]
      exact later_copying ..
  | accepted n body =>
    rw [hw] at h
    cases h
    obtain ⟨hd, hd', hclosed, hcap⟩ := Pipe.ends_of_write hw
    refine ⟨sound_set hs hx rfl rfl rfl hended ?_
      (fun _ => ⟨hclosed.trans hopen, hnobody, hcap.trans hcapacity⟩) nofun (hgoing _),
      prospect_set hx rfl rfl rfl ?_ ?_, rfl⟩
    · refine ⟨hstands.capacity, hstands.kept, ?_, hstands.closed, hstands.unclosed,
        fun _ => ⟨trivial, rfl⟩, ?_⟩
      · intro hrun hn
        have hdropped := hstands.dropped hrun hn
        rw [hd] at hdropped
        cases hdropped
      · intro hn
        change x.task.isNobody = true at hn
        rw [hnobody] at hn
        cases hn
    · rw [hr]
      show Exchange.owes { x with body } ((Reader.copying b (left.drop n) total).more _) = _
      rw [more_copying, more_copying _ _ left]
      exact owes_write hnobody hw
    · rw [hr]
      exact later_copying ..

theorem keeps_answer {e : MessageError} {left : List UInt8} (hs : s.Sound g)
    (hr : s.reader = .answering e left) (h : answer? s e left = some t) : s.Keeps g t := by
  obtain ⟨hpast, x, hx, hnobody⟩ := hs.answering (by rw [hr]; rfl)
  have hstands := hs.stands _ x hx
  have hended : s.reader.isEnded = false := by rw [hr]; rfl
  have hclosedBody : x.body.closed = false → False := by
    intro ho
    have hc := (hstands.opened ho).2
    rw [hr] at hc
    cases hc
  have hnotDone : x.task.isDone = false := by
    cases ht : x.task <;> rw [ht] at hnobody <;> first | rfl | cases hnobody
  have howes : ∀ (response : Pipe) more, ({ x with response } : Exchange).owes more =
      response.content.toList ++ more := by
    intro response more
    unfold Exchange.owes Exchange.pending
    cases ht : x.task <;> rw [ht] at hnobody <;> first | rfl | cases hnobody
  unfold answer? at h
  rw [hx] at h
  dsimp only at h
  cases left with
  | nil =>
    cases h
    refine ⟨sound_set hs hx rfl rfl rfl hended ?_ nofun nofun nofun,
      prospect_set hx rfl rfl rfl ?_ ?_, rfl⟩
    · exact ⟨hstands.capacity, hstands.kept, hstands.dropped, fun _ => rfl, fun _ => .inr hnobody,
        fun ho => (hclosedBody ho).elim, fun _ => ⟨trivial, .inr ⟨rfl, rfl⟩⟩⟩
    · rw [howes, hr]
      exact (howes x.response []).symm
    · rw [hr]
      rfl
  | cons b bs =>
    dsimp only at h
    cases hw : x.response.write (b :: bs) with
    | blocked =>
      rw [hw] at h
      cases h
    | broken =>
      have hd := Pipe.write_broken hw
      rw [hstands.kept] at hd
      cases hd
    | accepted n response =>
      rw [hw] at h
      cases h
      obtain ⟨_, hkept, hclosed, hcap⟩ := Pipe.ends_of_write hw
      have hopen : x.response.closed = false := by
        rcases hstands.refused hnobody with ⟨_, ⟨_, ho⟩ | ⟨he, _⟩⟩
        · exact ho
        · rw [hended] at he
          cases he
      refine ⟨sound_set hs hx rfl rfl rfl hended ?_ nofun (fun _ => ⟨hpast, hnobody⟩) nofun,
        prospect_set hx rfl rfl rfl ?_ ?_, rfl⟩
      · refine ⟨hcap.trans hstands.capacity, hkept, hstands.dropped, ?_,
          fun _ => .inr hnobody, fun ho => (hclosedBody ho).elim,
          fun _ => ⟨trivial, .inl ⟨rfl, hclosed.trans hopen⟩⟩⟩
        intro hd
        change x.task.isDone = true at hd
        rw [hnotDone] at hd
        cases hd
      · rw [howes, hr, (Pipe.write_accepted hw).1]
        show _ ++ _ ++ (b :: bs).drop n = ({ x with response := x.response } : Exchange).owes (b :: bs)
        rw [howes, List.append_assoc, List.take_append_drop]
      · rw [hr]
        rfl

/-! ## 5. The reader in a body -/

theorem endBody_eq (hx : s.exchanges[s.current]? = some x) (r : Reader) :
    endBody s r = { s with
      reader := r
      exchanges := s.exchanges.set s.current { x with body := x.body.close } } := by
  unfold endBody
  rw [List.modify_eq_set_getElem?, hx]
  rfl

/-- **The end of a body**: nothing more comes for its exchange, and the reader goes on behind it. -/
theorem keeps_endBody {b : BodyState} {left : List UInt8} {total : Option Nat} {r : Reader}
    (arrivals : Arrivals) (hs : s.Sound g) (hr : s.reader = .copying b left total)
    (hcopying : r.isCopying = false) (hanswering : r.isAnswering = false)
    (hmore : s.reader.more s.arrivals.toSource = [])
    (hlater : g.later s.started arrivals.toSource r = g.later s.started s.arrivals.toSource s.reader) :
    s.Keeps g (endBody { s with arrivals } r) := by
  obtain ⟨x, hx, hopen, hnobody, hcapacity⟩ := hs.copying (by rw [hr]; rfl)
  have hstands := hs.stands _ x hx
  rw [endBody_eq (s := { s with arrivals }) hx]
  refine ⟨sound_set hs hx rfl rfl rfl (by rw [hr]; rfl) ?_ ?_ ?_
    ?_, prospect_set hx rfl rfl rfl ?_ hlater, rfl⟩
  · refine ⟨hstands.capacity, hstands.kept, hstands.dropped, hstands.closed, hstands.unclosed, nofun,
      ?_⟩
    intro hn
    change x.task.isNobody = true at hn
    rw [hnobody] at hn
    cases hn
  · intro hc
    change r.isCopying = true at hc
    rw [hcopying] at hc
    cases hc
  · intro ha
    change r.isAnswering = true at ha
    rw [hanswering] at ha
    cases ha
  · intro b' left' hb
    change r = _ at hb
    rw [hb] at hcopying
    cases hcopying
  · show Exchange.owes _ (r.more arrivals.toSource) = _
    rw [hmore, more_eq_nil hcopying hanswering]
    rfl

/-- The reader goes on in a body, the exchanges as they are. -/
theorem keeps_copying {b b' : BodyState} {left left' : List UInt8} {total total' : Option Nat}
    {arrivals : Arrivals} (hs : s.Sound g) (hr : s.reader = .copying b left total)
    (hgoing : ∀ b₀ l, Reader.copying b' left' total' = .copying b₀ l none → b₀.Going)
    (hmore : (Reader.copying b' left' total').more arrivals.toSource =
      s.reader.more s.arrivals.toSource)
    (hlater : g.later s.started arrivals.toSource (.copying b' left' total') =
      g.later s.started s.arrivals.toSource s.reader) :
    s.Keeps g { s with reader := .copying b' left' total', arrivals } := by
  obtain ⟨x, hx, hopen, hnobody, hcapacity⟩ := hs.copying (by rw [hr]; rfl)
  have hstands := hs.stands _ x hx
  have hset : s.exchanges = s.exchanges.set s.current x := (set_of_getElem? hx).symm
  refine ⟨sound_set hs hx hset rfl rfl (by rw [hr]; rfl) ?_ (fun _ => ⟨hopen, hnobody, hcapacity⟩)
    nofun hgoing, prospect_set hx hset rfl rfl (congrArg _ hmore) hlater, rfl⟩
  refine ⟨hstands.capacity, hstands.kept, hstands.dropped, hstands.closed, hstands.unclosed,
    fun _ => ⟨trivial, rfl⟩, ?_⟩
  intro hn
  rw [hnobody] at hn
  cases hn

section InBody

variable {b : BodyState}

/-- What is to come of a body for its exchange, and behind it. -/
theorem more_of_copying (hr : s.reader = .copying b [] none) :
    s.reader.more s.arrivals.toSource =
        (b.yield s.arrivals.toSource.failure s.arrivals.toSource.bytes).output ∧
      g.later s.started s.arrivals.toSource s.reader = g.behindBody s.started
        s.arrivals.toSource.failure (b.yield s.arrivals.toSource.failure s.arrivals.toSource.bytes) := by
  rw [hr]
  exact ⟨rfl, rfl⟩

/-- The input fails in a body. -/
theorem keeps_bodyFailed {f : Failure} (hs : s.Sound g) (hr : s.reader = .copying b [] none)
    (ha : s.arrivals.available = some (.error f)) : s.Keeps g (readBody s b (.error f)) := by
  obtain ⟨hbytes, hfailure⟩ := Source.bytes_of_available_error (Arrivals.available_toSource ha)
  obtain ⟨hmore, hlater⟩ := more_of_copying (g := g) hr
  rw [hbytes, hfailure, yields_bodyFeeder.atEnd _ b (hs.going b [] hr)] at hmore hlater
  exact keeps_endBody _ hs hr rfl rfl hmore hlater.symm

/-- The input ends in a body: that is its end, or it is cut short. -/
theorem keeps_bodyEnded (hs : s.Sound g) (hr : s.reader = .copying b [] none)
    (ha : s.arrivals.available = some (.ok [])) : s.Keeps g (readBody s b (.ok [])) := by
  obtain ⟨hbytes, hfailure⟩ := Source.bytes_of_available_nil (Arrivals.available_toSource ha)
  obtain ⟨hmore, hlater⟩ := more_of_copying (g := g) hr
  rw [hbytes, hfailure, yields_bodyFeeder.atEnd _ b (hs.going b [] hr)] at hmore hlater
  change _ = g.behindBody s.started none ⟨[], (b.atEnd).map (·, [])⟩ at hlater
  unfold readBody
  dsimp only
  cases hend : b.atEnd with
  | error e =>
    rw [hend] at hlater
    exact keeps_endBody _ hs hr rfl rfl hmore hlater.symm
  | ok total =>
    rw [hend] at hlater
    refine keeps_copying hs hr (by rintro _ _ ⟨⟩) (by rw [hmore]; rfl) ?_
    rw [hlater]
    show g.tell s.started s.arrivals.toSource.failure s.arrivals.toSource.bytes = _
    rw [hfailure, hbytes]
    rfl

/-- What is left of the stream behind the bytes that a step uses up. -/
theorem exists_left {a : Arrivals} {x : UInt8} {xs : List UInt8}
    (ha : a.available = some (.ok (x :: xs))) :
    ∃ later, a.toSource.bytes = (x :: xs) ++ later ∧
      (∀ n, (a.consume n).toSource.failure = a.toSource.failure) ∧
      ∀ n, n ≤ (x :: xs).length → (a.consume n).toSource.bytes = (x :: xs).drop n ++ later := by
  have hsource := Arrivals.available_toSource ha
  obtain ⟨later, _, hbytes⟩ := Source.bytes_of_available hsource
  refine ⟨later.flatten, hbytes, fun n => ?_, fun n hn => ?_⟩
  · rw [Arrivals.toSource_consume, Source.failure_consume]
  · rw [Arrivals.toSource_consume, Source.bytes_consume_append hsource hbytes hn]

/-- There are bytes of a body to read. -/
theorem keeps_bodyFed {x : UInt8} {xs : List UInt8} (hs : s.Sound g)
    (hr : s.reader = .copying b [] none) (ha : s.arrivals.available = some (.ok (x :: xs))) :
    s.Keeps g (readBody s b (.ok (x :: xs))) := by
  obtain ⟨later, hbytes, hfail, hleft⟩ := exists_left ha
  obtain ⟨hmore, hlater⟩ := more_of_copying (g := g) hr
  rw [hbytes] at hmore hlater
  have hgoing := hs.going b [] hr
  unfold readBody
  dsimp only
  cases hv : (bodyFeeder.feed b (x :: xs)).verdict with
  | fault e =>
    rw [yields_bodyFeeder.of_fault _ hgoing hv] at hmore hlater
    exact keeps_endBody _ hs hr rfl rfl hmore hlater.symm
  | more =>
    obtain ⟨hnext, hle, hflat⟩ :=
      yields_bodyFeeder.of_more s.arrivals.toSource.failure hgoing hv later
    rw [hflat] at hmore hlater
    refine keeps_copying hs hr ?_ ?_ ?_
    · intro b₀ l heq
      cases heq
      exact hnext
    · rw [hmore]
      show _ ++ (BodyState.yield _ _ _).output = _
      rw [hfail, hleft _ hle]
      rfl
    · rw [hlater]
      show g.behindBody _ _ (BodyState.yield _ _ _) = _
      rw [hfail, hleft _ hle]
      rfl
  | done total =>
    obtain ⟨hle, hflat⟩ :=
      yields_bodyFeeder.of_done s.arrivals.toSource.failure hgoing hv later
    rw [hflat] at hmore hlater
    refine keeps_copying hs hr (by rintro _ _ ⟨⟩) (by rw [hmore]; rfl) ?_
    rw [hlater]
    show g.tell _ _ _ = _
    rw [hfail, hleft _ hle]
    rfl

/-- **In a body**, the reader goes on as the bytes say. -/
theorem keeps_readBody {r : Except Failure (List UInt8)} (hs : s.Sound g)
    (hr : s.reader = .copying b [] none) (ha : s.arrivals.available = some r) :
    s.Keeps g (readBody s b r) := by
  cases r with
  | error f => exact keeps_bodyFailed hs hr ha
  | ok bytes =>
    cases bytes with
    | nil => exact keeps_bodyEnded hs hr ha
    | cons x xs => exact keeps_bodyFed hs hr ha

end InBody

/-- **What a step of the reader does**, by where the reader is, as long as there is a writer: it reads
    on in a head; it starts a handler, or queues a refusal, where the queue has a place; it goes on
    with the refusal, or with a body; or it goes on behind a body. -/
inductive Reads (g : Engine) (s : State) : State → Prop where
  | head {h : HeadState RequestLine} {r : Except Failure (List UInt8)} (hr : s.reader = .head h)
      (ha : s.arrivals.available = some r) : Reads g s (g.readHead s h r)
  | start {request : Request} {framing : Framing} (hr : s.reader = .offering request framing)
      (hplace : g.hasPlace s = true) : Reads g s (g.enroll s request framing)
  | refuse {e : MessageError} {status : Nat} (hr : s.reader = .refusing e status)
      (hplace : g.hasPlace s = true) :
      Reads g s { s.enqueue (.refusal g.config.pipeSize) with
        reader := .answering e (Reply.ofStatus status).bytes }
  | answer {e : MessageError} {left : List UInt8} {t : State} (hr : s.reader = .answering e left)
      (h : answer? s e left = some t) : Reads g s t
  | passOn {b : BodyState} {left : List UInt8} {total : Option Nat} {t : State}
      (hr : s.reader = .copying b left total) (h : passOn? s b left total = some t) : Reads g s t
  | behind {b : BodyState} {total : Nat} (hr : s.reader = .copying b [] (some total)) :
      Reads g s (endBody s (.head (.fresh g.store)))
  | body {b : BodyState} {r : Except Failure (List UInt8)} (hr : s.reader = .copying b [] none)
      (ha : s.arrivals.available = some r) : Reads g s (readBody s b r)

theorem reads_of_reader? (hs : s.Sound g) (h : g.reader? s = some t) : Reads g s t := by
  unfold reader? at h
  split at h
  · obtain ⟨r, ha, rfl⟩ := Option.map_eq_some_iff.mp h
    exact .head ‹_› ha
  · rename_i request framing hr
    have hwriter : s.writerEnded = false := writerEnded_eq_false hs (by rw [hr]; rfl)
    rw [hwriter, if_neg (by decide)] at h
    split at h
    · cases h
      exact .start hr ‹_›
    · cases h
  · rename_i e status hr
    have hwriter : s.writerEnded = false := writerEnded_eq_false hs (by rw [hr]; rfl)
    rw [hwriter, if_neg (by decide)] at h
    split at h
    · cases h
      exact .refuse hr ‹_›
    · cases h
  · exact .answer ‹_› h
  · exact .passOn ‹_› h
  · cases h
    exact .behind ‹_›
  · obtain ⟨r, ha, rfl⟩ := Option.map_eq_some_iff.mp h
    exact .body ‹_› ha
  · cases h

/-- **A step of the reader** keeps the prospect. -/
theorem keeps_reader (hs : s.Sound g) (h : g.reader? s = some t) : s.Keeps g t := by
  cases reads_of_reader? hs h with
  | head hr ha => exact keeps_readHead hs hr ha
  | start hr _ => exact keeps_enroll hs hr
  | refuse hr _ => exact keeps_refusing hs hr
  | answer hr h => exact keeps_answer hs hr h
  | passOn hr h => exact keeps_passOn hs hr h
  | behind hr =>
    refine keeps_endBody s.arrivals hs hr rfl rfl (by rw [hr]; rfl) ?_
    rw [hr]
    exact readOn_fresh g s.started s.arrivals.toSource
  | body hr ha => exact keeps_readBody hs hr ha

/-- Passing on a body changes the reader and what is in the body's pipe. -/
theorem of_passOn? {b : BodyState} {left : List UInt8} {total : Option Nat}
    (h : passOn? s b left total = some t) :
    ∃ left' exchanges, handled exchanges = handled s.exchanges ∧
      t = { s with reader := .copying b left' total, exchanges } := by
  unfold passOn? at h
  split at h
  · cases h
  · rename_i x hx
    split at h
    · cases h
    · cases h
      exact ⟨[], s.exchanges, rfl, rfl⟩
    · cases h
      refine ⟨_, _, ?_, rfl⟩
      exact handled_set hx rfl

/-- Writing a refusal changes the reader and what is in the refusal's pipe. -/
theorem of_answer? {e : MessageError} {left : List UInt8} (h : answer? s e left = some t) :
    ∃ reader exchanges, (reader.isAnswering = true ∨ reader.isEnded = true) ∧
      handled exchanges = handled s.exchanges ∧ t = { s with reader, exchanges } := by
  unfold answer? at h
  split at h
  · cases h
  · rename_i x hx
    split at h
    · cases h
      refine ⟨_, _, .inr rfl, ?_, rfl⟩
      exact handled_set hx rfl
    · split at h
      · cases h
      · cases h
        exact ⟨_, s.exchanges, .inr rfl, rfl, rfl⟩
      · cases h
        refine ⟨_, _, .inl rfl, ?_, rfl⟩
        exact handled_set hx rfl

/-- The end of a body has nothing to do with the writer, and adds no exchange. -/
theorem frame_endBody (s : State) (r : Reader) :
    (endBody s r).writer = s.writer ∧ (endBody s r).taken = s.taken ∧
      handled (endBody s r).exchanges = handled s.exchanges := by
  refine ⟨rfl, rfl, ?_⟩
  unfold endBody
  rw [List.modify_eq_set_getElem?]
  cases hx : s.exchanges[s.current]? with
  | none => rfl
  | some x => exact handled_set hx rfl

/-- Nor has reading on in a body. -/
theorem frame_readBody (s : State) (b : BodyState) (r : Except Failure (List UInt8)) :
    (readBody s b r).writer = s.writer ∧ (readBody s b r).taken = s.taken ∧
      handled (readBody s b r).exchanges = handled s.exchanges := by
  unfold readBody
  split
  · exact frame_endBody s _
  · split
    · exact frame_endBody s _
    · exact ⟨rfl, rfl, rfl⟩
  · dsimp only
    split
    · exact frame_endBody { s with arrivals := _ } _
    · exact ⟨rfl, rfl, rfl⟩
    · exact ⟨rfl, rfl, rfl⟩

/-- No handler is started in a body. -/
theorem started_readBody (s : State) (b : BodyState) (r : Except Failure (List UInt8)) :
    (readBody s b r).started = s.started := by
  unfold readBody
  split
  · rfl
  · split <;> rfl
  · dsimp only
    split <;> rfl

/-- The reader has nothing to do with the writer. -/
theorem writer_reads (h : Reads g s t) : t.writer = s.writer := by
  cases h with
  | @head h r hr ha => exact (frame_readHead g s h r).2.2.2.1
  | start _ _ | refuse _ _ => rfl
  | answer _ h =>
    obtain ⟨_, _, _, _, rfl⟩ := of_answer? h
    rfl
  | passOn _ h =>
    obtain ⟨_, _, _, rfl⟩ := of_passOn? h
    rfl
  | behind _ => exact (frame_endBody s _).1
  | @body b r _ _ => exact (frame_readBody s b r).1

/-! ## 6. The tasks and the clock -/

/-- **Where exchanges move on by themselves**, what holds of the connection still holds. -/
theorem sound_exchanges (h : s.Sound g) (hlen : t.exchanges.length = s.exchanges.length)
    (hreader : t.reader = s.reader) (htaken : t.taken = s.taken) (hwriter : t.writer = s.writer)
    (hexchanges : ∀ (i : Nat) (y : Exchange), t.exchanges[i]? = some y →
      ∃ x, s.exchanges[i]? = some x ∧ y.Stands g s.reader (i + 1 = s.exchanges.length) ∧
        y.body.closed = x.body.closed ∧ y.body.capacity = x.body.capacity ∧
        y.task.isNobody = x.task.isNobody) : t.Sound g := by
  have hcurrent : t.current = s.current := congrArg (· - 1) hlen
  -- what the last exchange was, it is
  have hlast : ∀ x, s.exchanges[s.current]? = some x → ∃ y, t.exchanges[t.current]? = some y ∧
      y.body.closed = x.body.closed ∧ y.body.capacity = x.body.capacity ∧
      y.task.isNobody = x.task.isNobody := by
    intro x hx
    have hlt : t.current < t.exchanges.length := by
      rw [hcurrent, hlen]
      exact (List.getElem?_eq_some_iff.mp hx).1
    obtain ⟨x', hx', _, hsame⟩ := hexchanges _ _ (List.getElem?_eq_getElem hlt)
    rw [hcurrent, hx] at hx'
    obtain rfl : x = x' := Option.some.inj hx'
    exact ⟨_, List.getElem?_eq_getElem hlt, hsame⟩
  refine ⟨?_, ?_, ?_, ?_, ?_, ?_,
    ?_⟩
  · intro i y hy
    obtain ⟨x, _, hstands, _⟩ := hexchanges i y hy
    rw [hreader, hlen]
    exact hstands
  · rw [htaken, hlen]
    exact h.taken
  · intro left hw
    rw [htaken]
    exact h.sending left (hwriter ▸ hw)
  · intro failure hw
    rw [htaken, hreader, hlen]
    exact h.ended failure (hwriter ▸ hw)
  · intro hc
    obtain ⟨x, hx, hopen, hnobody, hcapacity⟩ := h.copying (hreader ▸ hc)
    obtain ⟨y, hy, hclosed', hcapacity', hnobody'⟩ := hlast x hx
    exact ⟨y, hy, hclosed'.trans hopen, hnobody'.trans hnobody, hcapacity'.trans hcapacity⟩
  · intro ha
    obtain ⟨hpast, x, hx, hnobody⟩ := h.answering (hreader ▸ ha)
    obtain ⟨y, hy, _, _, hnobody'⟩ := hlast x hx
    rw [past_congr hwriter htaken, hlen]
    exact ⟨hpast, y, hy, hnobody'.trans hnobody⟩
  · intro b left hb
    exact h.going b left (hreader ▸ hb)

/-- An exchange that moves on by itself. -/
theorem sound_replace {i : Nat} (h : s.Sound g) (hx : s.exchanges[i]? = some x)
    (hy : y.Stands g s.reader (i + 1 = s.exchanges.length)) (hclosed : y.body.closed = x.body.closed)
    (hcapacity : y.body.capacity = x.body.capacity)
    (hnobody : y.task.isNobody = x.task.isNobody) :
    State.Sound g { s with exchanges := s.exchanges.set i y } := by
  have hlt : i < s.exchanges.length := (List.getElem?_eq_some_iff.mp hx).1
  refine sound_exchanges h List.length_set rfl rfl rfl ?_
  intro j z hz
  change (s.exchanges.set i y)[j]? = some z at hz
  by_cases hj : i = j
  · subst hj
    rw [List.getElem?_set_self hlt] at hz
    obtain rfl : y = z := Option.some.inj hz
    exact ⟨x, hx, hy, hclosed, hcapacity, hnobody⟩
  · rw [List.getElem?_set_ne hj] at hz
    exact ⟨z, hz, h.stands j z hz, rfl, rfl, rfl⟩

/-- What takes a step by itself is the exchange of a handler. -/
theorem isNobody_of_step (h : x.step? = some y) : x.task.isNobody = false := by
  cases Exchange.proceeds_of_step? h with
  | act ht | finish ht | broken ht | write ht =>
    rw [ht]
    rfl

/-- **A step of a task** keeps the prospect. -/
theorem keeps_task {i : Nat} (hs : s.Sound g) (h : task? s i = some t) : s.Keeps g t := by
  obtain ⟨x, y, hx, hy, rfl⟩ := of_task? h
  have hstands := hs.stands i x hx
  obtain ⟨hclosed, hcapacity, hnobody⟩ := Exchange.body_step hy
  have hnobody' : x.task.isNobody = false := isNobody_of_step hy
  -- nothing is to come behind the end of a body
  have hmore : i + 1 = s.exchanges.length → x.body.closed = true →
      s.reader.more s.arrivals.toSource = [] := by
    intro hi hc
    have hcurrent : s.current = i := by
      unfold State.current
      omega
    refine more_eq_nil (eq_false_of_ne_true ?_) (eq_false_of_ne_true ?_) _
    · intro hr
      obtain ⟨z, hz, hopen, _⟩ := hs.copying hr
      rw [hcurrent, hx] at hz
      obtain rfl : x = z := Option.some.inj hz
      rw [hc] at hopen
      cases hopen
    · intro hr
      obtain ⟨_, z, hz, hn⟩ := hs.answering hr
      rw [hcurrent, hx] at hz
      obtain rfl : x = z := Option.some.inj hz
      rw [hnobody'] at hn
      cases hn
  refine ⟨sound_replace hs hx (hstands.step hy) hclosed hcapacity (hnobody.trans hnobody'.symm),
    prospect_congr rfl ?_ rfl, rfl⟩
  show owed ((s.exchanges.set i y).drop s.past) _ = _
  rw [List.drop_set]
  by_cases hi : i < s.past
  · rw [if_pos hi]
  · rw [if_neg hi]
    have hi' : s.past + (i - s.past) = i := by omega
    refine owed_set (by rw [List.getElem?_drop, hi', hx])
      (Exchange.owes_step hy hstands.kept fun _ _ => rfl) ?_
    intro hlast
    refine Exchange.owes_step hy hstands.kept fun _ hc => hmore ?_ hc
    rw [List.length_drop] at hlast
    have := (List.getElem?_eq_some_iff.mp hx).1
    omega

/-- The tasks have nothing to do with the reader, the writer and the queue between them. -/
theorem rests_task {i : Nat} (h : task? s i = some t) : s.Rests t := by
  obtain ⟨x, y, hx, hy, rfl⟩ := of_task? h
  have hnobody := (Exchange.body_step hy).2.2.trans (isNobody_of_step hy).symm
  exact ⟨rfl, rfl, rfl, rfl, handled_set hx hnobody, rfl⟩

theorem frame_elapse (x : Exchange) (ms : Nat) :
    (x.elapse ms).body = x.body ∧ (x.elapse ms).task.isNobody = x.task.isNobody := by
  unfold Exchange.elapse
  split
  · rename_i ht
    rw [ht]
    exact ⟨rfl, rfl⟩
  · exact ⟨rfl, rfl⟩

/-- Time does not change how far the reader and the writer are. -/
theorem rests_clock (h : clock? s = some t) : s.Rests t := by
  obtain ⟨ms, -, rfl⟩ := of_clock? h
  refine ⟨rfl, rfl, rfl, rfl, ?_, ?_⟩
  · unfold handled
    rw [List.map_map]
    exact List.map_congr_left fun x _ => congrArg not (frame_elapse x _).2
  · dsimp only
    split
    · exact Arrivals.toSource_elapse ..
    · rfl

/-- **Waiting** keeps the prospect. -/
theorem keeps_clock (hs : s.Sound g) (h : clock? s = some t) : s.Keeps g t := by
  have hsource := (rests_clock h).source
  obtain ⟨ms, -, rfl⟩ := of_clock? h
  dsimp only at hsource
  refine ⟨sound_exchanges hs (List.length_map _) rfl rfl rfl ?_,
    prospect_congr rfl ?_ ?_, rfl⟩
  · intro i y hy
    change (s.exchanges.map (·.elapse ms))[i]? = some y at hy
    rw [List.getElem?_map, Option.map_eq_some_iff] at hy
    obtain ⟨x, hx, rfl⟩ := hy
    obtain ⟨hbody, hnobody⟩ := frame_elapse x ms
    refine ⟨x, hx, (hs.stands i x hx).elapse ms, ?_, ?_, hnobody⟩
    · rw [hbody]
    · rw [hbody]
  · show owed ((s.exchanges.map (·.elapse ms)).drop s.past) (s.reader.more _) = _
    rw [hsource, ← List.map_drop]
    exact owed_map (fun x m => Exchange.owes_elapse x ms) _ _
  · show g.later _ _ s.reader = _
    rw [hsource]

/-! ## 7. The writer -/

theorem drop_of_getElem? {l : List Exchange} {i : Nat} (h : l[i]? = some x) :
    l.drop i = x :: l.drop (i + 1) := by
  obtain ⟨hi, rfl⟩ := List.getElem?_eq_some_iff.mp h
  exact List.drop_eq_getElem_cons hi

/-- **Where the writer moves on**, what holds of the connection still holds. -/
theorem sound_writer (h : s.Sound g) (hreader : t.reader = s.reader)
    (hexchanges : t.exchanges = s.exchanges) (htaken : t.taken ≤ s.exchanges.length)
    (hsending : ∀ left, t.writer = .sending left → 0 < t.taken)
    (hended : ∀ failure, t.writer = .ended failure →
      failure = none ∧ s.reader.isEnded = true ∧ t.taken = s.exchanges.length)
    (hpast : s.reader.isAnswering = true → t.past < s.exchanges.length) : t.Sound g where
  stands := by
    rw [hreader, hexchanges]
    exact h.stands
  taken := hexchanges ▸ htaken
  sending := hsending
  ended := by
    rw [hreader, hexchanges]
    exact hended
  copying := by
    unfold State.current
    rw [hreader, hexchanges]
    exact h.copying
  answering ha := by
    unfold State.current
    rw [hexchanges]
    rw [hreader] at ha
    exact ⟨hpast ha, (h.answering ha).2⟩
  going := by
    rw [hreader]
    exact h.going

/-- The writer takes the next exchange. -/
theorem keeps_take (hs : s.Sound g) (hw : s.writer = .waiting)
    (hlt : s.taken < s.exchanges.length) :
    s.Keeps g { s with writer := .sending [], taken := s.taken + 1 } := by
  have hpast : State.past { s with writer := .sending [], taken := s.taken + 1 } = s.past := by
    unfold State.past
    rw [hw]
    exact Nat.add_sub_cancel _ _
  refine ⟨sound_writer hs rfl rfl hlt (fun _ _ => Nat.succ_pos _) nofun ?_, ?_, rfl⟩
  · intro ha
    rw [hpast]
    exact (hs.answering ha).1
  · unfold State.prospect
    rw [hpast, hw]
    rfl

/-- A response that is at its end owes nothing. -/
theorem owes_eq_nil {last : Prop} {more : List UInt8} (hstands : x.Stands g s.reader last)
    (hf : x.response.fetch fetchSize = .ended) (hmore : s.reader.isEnded = true → more = []) :
    x.owes more = [] := by
  obtain ⟨hcontent, hclosed⟩ := Pipe.fetch_ended hf
  unfold Exchange.owes Exchange.pending
  rw [hcontent]
  rcases hstands.unclosed hclosed with hd | hn
  · cases ht : x.task <;> rw [ht] at hd <;> first | rfl | cases hd
  · rcases hstands.refused hn with ⟨_, ⟨_, ho⟩ | ⟨he, _⟩⟩
    · rw [ho] at hclosed
      cases hclosed
    · rw [hmore he]
      cases ht : x.task <;> rw [ht] at hn <;> first | rfl | cases hn

/-- The writer is through with a response. -/
theorem keeps_finish (hs : s.Sound g) (hw : s.writer = .sending [])
    (hx : s.exchanges[s.taken - 1]? = some x) (hf : x.response.fetch fetchSize = .ended) :
    s.Keeps g { s with writer := .waiting } := by
  have hpos := hs.sending [] hw
  have hstands := hs.stands _ x hx
  have hended : ∀ source, s.reader.isEnded = true → s.reader.more source = [] := fun source he =>
    more_eq_nil (Reader.exclusive_of_isEnded he).1 (Reader.exclusive_of_isEnded he).2 source
  refine ⟨sound_writer hs rfl rfl hs.taken nofun nofun ?_, ?_, rfl⟩
  · intro ha
    -- the refusal is not at its end
    refine Nat.lt_of_le_of_ne hs.taken ?_
    intro htaken
    obtain ⟨_, z, hz, hn⟩ := hs.answering ha
    have hcurrent : s.current = s.taken - 1 := by
      rw [State.current, ← show s.taken = s.exchanges.length from htaken]
    rw [hcurrent, hx] at hz
    obtain rfl : x = z := Option.some.inj hz
    rcases hstands.refused hn with ⟨_, ⟨_, ho⟩ | ⟨he, _⟩⟩
    · rw [(Pipe.fetch_ended hf).2] at ho
      cases ho
    · rw [(Reader.exclusive_of_isEnded he).2] at ha
      cases ha
  · have hpast : s.past = s.taken - 1 := by
      unfold State.past
      rw [hw]
    have hnext : s.taken - 1 + 1 = s.taken := Nat.sub_add_cancel hpos
    have howed : owed (s.exchanges.drop s.past) (s.reader.more s.arrivals.toSource) =
        owed (s.exchanges.drop s.taken) (s.reader.more s.arrivals.toSource) := by
      rw [hpast, drop_of_getElem? hx, hnext, owed, owes_eq_nil hstands hf, List.nil_append]
      intro he
      rw [hended _ he, ite_self]
    unfold State.prospect
    rw [howed, hw]
    rfl

/-- The writer fetches some of a response. -/
theorem keeps_fetch {bytes : List UInt8} {response : Pipe} (hs : s.Sound g)
    (hw : s.writer = .sending []) (hx : s.exchanges[s.taken - 1]? = some x)
    (hf : x.response.fetch fetchSize = .data bytes response) :
    s.Keeps g { s with
      writer := .sending bytes
      exchanges := s.exchanges.set (s.taken - 1) { x with response } } := by
  have hpos := hs.sending [] hw
  have hstands := hs.stands _ x hx
  have hlt := (List.getElem?_eq_some_iff.mp hx).1
  obtain ⟨hkept, hclosed, hcapacity⟩ := Pipe.ends_of_fetch hf
  have hreplace : State.Sound g
      { s with exchanges := s.exchanges.set (s.taken - 1) { x with response } } := by
    refine sound_replace hs hx ?_ rfl rfl rfl
    refine ⟨hcapacity.trans hstands.capacity, hkept.trans hstands.kept, hstands.dropped, ?_, ?_,
      hstands.opened, ?_⟩
    · rw [hclosed]
      exact hstands.closed
    · rw [hclosed]
      exact hstands.unclosed
    · rw [hclosed]
      exact hstands.refused
  have hpast : s.past = s.taken - 1 := by
    unfold State.past
    rw [hw]
  refine ⟨sound_writer hreplace rfl rfl hreplace.taken (fun _ _ => hpos) nofun ?_, ?_, rfl⟩
  · intro ha
    have hanswering := (hreplace.answering ha).1
    unfold State.past at hanswering
    dsimp only at hanswering
    rw [hw] at hanswering
    exact hanswering
  · have howes : ∀ more, x.owes more = bytes ++ ({ x with response } : Exchange).owes more := by
      intro more
      unfold Exchange.owes
      rw [(Pipe.fetch_data hf).1, List.append_assoc]
      rfl
    have hset : (s.exchanges.set (s.taken - 1) { x with response }).drop (s.taken - 1) =
        { x with response } :: s.exchanges.drop (s.taken - 1 + 1) := by
      rw [drop_of_getElem? (List.getElem?_set_self hlt), List.drop_set_of_lt (Nat.lt_succ_self _)]
    unfold State.prospect
    rw [hw, hpast, drop_of_getElem? hx, owed, howes]
    show Account.mk (bytes ++ owed ((s.exchanges.set (s.taken - 1) { x with response }).drop
      (s.taken - 1)) _ ++ _) _ = _
    rw [hset, owed]
    simp only [Writer.left, List.nil_append, List.append_assoc]

/-- Where the writer sends what it has fetched, or some of it, the same exchanges are past. -/
theorem past_send {left left' : List UInt8} (hw : s.writer = .sending left) (sink : Sink) :
    State.past { s with writer := .sending left', sink } = s.past := by
  unfold State.past
  rw [hw]

/-- The writer has sent some of what it has fetched. -/
theorem sound_send {left left' : List UInt8} (hs : s.Sound g) (hw : s.writer = .sending left)
    (sink : Sink) : State.Sound g { s with writer := .sending left', sink } := by
  refine sound_writer hs rfl rfl hs.taken (fun _ _ => hs.sending _ hw) nofun ?_
  intro ha
  rw [past_send hw]
  exact (hs.answering ha).1

/-- What the writer has fetched is the first of what will be sent. -/
theorem prefix_prospect (g : Engine) {left : List UInt8} (hw : s.writer = .sending left) :
    left <+: (s.prospect g).output := by
  unfold State.prospect
  rw [hw]
  exact ⟨_, (List.append_assoc ..).symm⟩

/-- **What the writer sends** is the first of what was to be sent, and the rest is still to be
    sent. -/
theorem prospect_send (g : Engine) {b : UInt8} {bs : List UInt8} (hw : s.writer = .sending (b :: bs))
    (n : Nat) (sink : Sink) :
    (s.prospect g).output = (b :: bs).take (n + 1) ++
        (State.prospect g { s with writer := .sending (bs.drop n), sink }).output ∧
      (State.prospect g { s with writer := .sending (bs.drop n), sink }).result =
        (s.prospect g).result := by
  refine ⟨?_, rfl⟩
  unfold State.prospect
  rw [past_send hw, hw]
  dsimp only [Writer.left]
  rw [← List.append_assoc, ← List.append_assoc,
    show (b :: bs).take (n + 1) ++ bs.drop n = b :: bs from List.take_append_drop (n + 1) (b :: bs)]

/-- Where the reader is at its end and the writer has sent every response, nothing is to come. -/
theorem prospect_ended (g : Engine) {result : Except MessageError Unit}
    (hr : s.reader = .ended result) (hw : ∀ left, s.writer ≠ .sending left)
    (htaken : s.exchanges.length ≤ s.taken) : s.prospect g = ⟨[], result⟩ := by
  have hleft : s.writer.left = [] ∧ s.past = s.taken := by
    unfold State.past
    cases hwriter : s.writer with
    | waiting => exact ⟨rfl, rfl⟩
    | sending left => exact absurd hwriter (hw left)
    | ended failure => exact ⟨rfl, rfl⟩
  unfold State.prospect
  rw [hleft.1, hleft.2, List.drop_eq_nil_of_le htaken, hr]
  rfl

theorem readerEnded_eq (s : State) : s.readerEnded = s.reader.isEnded := by
  unfold State.readerEnded
  cases s.reader <;> rfl

/-- The writer has ended the output. -/
theorem sound_end (hs : s.Sound g) (htaken : ¬ s.taken < s.exchanges.length)
    (hr : s.readerEnded = true) (sink : Sink) :
    State.Sound g { s with writer := .ended none, sink } := by
  have hended : s.reader.isEnded = true := readerEnded_eq s ▸ hr
  refine sound_writer hs rfl rfl hs.taken nofun ?_ ?_
  · intro failure heq
    cases heq
    exact ⟨rfl, hended, Nat.le_antisymm hs.taken (Nat.le_of_not_lt htaken)⟩
  · intro ha
    rw [(Reader.exclusive_of_isEnded hended).2] at ha
    cases ha

/-- **What a step of the writer does**, by where the writer is: it takes a response out of the queue;
    it comes to the end of the one it holds; it fetches some of it; it sends some of what it fetched,
    or fails to; or it ends the output. -/
inductive Writes (s : State) : State → Prop where
  | take (hw : s.writer = .waiting) (hlt : s.taken < s.exchanges.length) :
      Writes s { s with writer := .sending [], taken := s.taken + 1 }
  | finish {x : Exchange} (hw : s.writer = .sending []) (hx : s.exchanges[s.taken - 1]? = some x)
      (hend : x.response.fetch fetchSize = .ended) : Writes s { s with writer := .waiting }
  | fetch {x : Exchange} {bytes : List UInt8} {response : Pipe} (hw : s.writer = .sending [])
      (hx : s.exchanges[s.taken - 1]? = some x)
      (hfetch : x.response.fetch fetchSize = .data bytes response) :
      Writes s { s with
        writer := .sending bytes
        exchanges := s.exchanges.set (s.taken - 1) { x with response } }
  | send {b : UInt8} {bs : List UInt8} {n : Nat} {sink : Sink} (hw : s.writer = .sending (b :: bs))
      (hwrite : s.sink.write (b :: bs) = .ok (n + 1, sink)) :
      Writes s { s with writer := .sending (bs.drop n), sink }
  | fail {b : UInt8} {bs : List UInt8} {failure : Failure} {sink : Sink}
      (hw : s.writer = .sending (b :: bs))
      (hfails : ∀ n sink, s.sink.write (b :: bs) ≠ .ok (n + 1, sink)) :
      Writes s { s with writer := .ended (some failure), sink }
  | close (hw : s.writer = .waiting) (htaken : ¬ s.taken < s.exchanges.length)
      (hr : s.readerEnded = true) :
      Writes s { s with writer := .ended s.sink.shutdown.1, sink := s.sink.shutdown.2 }

theorem writes_of_writer? (h : writer? s = some t) : Writes s t := by
  unfold writer? at h
  split at h
  · cases h
  · rename_i hw
    split at h
    · cases h
      exact .take hw ‹_›
    · split at h
      · cases h
        exact .close hw ‹_› ‹_›
      · cases h
  · rename_i hw
    split at h
    · cases h
    · rename_i x hx
      split at h
      · cases h
      · cases h
        exact .finish hw hx ‹_›
      · cases h
        exact .fetch hw hx ‹_›
  · rename_i b bs hw
    split at h
    · rename_i hwrite
      cases h
      refine .fail hw fun n sink hok => ?_
      rw [hwrite] at hok
      cases hok
    · rename_i hwrite
      cases h
      refine .fail hw fun n sink hok => ?_
      rw [hwrite] at hok
      cases hok
    · cases h
      exact .send hw ‹_›

/-- **What a step of the writer can be**: it keeps the prospect; it sends some of what it has
    fetched, or fails to; or it comes to its end. -/
theorem writer_cases (hs : s.Sound g) (h : writer? s = some t) :
    s.Keeps g t ∧ t.writerEnded = false ∨
      (∃ (b : UInt8) (bs : List UInt8) (n : Nat) (sink : Sink), s.writer = .sending (b :: bs) ∧
        s.sink.write (b :: bs) = .ok (n + 1, sink) ∧
          t = { s with writer := .sending (bs.drop n), sink }) ∨
      (∃ (b : UInt8) (bs : List UInt8), s.writer = .sending (b :: bs) ∧
        (∀ n sink, s.sink.write (b :: bs) ≠ .ok (n + 1, sink)) ∧
          ∃ failure, t.writer = .ended (some failure)) ∨
      s.writer = .waiting ∧ ¬ s.taken < s.exchanges.length ∧ s.readerEnded = true ∧
        t = { s with writer := .ended s.sink.shutdown.1, sink := s.sink.shutdown.2 } := by
  cases writes_of_writer? h with
  | take hw hlt => exact .inl ⟨keeps_take hs hw hlt, rfl⟩
  | finish hw hx hend => exact .inl ⟨keeps_finish hs hw hx hend, rfl⟩
  | fetch hw hx hfetch => exact .inl ⟨keeps_fetch hs hw hx hfetch, rfl⟩
  | send hw hwrite => exact .inr (.inl ⟨_, _, _, _, hw, hwrite, rfl⟩)
  | fail hw hfails => exact .inr (.inr (.inl ⟨_, _, hw, hfails, _, rfl⟩))
  | close hw htaken hr => exact .inr (.inr (.inr ⟨hw, htaken, hr, rfl⟩))

/-! ## 8. Every step -/

/-- A writer that has failed ends the connection. -/
theorem result?_of_failed {failure : Failure} (h : s.writer = .ended (some failure)) :
    s.result?.isSome = true := by
  unfold State.result?
  rw [h]
  cases s.reader with
  | ended result => cases result <;> rfl
  | _ => rfl

/-- The writer comes to its end, and the output may fail even there. -/
theorem sound_or_result_end (hs : s.Sound g) (htaken : ¬ s.taken < s.exchanges.length)
    (hr : s.readerEnded = true) :
    State.Sound g { s with writer := .ended s.sink.shutdown.1, sink := s.sink.shutdown.2 } ∨
      (State.result? { s with
        writer := .ended s.sink.shutdown.1, sink := s.sink.shutdown.2 }).isSome = true := by
  rcases s.sink.shutdown with ⟨_ | failure, sink⟩
  · exact .inl (sound_end hs htaken hr sink)
  · exact .inr (result?_of_failed rfl)

/-- **A step of the writer** keeps what holds of the connection, or ends it. -/
theorem sound_or_result_writer (hs : s.Sound g) (hstep : writer? s = some t) :
    t.Sound g ∨ t.result?.isSome = true := by
  rcases writer_cases hs hstep with
    ⟨hkeeps, _⟩ | ⟨_, _, _, sink, hw, _, rfl⟩ | ⟨_, _, _, _, hfailed⟩ | ⟨_, htaken, hr, rfl⟩
  · exact .inl hkeeps.sound
  · exact .inl (sound_send hs hw sink)
  · exact .inr (result?_of_failed hfailed.choose_spec)
  · exact sound_or_result_end hs htaken hr

/-- **Every step** keeps what holds of the connection, or ends it, whatever becomes of the output. -/
theorem sound_or_result {p : Party} (hs : s.Sound g) (hstep : g.step? p s = some t) :
    t.Sound g ∨ t.result?.isSome = true := by
  cases (steps_of_step? hstep).2 with
  | reader hr => exact .inl (keeps_reader hs hr).sound
  | writer hw => exact sound_or_result_writer hs hw
  | task ht => exact .inl (keeps_task hs ht).sound
  | clock hc => exact .inl (keeps_clock hs hc).sound

/-- A connection that has ended takes no step. -/
theorem result?_of_step {p : Party} (h : g.step? p s = some t) : s.result? = none :=
  (steps_of_step? h).1

/-- Before the first byte. -/
theorem sound_start (g : Engine) (arrivals : Arrivals) (sink : Sink) :
    (State.start g arrivals sink).Sound g :=
  ⟨nofun, Nat.le_refl 0, nofun, nofun, nofun, nofun, nofun⟩

/-- **At every moment** of a connection that has not ended. -/
theorem sound_of_reaches {arrivals : Arrivals} {sink : Sink}
    (h : Reaches g (.start g arrivals sink) s) : s.Sound g ∨ s.result?.isSome = true := by
  induction h with
  | refl => exact .inl (sound_start g arrivals sink)
  | step p _ hstep ih =>
    rcases ih with hs | hresult
    · exact sound_or_result hs hstep
    · rw [result?_of_step hstep] at hresult
      cases hresult

/-- What takes a step has not ended. -/
theorem sound_of_step {arrivals : Arrivals} {sink : Sink} {p : Party}
    (h : Reaches g (.start g arrivals sink) s) (hstep : g.step? p s = some t) : s.Sound g := by
  refine (sound_of_reaches h).resolve_right fun hresult => ?_
  rw [result?_of_step hstep] at hresult
  cases hresult

/-- **A request that is parsed is served**: the queue is not closed before its writer has ended, and
    with that the connection. -/
theorem enroll_of_step {arrivals : Arrivals} {sink : Sink} {request : Request} {framing : Framing}
    (hs : Reaches g (.start g arrivals sink) s) (hr : s.reader = .offering request framing)
    (hstep : g.step? .reader s = some t) : t = g.enroll s request framing := by
  have hsound := sound_of_step hs hstep
  obtain ⟨-, ⟨hreader⟩⟩ := steps_of_step? hstep
  unfold reader? at hreader
  rw [hr] at hreader
  dsimp only at hreader
  rw [writerEnded_eq_false hsound (by rw [hr]; rfl), if_neg (by decide)] at hreader
  split at hreader
  · exact (Option.some.inj hreader).symm
  · cases hreader

end Engine

/-- **What a connection sends**: `base` was there, `a` is what comes behind it; of that, what the
    connection has not sent yet is its prospect, and there is room for it. -/
structure State.Tells (g : Engine) (base : List UInt8) (a : Account) (s : State) : Prop where
  sound : s.Sound g
  output : s.sink.written.toList ++ (s.prospect g).output = base ++ a.output
  result : (s.prospect g).result = a.result
  takes : s.sink.Takes (s.prospect g).output.length
  shutdown : s.sink.shutdownFailure = none

namespace Engine

variable {g : Engine} {s t : State} {base : List UInt8} {a : Account}

theorem tells_of_keeps (h : s.Tells g base a) (hk : s.Keeps g t) : t.Tells g base a where
  sound := hk.sound
  output := by
    rw [hk.sink, hk.prospect]
    exact h.output
  result := by
    rw [hk.prospect]
    exact h.result
  takes := by
    rw [hk.sink, hk.prospect]
    exact h.takes
  shutdown := by
    rw [hk.sink]
    exact h.shutdown

/-- The writer sends some of what it has fetched. -/
theorem tells_send {b : UInt8} {bs : List UInt8} {n : Nat} {sink : Sink} (h : s.Tells g base a)
    (hw : s.writer = .sending (b :: bs)) (hwrite : s.sink.write (b :: bs) = .ok (n + 1, sink)) :
    State.Tells g base a { s with writer := .sending (bs.drop n), sink } := by
  obtain ⟨hsent, hresult⟩ := prospect_send g hw n sink
  obtain ⟨k, t', hwrite', hle, hwrote, htakes'⟩ :=
    Sink.write_of_takes h.takes (prefix_prospect g hw).length_le
  rw [hwrite] at hwrite'
  obtain ⟨hk, rfl⟩ := Prod.mk.inj (Except.ok.inj hwrite')
  obtain rfl : n = k := Nat.succ.inj hk
  refine ⟨sound_send h.sound hw sink, ?_, hresult.trans h.result, htakes'.mono ?_,
    hwrote.shutdownFailure.trans h.shutdown⟩
  · rw [← h.output, hsent, ← List.append_assoc, ← hwrote.written]
  · rw [hsent, List.length_append, List.length_take, Nat.min_eq_left hle]
    omega

/-- The writer comes to its end. -/
theorem tells_end (h : s.Tells g base a) (hw : s.writer = .waiting)
    (htaken : ¬ s.taken < s.exchanges.length) (hr : s.readerEnded = true) :
    State.Tells g base a
      { s with writer := .ended s.sink.shutdown.1, sink := s.sink.shutdown.2 } := by
  have hshutdown : s.sink.shutdown = (none, { s.sink with closed := true }) := by
    unfold Sink.shutdown
    split
    · rename_i hf
      rw [h.shutdown] at hf
      cases hf
    · rfl
  have hprospect : State.prospect g
      { s with writer := .ended none, sink := { s.sink with closed := true } } = s.prospect g := by
    unfold State.prospect State.past
    rw [hw]
    rfl
  rw [hshutdown]
  refine ⟨sound_end h.sound htaken hr _, ?_, ?_, ?_, h.shutdown⟩
  · rw [hprospect]
    exact h.output
  · rw [hprospect]
    exact h.result
  · rw [hprospect]
    exact h.takes

/-- **A step of the writer** sends the first bytes of the prospect, or none. -/
theorem tells_writer (h : s.Tells g base a) (hstep : writer? s = some t) : t.Tells g base a := by
  rcases writer_cases h.sound hstep with
    ⟨hkeeps, _⟩ | ⟨b, bs, n, sink, hw, hwrite, rfl⟩ | ⟨b, bs, hw, hfails, _⟩ | ⟨hw, htaken, hr, rfl⟩
  · exact tells_of_keeps h hkeeps
  · exact tells_send h hw hwrite
  · -- there is room for all of the prospect
    obtain ⟨k, t', hwrite, _⟩ := Sink.write_of_takes h.takes (prefix_prospect g hw).length_le
    exact absurd hwrite (hfails k t')
  · exact tells_end h hw htaken hr

/-- **Every step** leaves what a connection sends as it is. -/
theorem tells_step {p : Party} (h : s.Tells g base a) (hstep : g.step? p s = some t) :
    t.Tells g base a := by
  cases (steps_of_step? hstep).2 with
  | reader hr => exact tells_of_keeps h (keeps_reader h.sound hr)
  | writer hw => exact tells_writer h hw
  | task ht => exact tells_of_keeps h (keeps_task h.sound ht)
  | clock hc => exact tells_of_keeps h (keeps_clock h.sound hc)

end Engine

end Sluice.Connection
