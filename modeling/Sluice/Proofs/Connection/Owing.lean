/-
  File:      Sluice/Proofs/Connection/Owing.lean
  Subject:   What an exchange still owes to the writer.

  * `Exchange.pending`, `owes`: the rest of a response, by what is still to come of the body;
  * `Exchange.Stands`: what holds of an exchange at every moment;
  * **`owes_step`**, `Stands.step`: a step of its task changes neither;
  * `owed`: what the exchanges of a connection owe, in their order.
-/
import Mathlib.Data.List.Basic
import Sluice.Connection.Engine

namespace Sluice.Connection

open Sluice.Http Sluice.Wire

/-! ## 1. Pipes -/

namespace Pipe

variable {p q : Pipe} {most n : Nat} {bytes : List UInt8}

/-- A pipe is at its end when it is closed and empty. -/
theorem fetch_ended (h : p.fetch most = .ended) : p.content.toList = [] ∧ p.closed = true := by
  unfold fetch at h
  by_cases hsize : p.content.size = 0
  · rw [if_pos hsize] at h
    refine ⟨by rw [← List.length_eq_zero_iff, ByteQueue.length_toList, hsize], ?_⟩
    by_cases hclosed : p.closed = true
    · exact hclosed
    · rw [if_neg hclosed] at h
      cases h
  · rw [if_neg hsize] at h
    cases h

/-- Fetching waits for an open pipe that is empty. -/
theorem fetch_blocked (h : p.fetch most = .blocked) : p.content.size = 0 ∧ p.closed = false := by
  unfold fetch at h
  by_cases hsize : p.content.size = 0
  · rw [if_pos hsize] at h
    refine ⟨hsize, ?_⟩
    by_cases hclosed : p.closed = true
    · rw [if_pos hclosed] at h
      cases h
    · exact eq_false_of_ne_true hclosed
  · rw [if_neg hsize] at h
    cases h

/-- Fetching moves no end of a pipe. -/
theorem ends_of_fetch (h : p.fetch most = .data bytes q) :
    q.dropped = p.dropped ∧ q.closed = p.closed ∧ q.capacity = p.capacity := by
  unfold fetch at h
  split at h
  · split at h <;> cases h
  · cases h
    exact ⟨rfl, rfl, rfl⟩

/-- Writing breaks only where nobody fetches. -/
theorem write_broken (h : p.write bytes = .broken) : p.dropped = true := by
  unfold write at h
  by_cases hd : p.dropped = true
  · exact hd
  · rw [if_neg hd] at h
    split at h <;> cases h

/-- Writing waits for a pipe that is full. -/
theorem write_blocked (h : p.write bytes = .blocked) : p.dropped = false ∧ p.room = 0 := by
  unfold write at h
  by_cases hd : p.dropped = true
  · rw [if_pos hd] at h
    cases h
  · rw [if_neg hd] at h
    refine ⟨eq_false_of_ne_true hd, ?_⟩
    by_cases hroom : p.room = 0
    · exact hroom
    · rw [if_neg hroom] at h
      cases h

/-- Writing moves no end of a pipe, and is done where somebody fetches. -/
theorem ends_of_write (h : p.write bytes = .accepted n q) :
    p.dropped = false ∧ q.dropped = false ∧ q.closed = p.closed ∧ q.capacity = p.capacity := by
  unfold write at h
  by_cases hd : p.dropped = true
  · rw [if_pos hd] at h
    cases h
  · rw [if_neg hd] at h
    split at h
    · cases h
    · cases h
      have hd := eq_false_of_ne_true hd
      exact ⟨hd, hd, rfl, rfl⟩

/-- Where writing waits there is something to fetch. -/
theorem size_pos_of_blocked (h : p.write bytes = .blocked) (hcap : 0 < p.capacity) :
    0 < p.content.size := by
  have hroom := (write_blocked h).2
  unfold room at hroom
  omega

end Pipe

/-! ## 2. One exchange -/

/-- The task is that of a handler before its response. -/
def Task.isRunning : Task → Bool
  | .running _ _ _ => true
  | _ => false

/-- The task is over. -/
def Task.isDone : Task → Bool
  | .done => true
  | _ => false

/-- The response is nobody's task. -/
def Task.isNobody : Task → Bool
  | .nobody => true
  | _ => false

theorem Task.exclusive_of_isRunning {t : Task} (h : t.isRunning = true) :
    t.isDone = false ∧ t.isNobody = false := by
  cases t <;> first | exact ⟨rfl, rfl⟩ | cases h

theorem Task.isRunning_of_isDone {t : Task} (h : t.isDone = true) : t.isRunning = false := by
  cases t <;> first | rfl | cases h

/-- The reader passes on a body. -/
def Reader.isCopying : Reader → Bool
  | .copying _ _ _ => true
  | _ => false

/-- The reader writes a refusal. -/
def Reader.isAnswering : Reader → Bool
  | .answering _ _ => true
  | _ => false

/-- The reader is at its end. -/
def Reader.isEnded : Reader → Bool
  | .ended _ => true
  | _ => false

theorem Reader.exclusive_of_isEnded {r : Reader} (h : r.isEnded = true) :
    r.isCopying = false ∧ r.isAnswering = false := by
  cases r <;> first | exact ⟨rfl, rfl⟩ | cases h

namespace Exchange

/-- What the handler can still read, when `more` is still to come through the body pipe. -/
def readable (x : Exchange) (more : List UInt8) : List UInt8 :=
  if x.body.dropped then [] else x.body.content.toList ++ more

/-- What is still to be put into the response pipe. A response that is nobody's task is all to
    come. -/
def pending (x : Exchange) (more : List UInt8) : List UInt8 :=
  match x.task with
  | .nobody => more
  | .running actions received ending =>
    (Ending.resume actions ending).answer received.reverse (x.readable more)
  | .replying left => left
  | .done => []

/-- What the writer is still to fetch. -/
def owes (x : Exchange) (more : List UInt8) : List UInt8 :=
  x.response.content.toList ++ x.pending more

/-- **What holds of an exchange** at every moment: its response pipe is fetched from; a handler that
    has its response has dropped the body; the response pipe is closed when the response is in it;
    only the body of the last exchange is open, and only as long as the reader passes it on; and a
    response that is nobody's task is the last one, and the reader's. -/
structure Stands (g : Engine) (r : Reader) (last : Prop) (x : Exchange) : Prop where
  capacity : x.response.capacity = g.config.pipeSize
  kept : x.response.dropped = false
  dropped : x.task.isRunning = false → x.task.isNobody = false → x.body.dropped = true
  closed : x.task.isDone = true → x.response.closed = true
  unclosed : x.response.closed = true → x.task.isDone = true ∨ x.task.isNobody = true
  opened : x.body.closed = false → last ∧ r.isCopying = true
  refused : x.task.isNobody = true →
    last ∧ (r.isAnswering = true ∧ x.response.closed = false ∨
      r.isEnded = true ∧ x.response.closed = true)

section Step

variable {g : Engine} {r r' : Reader} {last last' : Prop} {x y : Exchange} {more : List UInt8}

/-- An exchange that the reader has no business with stands wherever the reader goes. -/
theorem Stands.settle (h : x.Stands g r last) (hcopying : ¬ (last ∧ r.isCopying = true))
    (hanswering : ¬ (last ∧ (r.isAnswering = true ∨ r.isEnded = true))) : x.Stands g r' last' where
  capacity := h.capacity
  kept := h.kept
  dropped := h.dropped
  closed := h.closed
  unclosed := h.unclosed
  opened ho := absurd (h.opened ho) hcopying
  refused hn := absurd ((h.refused hn).imp_right (Or.imp And.left And.left)) hanswering

/-- Reading a part of the body does not change what becomes of all of it. -/
theorem answer_read {most : Option Nat} {rest : List Action} {ending : List UInt8 → Ending}
    {received bytes body : List UInt8} (h : ∀ n, most = some n → bytes.length ≤ n) :
    (Ending.resume (.read (most.map (· - bytes.length)) :: rest) ending).answer
        (received ++ bytes) body =
      (Ending.resume (.read most :: rest) ending).answer received (bytes ++ body) := by
  cases most with
  | none => simp only [Option.map_none, Ending.answer, collect, leave, List.append_assoc]
  | some n =>
    have hle := h n rfl
    have htake : (bytes ++ body).take n = bytes ++ body.take (n - bytes.length) := by
      rw [List.take_append, List.take_of_length_le hle]
    have hdrop : (bytes ++ body).drop n = body.drop (n - bytes.length) := by
      rw [List.drop_append, List.drop_of_length_le hle, List.nil_append]
    simp only [Option.map_some, Ending.answer, collect, leave, htake, hdrop, List.append_assoc]

/-- Reading where there is nothing to read. -/
theorem answer_read_nil (most : Option Nat) (rest : List Action) (ending : List UInt8 → Ending)
    (received : List UInt8) :
    (Ending.resume (.read most :: rest) ending).answer received [] =
      (Ending.resume rest ending).answer received [] := by
  cases most with
  | none => simp only [Ending.answer, collect, leave, List.nil_append]
  | some n =>
    simp only [Ending.answer, collect, leave, List.take_nil, List.drop_nil, List.nil_append]

/-- Where nothing of the body is left to read, nothing is read. -/
theorem readable_eq_nil {most : Option Nat} (hmore : x.body.closed = true → more = [])
    (h : x.body.dropped = true ∨ x.body.fetch (most.getD x.body.content.size) = .ended) :
    x.readable more = [] := by
  unfold readable
  by_cases hd : x.body.dropped = true
  · rw [if_pos hd]
  · rw [if_neg hd]
    obtain ⟨hcontent, hclosed⟩ := Pipe.fetch_ended (h.resolve_left hd)
    rw [hcontent, hmore hclosed]
    rfl

/-- **An action** does not change what becomes of the body. -/
theorem pending_act {actions : List Action} {received : List UInt8} {ending : List UInt8 → Ending}
    (ht : x.task = .running actions received ending) (hy : x.act? received ending actions = some y)
    (hmore : x.body.closed = true → more = []) : y.pending more = x.pending more := by
  have hx : x.pending more =
      (Ending.resume actions ending).answer received.reverse (x.readable more) := by
    simp only [pending, ht]
  have hnil : (Ending.resume [] ending).answer received.reverse (x.readable more) =
      (ending received.reverse).answer received.reverse (x.readable more) := by
    simp only [Ending.answer, collect, leave, List.append_nil]
  rw [hx]
  cases acts_of_act? hy with
  | resume he | reply he | failed he | crashed he =>
    rw [hnil, he]
    rfl
  | drop | wake => rfl
  | readAll most rest h =>
    show (Ending.resume rest ending).answer received.reverse (x.readable more) = _
    rcases h with rfl | h
    · rfl
    · rw [readable_eq_nil hmore h]
      exact (answer_read_nil most rest ending _).symm
  | @read most bytes body rest hmost hdropped hf =>
    obtain ⟨hcontent, hlen, _⟩ := Pipe.fetch_data hf
    obtain ⟨hdropped', _⟩ := Pipe.ends_of_fetch hf
    have hle : ∀ n, most = some n → bytes.length ≤ n := by
      rintro n rfl
      exact hlen
    unfold pending readable
    dsimp only
    rw [hdropped', hdropped, if_neg (by decide), if_neg (by decide), List.reverseAux_eq,
      List.reverse_append, List.reverse_reverse, hcontent, List.append_assoc]
    exact answer_read hle

/-- An action has nothing to do with the response pipe. -/
theorem response_act {actions : List Action} {received : List UInt8} {ending : List UInt8 → Ending}
    (hy : x.act? received ending actions = some y) : y.response = x.response := by
  cases acts_of_act? hy <;> rfl

/-- An action leads to further actions, or to the response, with the body dropped. It opens and
    closes nothing. -/
theorem task_act {actions : List Action} {received : List UInt8} {ending : List UInt8 → Ending}
    (hy : x.act? received ending actions = some y) :
    (y.task.isRunning = true ∨ (∃ left, y.task = .replying left) ∧ y.body.dropped = true) ∧
      y.body.closed = x.body.closed ∧ y.body.capacity = x.body.capacity := by
  cases acts_of_act? hy with
  | resume | drop | wake | readAll => exact ⟨.inl rfl, rfl, rfl⟩
  | reply | failed | crashed => exact ⟨.inr ⟨⟨_, rfl⟩, rfl⟩, rfl, rfl⟩
  | read rest hmost hdropped hf =>
    obtain ⟨_, hclosed, hcapacity⟩ := Pipe.ends_of_fetch hf
    exact ⟨.inl rfl, hclosed, hcapacity⟩

/-- **A step of the task** leaves what is owed to the writer as it is. -/
theorem owes_step (hy : x.step? = some y) (hkept : x.response.dropped = false)
    (hmore : x.task.isRunning = true → x.body.closed = true → more = []) :
    y.owes more = x.owes more := by
  cases proceeds_of_step? hy with
  | act ht h =>
    have hpending := pending_act ht h (hmore (by rw [ht]; rfl))
    unfold owes
    rw [hpending, response_act h]
  | finish ht =>
    unfold owes pending
    rw [ht]
    rfl
  | broken _ hw =>
    rw [Pipe.write_broken hw] at hkept
    cases hkept
  | write ht hw =>
    unfold owes pending
    rw [ht]
    dsimp only
    rw [(Pipe.write_accepted hw).1, List.append_assoc, List.take_append_drop]

/-- Sleeping leaves it as it is. -/
theorem owes_elapse (x : Exchange) (ms : Nat) : (x.elapse ms).owes more = x.owes more := by
  unfold elapse
  split
  · rename_i left rest received ending ht
    unfold owes pending
    rw [ht]
    rfl
  · rfl

/-- A step of the task neither opens nor closes the body pipe, and is not nobody's. -/
theorem body_step (hy : x.step? = some y) :
    y.body.closed = x.body.closed ∧ y.body.capacity = x.body.capacity ∧
      y.task.isNobody = false := by
  cases proceeds_of_step? hy with
  | act _ h =>
    obtain ⟨htask, hclosed, hcapacity⟩ := task_act h
    refine ⟨hclosed, hcapacity, ?_⟩
    rcases htask with hr | ⟨⟨left, hr⟩, _⟩
    · exact (Task.exclusive_of_isRunning hr).2
    · rw [hr]
      rfl
  | finish | broken | write => exact ⟨rfl, rfl, rfl⟩

/-- **What holds of an exchange** holds after a step of its task. -/
theorem Stands.step (h : x.Stands g r last) (hy : x.step? = some y) : y.Stands g r last := by
  obtain ⟨hopen, _, hnobody⟩ := body_step hy
  have hopened : y.body.closed = false → last ∧ r.isCopying = true := fun ho =>
    h.opened (hopen ▸ ho)
  have hrefused : y.task.isNobody = true →
      last ∧ (r.isAnswering = true ∧ y.response.closed = false ∨
        r.isEnded = true ∧ y.response.closed = true) := by
    rw [hnobody]
    nofun
  cases proceeds_of_step? hy with
  | act ht ha =>
    have hresponse := response_act ha
    have hunclosed : y.response.closed = false := by
      rw [hresponse]
      refine eq_false_of_ne_true ?_
      intro hc
      rcases h.unclosed hc with hd | hd <;> rw [ht] at hd <;> cases hd
    obtain ⟨htask, _⟩ := task_act ha
    refine ⟨hresponse ▸ h.capacity, hresponse ▸ h.kept, ?_, ?_, ?_,
      hopened, hrefused⟩
    · intro hr _
      rcases htask with hr' | ⟨_, hdropped⟩
      · rw [hr'] at hr
        cases hr
      · exact hdropped
    · intro hd
      rcases htask with hr | ⟨⟨left, hr⟩, _⟩
      · rw [(Task.exclusive_of_isRunning hr).1] at hd
        cases hd
      · rw [hr] at hd
        cases hd
    · intro hc
      rw [hunclosed] at hc
      cases hc
  | finish ht =>
    have hdropped : x.body.dropped = true := h.dropped (by rw [ht]; rfl) (by rw [ht]; rfl)
    exact ⟨h.capacity, h.kept, fun _ _ => hdropped, fun _ => rfl, fun _ => .inl rfl, hopened,
      hrefused⟩
  | broken _ hw =>
    have hd := Pipe.write_broken hw
    rw [h.kept] at hd
    cases hd
  | write ht hw =>
    have hdropped : x.body.dropped = true := h.dropped (by rw [ht]; rfl) (by rw [ht]; rfl)
    obtain ⟨_, hkept, hclosed, hcapacity⟩ := Pipe.ends_of_write hw
    refine ⟨hcapacity.trans h.capacity, hkept, fun _ _ => hdropped, nofun, ?_,
      hopened, hrefused⟩
    intro hc
    rcases h.unclosed (hclosed ▸ hc) with hd | hd <;> rw [ht] at hd <;> cases hd

/-- It holds after sleeping. -/
theorem Stands.elapse (h : x.Stands g r last) (ms : Nat) : (x.elapse ms).Stands g r last := by
  unfold Exchange.elapse
  split
  · rename_i left rest received ending ht
    exact ⟨h.capacity, h.kept, nofun, nofun,
      fun hc => (h.unclosed hc).imp (fun hd => by rw [ht] at hd; cases hd)
        (fun hd => by rw [ht] at hd; cases hd), h.opened, nofun⟩
  · exact h

end Step

end Exchange

/-! ## 3. The exchanges of a connection -/

/-- What exchanges owe to the writer, one after the other, when `more` is still to come for the last
    of them. -/
def owed : List Exchange → List UInt8 → List UInt8
  | [], _ => []
  | x :: rest, more => x.owes (if rest.isEmpty then more else []) ++ owed rest more

section Owed

variable {l : List Exchange} {x y : Exchange} {more more' : List UInt8}

theorem owed_concat (l : List Exchange) (x : Exchange) (more : List UInt8) :
    owed (l ++ [x]) more = owed l [] ++ x.owes more := by
  induction l with
  | nil => exact List.append_nil _
  | cons y l ih =>
    have hne : (l ++ [x]).isEmpty = false := by simp
    rw [List.cons_append, owed, hne, ih, owed, ite_self, List.append_assoc]
    rfl

/-- Another exchange in a place that owes the same. -/
theorem owed_set {i : Nat} (hx : l[i]? = some x) (hnone : y.owes [] = x.owes [])
    (hmore : i + 1 = l.length → y.owes more = x.owes more) : owed (l.set i y) more = owed l more := by
  induction l generalizing i with
  | nil => rfl
  | cons z l ih =>
    cases i with
    | zero =>
      obtain rfl : z = x := Option.some.inj hx
      rw [List.set_cons_zero, owed, owed]
      congr 1
      cases l with
      | nil => exact hmore rfl
      | cons w l => exact hnone
    | succ i =>
      have hempty : (l.set i y).isEmpty = l.isEmpty := by cases l <;> cases i <;> rfl
      rw [List.set_cons_succ, owed, owed, hempty,
        ih hx fun hi => hmore (by rw [List.length_cons, hi])]

/-- Another exchange in the last place, with something else to come, that owes the same. -/
theorem owed_set_last (hx : l[l.length - 1]? = some x) (h : y.owes more' = x.owes more) :
    owed (l.set (l.length - 1) y) more' = owed l more := by
  rcases List.eq_nil_or_concat l with rfl | ⟨init, z, rfl⟩
  · rfl
  · rw [List.concat_eq_append] at hx ⊢
    have hlen : (init ++ [z]).length - 1 = init.length := by
      rw [List.length_append, List.length_singleton, Nat.add_sub_cancel]
    rw [hlen, List.getElem?_concat_length] at hx
    obtain rfl : z = x := Option.some.inj hx
    rw [hlen, List.set_append_right _ _ (Nat.le_refl _), Nat.sub_self, List.set_cons_zero, owed_concat,
      owed_concat, h]

/-- Exchanges that owe the same whatever comes. -/
theorem owed_map {f : Exchange → Exchange} (h : ∀ x m, (f x).owes m = x.owes m)
    (l : List Exchange) (more : List UInt8) : owed (l.map f) more = owed l more := by
  induction l with
  | nil => rfl
  | cons x l ih => rw [List.map_cons, owed, owed, List.isEmpty_map, h, ih]

end Owed

end Sluice.Connection
