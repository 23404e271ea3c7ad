/-
  File:      Sluice/Connection/Exchange.lean
  Subject:   One request and its response, on their way.

  * `Task`: how far the handler of a request is;
  * `Exchange`: the task, the pipe its body comes through, and the pipe its response goes into;
  * `Exchange.act?`, `Exchange.Acts`: what an action of its handler makes of it;
  * `Exchange.step?`, `Exchange.Proceeds`: one step of the task, unless it has to wait;
  * `Exchange.runningWork`, `sendingWork`: what the task still has to do; every step makes one of
    them smaller and a step that enlarges the second makes the first smaller.
-/
import Sluice.Connection.Conduct
import Sluice.Connection.Measure
import Sluice.Connection.Pipe

namespace Sluice.Connection

open Sluice.Http

/-! ## 1. The work of a handler -/

/-- How many steps an action takes at most, reading apart. -/
def Action.cost : Action → Nat
  | .sleep ms => ms + 1
  | .read _ | .drop => 1

/-- How many steps a handler takes at most behind an ending, when it read `received` and can read
    `n` bytes more. -/
def Ending.cost : Ending → List UInt8 → Nat → Nat
  | .resume actions next, received, n =>
    total Action.cost actions + 1 +
      largest n fun l => (next (received ++ l)).cost (received ++ l) (n - l.length)
  | .reply _, _, _ | .failed, _, _ | .crashed, _, _ => 0

/-- How many steps a handler takes at most that has these actions before it. -/
def handlerWork (actions : List Action) (received : List UInt8) (ending : List UInt8 → Ending)
    (n : Nat) : Nat :=
  total Action.cost actions + n + 1 +
    largest n fun l => (ending (received ++ l)).cost (received ++ l) (n - l.length)

section Work

variable {a a' : Action} {actions : List Action} {received bytes : List UInt8}
  {ending : List UInt8 → Ending} {m n : Nat}

theorem Action.cost_pos (a : Action) : 0 < a.cost := by
  cases a <;> simp [Action.cost]

/-- An action done makes the work less. -/
theorem handlerWork_cons_lt (a : Action) :
    handlerWork actions received ending n < handlerWork (a :: actions) received ending n := by
  have := a.cost_pos
  simp only [handlerWork, total_cons]
  omega

/-- A cheaper action in its place makes the work less. -/
theorem handlerWork_head_lt (h : a'.cost < a.cost) :
    handlerWork (a' :: actions) received ending n < handlerWork (a :: actions) received ending n := by
  simp only [handlerWork, total_cons]
  omega

/-- Reading makes the work less: what is read is known, and no longer to be read. -/
theorem handlerWork_read_lt (ha : a'.cost = a.cost) (hb : bytes ≠ []) (hn : n = bytes.length + m) :
    handlerWork (a' :: actions) (received ++ bytes) ending m <
      handlerWork (a :: actions) received ending n := by
  have hpos := List.length_pos_iff.mpr hb
  have hle : (largest m fun l => (ending (received ++ bytes ++ l)).cost (received ++ bytes ++ l)
      (m - l.length)) ≤ largest n fun l => (ending (received ++ l)).cost (received ++ l)
      (n - l.length) := by
    refine largest_le fun l hl => ?_
    have := le_largest (fun l => (ending (received ++ l)).cost (received ++ l) (n - l.length))
      (l := bytes ++ l) (n := n) (by simp only [List.length_append]; omega)
    simpa only [List.append_assoc, List.length_append, hn, Nat.add_sub_add_left] using this
  simp only [handlerWork, total_cons]
  omega

/-- Resuming makes the work less. -/
theorem handlerWork_resume_lt {next : List UInt8 → Ending}
    (h : ending received = .resume actions next) :
    handlerWork actions received next n < handlerWork [] received ending n := by
  have := le_largest (fun l => (ending (received ++ l)).cost (received ++ l) (n - l.length))
    (l := []) (n := n) (Nat.zero_le _)
  simp only [List.append_nil, List.length_nil, Nat.sub_zero, h, Ending.cost] at this
  simp only [handlerWork, total_nil]
  omega

theorem handlerWork_pos : 0 < handlerWork actions received ending n := by
  simp only [handlerWork]
  omega

end Work

/-! ## 2. Exchanges -/

/-- How far a handler is: at its actions, with the bytes read so far, the last one first; writing
    the rest of its response; or done. A response that no handler gives is nobody's task. -/
inductive Task where
  | nobody
  | running (actions : List Action) (received : List UInt8) (ending : List UInt8 → Ending)
  | replying (left : List UInt8)
  | done

/-- A request and its response. -/
structure Exchange where
  task : Task
  body : Pipe
  response : Pipe

namespace Exchange

/-- The exchange of a request whose handler starts. -/
def start (conduct : Conduct) (body : Pipe) (pipeSize : Nat) : Exchange :=
  ⟨.running conduct.actions [] conduct.ending, body, .ofCapacity pipeSize⟩

/-- The exchange of a request that no handler gets. -/
def refusal (pipeSize : Nat) : Exchange := ⟨.nobody, .nothing, .ofCapacity pipeSize⟩

/-- The handler is over: its body is dropped, and its response is to be written. -/
def reply (x : Exchange) (bytes : List UInt8) : Exchange :=
  { x with task := .replying bytes, body := x.body.drop }

/-- The next of the actions: it reads what the body pipe gives, drops the body, or waits. Behind
    the last one the bytes read decide how the handler goes on. -/
def act? (x : Exchange) (received : List UInt8) (ending : List UInt8 → Ending) :
    List Action → Option Exchange
  | [] =>
    match ending received.reverse with
    | .resume actions next => some { x with task := .running actions received next }
    | .reply r => some (x.reply r.bytes)
    | .failed | .crashed => some (x.reply failureAnswer)
  | .drop :: rest => some { x with task := .running rest received ending, body := x.body.drop }
  | .sleep 0 :: rest => some { x with task := .running rest received ending }
  | .sleep (_ + 1) :: _ => none
  | .read (some 0) :: rest => some { x with task := .running rest received ending }
  | .read most :: rest =>
    if x.body.dropped then some { x with task := .running rest received ending }
    else
      match x.body.fetch (most.getD x.body.content.size) with
      | .blocked => none
      | .ended => some { x with task := .running rest received ending }
      | .data bytes body =>
        some { x with
          task := .running (.read (most.map (· - bytes.length)) :: rest)
            (bytes.reverseAux received) ending
          body }

/-- What an action makes of an exchange, for every action that does not have to wait. -/
inductive Acts (x : Exchange) (received : List UInt8) (ending : List UInt8 → Ending) :
    List Action → Exchange → Prop
  | resume {actions : List Action} {next : List UInt8 → Ending}
      (h : ending received.reverse = .resume actions next) :
      Acts x received ending [] { x with task := .running actions received next }
  | reply {r : Reply} (h : ending received.reverse = .reply r) :
      Acts x received ending [] (x.reply r.bytes)
  | failed (h : ending received.reverse = .failed) :
      Acts x received ending [] (x.reply failureAnswer)
  | crashed (h : ending received.reverse = .crashed) :
      Acts x received ending [] (x.reply failureAnswer)
  | drop (rest : List Action) :
      Acts x received ending (.drop :: rest)
        { x with task := .running rest received ending, body := x.body.drop }
  | wake (rest : List Action) :
      Acts x received ending (.sleep 0 :: rest) { x with task := .running rest received ending }
  | readAll (most : Option Nat) (rest : List Action) (h : most = some 0 ∨ x.body.dropped = true ∨
        x.body.fetch (most.getD x.body.content.size) = .ended) :
      Acts x received ending (.read most :: rest) { x with task := .running rest received ending }
  | read {most : Option Nat} {bytes : List UInt8} {body : Pipe} (rest : List Action)
      (hmost : most ≠ some 0) (hdropped : x.body.dropped = false)
      (h : x.body.fetch (most.getD x.body.content.size) = .data bytes body) :
      Acts x received ending (.read most :: rest)
        { x with
          task := .running (.read (most.map (· - bytes.length)) :: rest)
            (bytes.reverseAux received) ending
          body }

theorem acts_of_act? {x y : Exchange} {received : List UInt8} {ending : List UInt8 → Ending}
    {actions : List Action} (h : x.act? received ending actions = some y) :
    Acts x received ending actions y := by
  unfold act? at h
  split at h
  · split at h
    · cases h
      exact .resume ‹_›
    · cases h
      exact .reply ‹_›
    · cases h
      exact .failed ‹_›
    · cases h
      exact .crashed ‹_›
  · cases h
    exact .drop _
  · cases h
    exact .wake _
  · cases h
  · cases h
    exact .readAll _ _ (.inl rfl)
  · rename_i most rest hmost
    by_cases hd : x.body.dropped = true
    · rw [if_pos hd] at h
      cases h
      exact .readAll _ _ (.inr (.inl hd))
    · rw [if_neg hd] at h
      split at h
      · cases h
      · cases h
        exact .readAll _ _ (.inr (.inr ‹_›))
      · cases h
        exact .read _ hmost (eq_false_of_ne_true hd) ‹_›

/-- One step of the task. -/
def step? (x : Exchange) : Option Exchange :=
  match x.task with
  | .nobody | .done => none
  | .running actions received ending => x.act? received ending actions
  | .replying [] => some { x with task := .done, response := x.response.close }
  | .replying (b :: bs) =>
    match x.response.write (b :: bs) with
    | .blocked => none
    | .broken => some { x with task := .done }
    | .accepted n response => some { x with task := .replying ((b :: bs).drop n), response }

/-- What a step makes of an exchange, for every task that does not have to wait. -/
inductive Proceeds (x : Exchange) : Exchange → Prop
  | act {y : Exchange} {actions : List Action} {received : List UInt8} {ending : List UInt8 → Ending}
      (ht : x.task = .running actions received ending)
      (h : x.act? received ending actions = some y) : Proceeds x y
  | finish (ht : x.task = .replying []) :
      Proceeds x { x with task := .done, response := x.response.close }
  | broken {b : UInt8} {bs : List UInt8} (ht : x.task = .replying (b :: bs))
      (h : x.response.write (b :: bs) = .broken) : Proceeds x { x with task := .done }
  | write {b : UInt8} {bs : List UInt8} {n : Nat} {response : Pipe}
      (ht : x.task = .replying (b :: bs))
      (h : x.response.write (b :: bs) = .accepted n response) :
      Proceeds x { x with task := .replying ((b :: bs).drop n), response }

theorem proceeds_of_step? {x y : Exchange} (h : x.step? = some y) : x.Proceeds y := by
  unfold step? at h
  split at h
  · cases h
  · cases h
  · exact .act ‹_› h
  · cases h
    exact .finish ‹_›
  · split at h
    · cases h
    · cases h
      exact .broken ‹_› ‹_›
    · cases h
      exact .write ‹_› ‹_›

/-- How long the task still sleeps. -/
def asleep (x : Exchange) : Nat :=
  match x.task with
  | .running (.sleep ms :: _) _ _ => ms
  | _ => 0

/-- The task sleeps on. -/
def elapse (x : Exchange) (ms : Nat) : Exchange :=
  match x.task with
  | .running (.sleep left :: rest) received ending =>
    { x with task := .running (.sleep (left - ms) :: rest) received ending }
  | _ => x

/-! ## 3. What is left to do -/

/-- What a handler has to do up to its response, with what its body pipe holds. -/
def runningWork (x : Exchange) : Nat :=
  match x.task with
  | .running actions received ending =>
    handlerWork actions received.reverse ending x.body.content.size
  | _ => 0

/-- What is to be done for a response that is known. -/
def sendingWork (x : Exchange) : Nat :=
  2 * x.response.content.size +
    match x.task with
    | .replying left => 3 * left.length + 1
    | _ => 0

/-- A fetch that is to give something gives a byte. -/
theorem ne_nil_of_fetch {x : Exchange} {most : Option Nat} {bytes : List UInt8} {body : Pipe}
    (hmost : most ≠ some 0) (h : x.body.fetch (most.getD x.body.content.size) = .data bytes body) :
    bytes ≠ [] := by
  obtain ⟨_, _, hpos⟩ := Pipe.fetch_data h
  apply hpos
  cases most with
  | none =>
    by_cases hx : x.body.content.size = 0
    · simp only [Pipe.fetch, hx, if_true] at h
      split at h <;> cases h
    · simpa using Nat.pos_of_ne_zero hx
  | some n =>
    cases n with
    | zero => exact absurd rfl hmost
    | succ n => simp

/-- **A step of a running handler** is a step towards its response. -/
theorem runningWork_act {x y : Exchange} {actions : List Action} {received : List UInt8}
    {ending : List UInt8 → Ending} (ht : x.task = .running actions received ending)
    (h : x.act? received ending actions = some y) : y.runningWork < x.runningWork := by
  have hx : x.runningWork = handlerWork actions received.reverse ending x.body.content.size := by
    simp only [runningWork, ht]
  rw [hx]
  cases acts_of_act? h with
  | resume hr => exact handlerWork_resume_lt hr
  | reply | failed | crashed => exact handlerWork_pos
  | drop | wake | readAll => exact handlerWork_cons_lt _
  | read rest hmost hdropped hf =>
    have hrev : ∀ bytes, (bytes.reverseAux received).reverse = received.reverse ++ bytes := by
      simp [List.reverseAux_eq]
    simp only [runningWork, hrev]
    exact handlerWork_read_lt rfl (ne_nil_of_fetch hmost hf) (Pipe.size_data hf)

/-- **A step of a task** is a step towards its response, or towards the end of it. -/
theorem work_step {x y : Exchange} (h : x.step? = some y) :
    y.runningWork < x.runningWork ∨
      y.runningWork = x.runningWork ∧ y.sendingWork < x.sendingWork := by
  cases proceeds_of_step? h with
  | act ht h => exact .inl (runningWork_act ht h)
  | finish ht =>
    right
    simp [runningWork, sendingWork, ht, Pipe.close]
  | broken ht _ =>
    right
    simp [runningWork, sendingWork, ht]
  | write ht hw =>
    right
    obtain ⟨_, hn, hpos⟩ := Pipe.write_accepted hw
    have := hpos (by simp)
    simp only [runningWork, sendingWork, ht, Pipe.size_accepted hw, List.length_drop, true_and]
    omega

/-- **Sleeping** is a step towards the response. -/
theorem runningWork_elapse_lt {x : Exchange} {ms : Nat} (hx : 0 < x.asleep) (hm : 0 < ms) :
    (x.elapse ms).runningWork < x.runningWork := by
  unfold asleep at hx
  unfold elapse
  split at hx
  · rename_i left rest received ending h
    simp only [runningWork, h]
    refine handlerWork_head_lt ?_
    simp only [Action.cost]
    omega
  · cases hx

theorem runningWork_elapse_le (x : Exchange) (ms : Nat) :
    (x.elapse ms).runningWork ≤ x.runningWork := by
  by_cases h : 0 < x.asleep ∧ 0 < ms
  · exact Nat.le_of_lt (runningWork_elapse_lt h.1 h.2)
  · have hx : x.elapse ms = x := by
      unfold elapse
      unfold asleep at h
      split
      · rename_i left rest received ending ht
        have hl : left - ms = left := by
          simp only [ht] at h
          omega
        rw [hl, ← ht]
      · rfl
    exact Nat.le_of_eq (congrArg runningWork hx)

end Exchange

end Sluice.Connection
