/-
  File:      Sluice/Connection/Schedule.lean
  Subject:   Running a connection to its end.

  * `Engine.firstTask?`: one step of the first task that can take one;
  * `Engine.next?`: one step, of the first party that can take one: the reader, the writer, the
    tasks in their order; time passes only when all of them wait;
  * `Engine.run`, `Engine.serve`: such steps as long as there are any;
  * `reaches_run`, `step?_run`: the run is one of the orders of steps, and it stops only where no
    party can take one.
-/
import Sluice.Connection.Progress

namespace Sluice.Connection

open Sluice.Wire

namespace Engine

variable {g : Engine} {s t : State}

/-! ## 1. The next step -/

/-- The exchanges after a step of the first task that can take one. -/
def firstTask? : List Exchange → Option (List Exchange)
  | [] => none
  | x :: xs =>
    match x.step? with
    | some y => some (y :: xs)
    | none => (firstTask? xs).map (x :: ·)

/-- A step of the first task is the step of a task at some place. -/
theorem exists_of_firstTask? {xs ys : List Exchange} (h : firstTask? xs = some ys) :
    ∃ i x y, xs[i]? = some x ∧ x.step? = some y ∧ ys = xs.set i y := by
  induction xs generalizing ys with
  | nil => cases h
  | cons x xs ih =>
    unfold firstTask? at h
    split at h
    · rename_i y hy
      cases h
      exact ⟨0, x, y, rfl, hy, rfl⟩
    · obtain ⟨zs, hz, rfl⟩ := Option.map_eq_some_iff.mp h
      obtain ⟨i, x', y, hx, hy, rfl⟩ := ih hz
      exact ⟨i + 1, x', y, hx, hy, rfl⟩

/-- If there is no first task, no task can take a step. -/
theorem step?_eq_none_of_firstTask? {xs : List Exchange} (h : firstTask? xs = none) :
    ∀ x ∈ xs, x.step? = none := by
  induction xs with
  | nil => simp
  | cons x xs ih =>
    unfold firstTask? at h
    split at h
    · cases h
    · rename_i hx
      intro y hy
      rcases List.mem_cons.mp hy with rfl | hy
      · exact hx
      · exact ih (Option.map_eq_none_iff.mp h) y hy

/-- The step of the first party that can take one. -/
def next? (g : Engine) (s : State) : Option State :=
  if s.result?.isSome then none
  else
    match g.reader? s with
    | some t => some t
    | none =>
      match writer? s with
      | some t => some t
      | none =>
        match firstTask? s.exchanges with
        | some exchanges => some { s with exchanges }
        | none => clock? s

/-- The next step is a step of some party. -/
theorem exists_step_of_next? (h : g.next? s = some t) : ∃ p, g.step? p s = some t := by
  unfold next? at h
  split at h
  · cases h
  · rename_i hr
    split at h
    · rename_i hp
      exact ⟨.reader, by simp only [step?, hr, hp, Bool.false_eq_true, if_false, h]⟩
    · split at h
      · rename_i hp
        exact ⟨.writer, by simp only [step?, hr, hp, Bool.false_eq_true, if_false, h]⟩
      · split at h
        · rename_i hp
          obtain ⟨i, x, y, hx, hy, rfl⟩ := exists_of_firstTask? hp
          exact ⟨.task i, by
            simp only [step?, hr, task?, hx, hy, Option.map_some, Bool.false_eq_true, if_false, h]⟩
        · exact ⟨.clock, by simp only [step?, hr, Bool.false_eq_true, if_false, h]⟩

/-- If there is no next step, no party can take one. -/
theorem step?_eq_none_of_next? (h : g.next? s = none) (p : Party) : g.step? p s = none := by
  unfold next? at h
  unfold step?
  split
  · rfl
  · rename_i hr
    rw [if_neg hr] at h
    split at h
    · cases h
    · rename_i hreader
      split at h
      · cases h
      · rename_i hwriter
        split at h
        · cases h
        · rename_i htask
          cases p with
          | reader => exact hreader
          | writer => exact hwriter
          | task i =>
            simp only [task?]
            split
            · rfl
            · rename_i x hx
              rw [step?_eq_none_of_firstTask? htask x (List.mem_of_getElem? hx), Option.map_none]
          | clock => exact h

/-! ## 2. Runs -/

/-- Steps as long as there are any. -/
def run (g : Engine) (s : State) : State :=
  match _h : g.next? s with
  | none => s
  | some t => g.run t
termination_by s.work
decreasing_by
  obtain ⟨_, hp⟩ := exists_step_of_next? _h
  exact work_step hp

/-- A connection from its first byte to its end. -/
def serve (g : Engine) (arrivals : Arrivals) (sink : Sink) : State := g.run (.start g arrivals sink)

theorem Reaches.trans {s t u : State} (h : Reaches g s t) (h' : Reaches g t u) : Reaches g s u := by
  induction h' with
  | refl => exact h
  | step p _ hp ih => exact .step p ih hp

/-- The run is one of the orders of steps. -/
theorem reaches_run (s : State) : Reaches g s (g.run s) := by
  fun_induction run g s with
  | case1 s h => exact .refl s
  | case2 s t h ih =>
    obtain ⟨p, hp⟩ := exists_step_of_next? h
    exact (Reaches.step p (.refl s) hp).trans ih

/-- The run stops only where no party is left that can take a step. -/
theorem step?_run (s : State) (p : Party) : g.step? p (g.run s) = none := by
  fun_induction run g s with
  | case1 s h => exact step?_eq_none_of_next? h p
  | case2 s t h ih => exact ih

end Engine

end Sluice.Connection
