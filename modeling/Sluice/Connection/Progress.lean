/-
  File:      Sluice/Connection/Progress.lean
  Subject:   Every step brings a connection closer to its end.

  * `Work`, `Work.Less`: what is left to do, in five numbers of falling weight: input, the reader's
    phase, what the reader passes on, the handlers, the responses;
  * `State.work`: what a connection has left to do;
  * `work_step`: every step of every party makes it less, so a connection comes to its end by any
    order of steps.
-/
import Sluice.Connection.Engine

namespace Sluice.Connection

open Sluice.Http Sluice.Wire

/-! ## 1. Work -/

/-- What is left to do. -/
structure Work where
  input : Nat
  phase : Nat
  passing : Nat
  running : Nat
  sending : Nat
  deriving DecidableEq, Repr

namespace Work

/-- Less to do: the first number that differs decides. -/
def Less (a b : Work) : Prop :=
  a.input < b.input ∨ a.input = b.input ∧
    (a.phase < b.phase ∨ a.phase = b.phase ∧
      (a.passing < b.passing ∨ a.passing = b.passing ∧
        (a.running < b.running ∨ a.running = b.running ∧ a.sending < b.sending)))

/-- The five numbers as a tuple. -/
def toTuple (a : Work) : Nat × Nat × Nat × Nat × Nat :=
  (a.input, a.phase, a.passing, a.running, a.sending)

/-- **Work comes to an end.** -/
theorem less_wf : WellFounded Less := by
  have nat : WellFounded (fun a b : Nat => a < b) := Nat.lt_wfRel.wf
  let lex := Prod.lex ⟨_, nat⟩ (Prod.lex ⟨_, nat⟩ (Prod.lex ⟨_, nat⟩ (Prod.lex ⟨_, nat⟩ ⟨_, nat⟩)))
  apply Subrelation.wf (r := InvImage lex.rel toTuple) _ (InvImage.wf toTuple lex.wf)
  rintro ⟨a1, a2, a3, a4, a5⟩ ⟨b1, b2, b3, b4, b5⟩ h
  simp only [Less] at h
  rcases h with h | ⟨rfl, h | ⟨rfl, h | ⟨rfl, h | ⟨rfl, h⟩⟩⟩⟩
  · exact Prod.Lex.left _ _ h
  · exact Prod.Lex.right _ (Prod.Lex.left _ _ h)
  · exact Prod.Lex.right _ (Prod.Lex.right _ (Prod.Lex.left _ _ h))
  · exact Prod.Lex.right _ (Prod.Lex.right _ (Prod.Lex.right _ (Prod.Lex.left _ _ h)))
  · exact Prod.Lex.right _ (Prod.Lex.right _ (Prod.Lex.right _ (Prod.Lex.right _ h)))

instance : WellFoundedRelation Work := ⟨Less, less_wf⟩

variable {a b : Work}

theorem Less.of_input (h : a.input < b.input) : Less a b := by
  unfold Less; omega

theorem Less.of_phase (h : a.input ≤ b.input) (h1 : a.phase < b.phase) : Less a b := by
  unfold Less; omega

theorem Less.of_passing (h : a.input ≤ b.input) (h1 : a.phase ≤ b.phase)
    (h2 : a.passing < b.passing) : Less a b := by
  unfold Less; omega

theorem Less.of_running (h : a.input ≤ b.input) (h1 : a.phase ≤ b.phase)
    (h2 : a.passing ≤ b.passing) (h3 : a.running < b.running) : Less a b := by
  unfold Less; omega

theorem Less.of_sending (h : a.input ≤ b.input) (h1 : a.phase ≤ b.phase)
    (h2 : a.passing ≤ b.passing) (h3 : a.running ≤ b.running) (h4 : a.sending < b.sending) :
    Less a b := by
  unfold Less; omega

end Work

/-! ## 2. The work of a connection -/

/-- The phases of the reader: those between two heads fall, and a head takes up input. -/
def Reader.phase : Reader → Nat
  | .ended _ => 0
  | .answering _ _ => 1
  | .refusing _ _ => 2
  | .head _ => 3
  | .copying _ _ (some _) => 4
  | .copying _ _ none => 5
  | .offering _ _ => 6

/-- The bytes that the reader has and did not pass on. -/
def Reader.passing : Reader → Nat
  | .answering _ left | .copying _ left _ => left.length
  | _ => 0

/-- The steps of the writer up to its next wait. -/
def Writer.work : Writer → Nat
  | .ended _ => 0
  | .waiting => 1
  | .sending left => left.length + 2

/-- What a connection has left to do. -/
def State.work (s : State) : Work where
  input := s.arrivals.load
  phase := s.reader.phase
  passing := s.reader.passing
  running := total (·.runningWork) s.exchanges
  sending := total (·.sendingWork) s.exchanges + 2 * s.queued + s.writer.work

namespace Engine

variable {g : Engine} {s t : State}

theorem phase_refuse_lt (e : MessageError) : (refuse e).phase < 3 := by
  unfold refuse
  split <;> simp [Reader.phase]

theorem work_readHead {h : HeadState RequestLine} {r : Except Failure (List UInt8)}
    (hs : s.reader = .head h) (ha : s.arrivals.available = some r) :
    Work.Less (g.readHead s h r).work s.work := by
  have hph : s.work.phase = 3 := by simp [State.work, hs, Reader.phase]
  unfold readHead
  split
  · exact .of_phase (Nat.le_refl _) (by simp [State.work, hs, Reader.phase])
  · split
    · refine .of_phase (Nat.le_refl _) ?_
      rw [hph]
      exact phase_refuse_lt _
    · exact .of_phase (Nat.le_refl _) (by simp [State.work, hs, Reader.phase])
  · rename_i b bs
    dsimp only
    split
    · refine .of_phase (Arrivals.load_consume_le ..) ?_
      rw [hph]
      exact phase_refuse_lt _
    · rename_i hv
      exact .of_input (Arrivals.load_consume_lt ha (Feeder.consumed_pos _ _ _ _ hv))
    · rename_i hv
      exact .of_input (Arrivals.load_consume_lt ha (consumed_pos_of_head hv))
    · rename_i hv
      have := Arrivals.load_consume_lt ha (consumed_pos_of_head hv)
      split <;> exact .of_input this

theorem work_readBody {b : BodyState} {r : Except Failure (List UInt8)}
    (hs : s.reader = .copying b [] none) (ha : s.arrivals.available = some r) :
    Work.Less (readBody s b r).work s.work := by
  unfold readBody
  split
  · exact .of_phase (Nat.le_refl _) (by simp [State.work, hs, endBody, Reader.phase])
  · split <;>
      exact .of_phase (Nat.le_refl _) (by simp [State.work, hs, endBody, Reader.phase])
  · dsimp only
    split
    · exact .of_phase (Arrivals.load_consume_le ..)
        (by simp [State.work, hs, endBody, Reader.phase])
    · rename_i hv
      exact .of_input (Arrivals.load_consume_lt ha (Feeder.consumed_pos _ _ _ _ hv))
    · exact .of_phase (Arrivals.load_consume_le ..) (by simp [State.work, hs, Reader.phase])

theorem work_passOn {b : BodyState} {left : List UInt8} {total : Option Nat} (hl : left ≠ [])
    (hs : s.reader = .copying b left total) (h : passOn? s b left total = some t) :
    Work.Less t.work s.work := by
  have hphase : ∀ l, (Reader.copying b l total).phase = s.work.phase := by
    intro l
    cases total <;> simp [State.work, hs, Reader.phase]
  have hpass : s.work.passing = left.length := by simp [State.work, hs, Reader.passing]
  have hpos := List.length_pos_iff.mpr hl
  unfold passOn? at h
  split at h
  · cases h
  · split at h
    · cases h
    · cases h
      refine .of_passing (Nat.le_refl _) (Nat.le_of_eq (hphase _)) ?_
      rw [hpass]
      simpa [State.work, Reader.passing] using hpos
    · rename_i hw
      cases h
      have := (Pipe.write_accepted hw).2.2 hl
      refine .of_passing (Nat.le_refl _) (Nat.le_of_eq (hphase _)) ?_
      rw [hpass]
      simp only [State.work, Reader.passing, List.length_drop]
      omega

theorem work_answer {e : MessageError} {left : List UInt8}
    (hs : s.reader = .answering e left) (h : answer? s e left = some t) :
    Work.Less t.work s.work := by
  have hpass : s.work.passing = left.length := by simp [State.work, hs, Reader.passing]
  unfold answer? at h
  split at h
  · cases h
  · split at h
    · cases h
      exact .of_phase (Nat.le_refl _) (by simp [State.work, hs, Reader.phase])
    · split at h
      · cases h
      · cases h
        exact .of_phase (Nat.le_refl _) (by simp [State.work, hs, Reader.phase])
      · rename_i hw
        cases h
        have := (Pipe.write_accepted hw).2.2 (by simp)
        refine .of_passing (Nat.le_refl _) (by simp [State.work, hs, Reader.phase]) ?_
        rw [hpass]
        simp only [State.work, Reader.passing, List.length_drop, List.length_cons]
        omega

/-- **A step of the reader** uses up input, or leads to a lower phase, or passes something on. -/
theorem work_reader (h : g.reader? s = some t) : Work.Less t.work s.work := by
  unfold reader? at h
  split at h
  · obtain ⟨r, ha, rfl⟩ := Option.map_eq_some_iff.mp h
    exact work_readHead ‹_› ha
  · rename_i request framing hs
    have hph : s.work.phase = 6 := by simp [State.work, hs, Reader.phase]
    split at h
    · cases h
      exact .of_phase (Nat.le_refl _) (by simp [State.work, hs, Reader.phase])
    · split at h
      · cases h
        refine .of_phase (Nat.le_refl _) ?_
        rw [hph]
        simp only [enroll, State.work]
        split <;> simp [Reader.phase]
      · cases h
  · rename_i e status hs
    split at h
    · cases h
      exact .of_phase (Nat.le_refl _) (by simp [State.work, hs, Reader.phase])
    · split at h
      · cases h
        exact .of_phase (Nat.le_refl _) (by simp [State.work, hs, Reader.phase])
      · cases h
  · exact work_answer ‹_› h
  · exact work_passOn (by simp) ‹_› h
  · rename_i hs
    cases h
    exact .of_phase (Nat.le_refl _) (by simp [State.work, endBody, hs, Reader.phase])
  · obtain ⟨r, ha, rfl⟩ := Option.map_eq_some_iff.mp h
    exact work_readBody ‹_› ha
  · cases h

/-- **A step of the writer** brings the responses forward. -/
theorem work_writer (h : writer? s = some t) : Work.Less t.work s.work := by
  unfold writer? at h
  split at h
  · cases h
  · rename_i hs
    split at h
    · cases h
      refine .of_sending (Nat.le_refl _) (Nat.le_refl _) (Nat.le_refl _) (Nat.le_refl _) ?_
      simp only [State.work, State.queued, hs, Writer.work, List.length_nil]
      omega
    · split at h
      · cases h
        refine .of_sending (Nat.le_refl _) (Nat.le_refl _) (Nat.le_refl _) (Nat.le_refl _) ?_
        simp [State.work, State.queued, hs, Writer.work]
      · cases h
  · rename_i hs
    split at h
    · cases h
    · rename_i x hx
      split at h
      · cases h
      · cases h
        refine .of_sending (Nat.le_refl _) (Nat.le_refl _) (Nat.le_refl _) (Nat.le_refl _) ?_
        simp [State.work, State.queued, hs, Writer.work]
      · rename_i bytes p hf
        cases h
        have := List.length_pos_iff.mpr ((Pipe.fetch_data hf).2.2 (by decide))
        have hc := Pipe.size_data hf
        have hrun := total_set (·.runningWork) s.exchanges _ x { x with response := p } hx
        have hsend := total_set (·.sendingWork) s.exchanges _ x { x with response := p } hx
        simp only [Exchange.runningWork, Exchange.sendingWork] at hrun hsend
        refine .of_sending (Nat.le_refl _) (Nat.le_refl _) (Nat.le_refl _) ?_ ?_
        · simp only [State.work, Exchange.runningWork]
          omega
        · simp only [State.work, State.queued, hs, Writer.work, List.length_set, List.length_nil,
            Exchange.sendingWork]
          omega
  · rename_i b bs hs
    split at h
    · cases h
      refine .of_sending (Nat.le_refl _) (Nat.le_refl _) (Nat.le_refl _) (Nat.le_refl _) ?_
      simp [State.work, State.queued, hs, Writer.work]
    · cases h
      refine .of_sending (Nat.le_refl _) (Nat.le_refl _) (Nat.le_refl _) (Nat.le_refl _) ?_
      simp [State.work, State.queued, hs, Writer.work]
    · cases h
      refine .of_sending (Nat.le_refl _) (Nat.le_refl _) (Nat.le_refl _) (Nat.le_refl _) ?_
      simp only [State.work, State.queued, hs, Writer.work, List.length_drop, List.length_cons]
      omega

/-- **A step of a task** brings its handler or its response forward. -/
theorem work_task {i : Nat} (h : task? s i = some t) : Work.Less t.work s.work := by
  obtain ⟨x, y, hx, hy, rfl⟩ := of_task? h
  have hrun := total_set (·.runningWork) s.exchanges i x y hx
  have hsend := total_set (·.sendingWork) s.exchanges i x y hx
  rcases Exchange.work_step hy with hlt | ⟨heq, hlt⟩
  · refine .of_running (Nat.le_refl _) (Nat.le_refl _) (Nat.le_refl _) ?_
    simp only [State.work]
    omega
  · refine .of_sending (Nat.le_refl _) (Nat.le_refl _) (Nat.le_refl _) ?_ ?_ <;>
      simp only [State.work, State.queued, List.length_set] <;> omega

/-- **Waiting** brings the input or a handler forward. -/
theorem work_clock (h : clock? s = some t) : Work.Less t.work s.work := by
  obtain ⟨ms, hms, rfl⟩ := of_clock? h
  obtain ⟨hmem, hpos⟩ := List.mem_filter.mp (List.min?_mem hms)
  have hpos : 0 < ms := by simpa using hpos
  have hload : (if s.reading = true then s.arrivals.elapse ms else s.arrivals).load ≤
      s.arrivals.load := by
    split
    · exact Arrivals.load_elapse_le ..
    · exact Nat.le_refl _
  rcases List.mem_append.mp hmem with hmem | hmem
  · split at hmem
    · rename_i hr
      have hw : 0 < s.arrivals.wait := by
        have := List.mem_singleton.mp hmem
        omega
      refine .of_input ?_
      simp only [State.work, hr, if_true]
      exact Arrivals.load_elapse_lt hw hpos
    · cases hmem
  · obtain ⟨x, hx, rfl⟩ := List.mem_map.mp hmem
    refine .of_running hload (Nat.le_refl _) (Nat.le_refl _) ?_
    exact total_map_lt (fun x => Exchange.runningWork_elapse_le x _) hx
      (Exchange.runningWork_elapse_lt hpos hpos)

/-- **Every step makes the work less.** -/
theorem work_step {p : Party} (h : g.step? p s = some t) : Work.Less t.work s.work := by
  cases (steps_of_step? h).2 with
  | reader hr => exact work_reader hr
  | writer hw => exact work_writer hw
  | task ht => exact work_task ht
  | clock hc => exact work_clock hc

end Engine

end Sluice.Connection
