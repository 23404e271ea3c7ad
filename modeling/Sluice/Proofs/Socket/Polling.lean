/-
  File:      Sluice/Proofs/Socket/Polling.lean
  Subject:   Operations that nobody comes between are runs of the steps of a socket in use.

  * `run_tryRead`, `run_finish`, `run_close`, `run_drop`: the operations of a socket are its checks,
    calls and effects one behind the other;
  * `polledRead`, **`run_read`**: to poll a read until it is over or suspended is to let it make some
    steps;
  * `Traced`, `Written`: a write is a run of turns, whose bytes are the last that the stream took;
    `written_step`, **`written_run`**: so is each write of a socket in use, and so is its answer.
-/
import Sluice.Proofs.Socket.Steps
import Sluice.Proofs.Socket.Writing

namespace Sluice.Socket.Dialogue

open Sluice.Selector

variable {d : Dialogue} {r : Reading} {w : Writing} {bytes : List UInt8}

/-! ## 1. Operations in one piece -/

theorem run_concat (d : Dialogue) (acts : List Act) (a : Act) :
    d.run (acts ++ [a]) = ((d.run acts).step a).2 := by
  rw [run, List.foldl_append]
  rfl

/-- **To try a read** is to look whether the socket is closed, and to call the system if it is not. -/
theorem run_tryRead (hr : d.reading = some r) (hp : r.phase.looks = true) {m : Mood}
    {a : Attempt (List UInt8)} {c : Channel} (htry : d.channel.tryRead m r.most = (a, c)) :
    ∃ acts b, (∀ x ∈ acts ++ [b], x = .checkRead ∨ x = .callRead m) ∧
      (d.run acts).step b = readHears { d with channel := c } r a := by
  cases hc : d.channel.isClosed with
  | true =>
    rw [Channel.tryRead, if_pos hc] at htry
    cases htry
    refine ⟨[], .checkRead, by simp, ?_⟩
    show d.checkRead = _
    simp only [checkRead, hr, if_pos hp, if_pos hc]
    rfl
  | false =>
    have hopen : ¬ d.channel.isClosed = true := hc ▸ Bool.false_ne_true
    rw [Channel.tryRead, if_neg hopen] at htry
    refine ⟨[.checkRead], .callRead m, by simp, ?_⟩
    have hlooks : d.checkRead = (.nothing, { d with reading := some { r with phase := .checked } }) := by
      simp only [checkRead, hr, if_pos hp, if_neg hopen]
    show d.checkRead.2.callRead m = _
    rw [hlooks, callRead_eq rfl rfl, htry]
    cases a <;> rfl

/-- To send no more likewise. -/
theorem run_finish (d : Dialogue) (failure : Option OpError) :
    ∃ acts b, (∀ x ∈ acts ++ [b], x = .finish ∨ x = .callFinish failure) ∧
      (d.run acts).step b = (.finish (d.channel.finish failure).1,
        { d with channel := (d.channel.finish failure).2, finishing := false }) := by
  cases hc : d.channel.isClosed with
  | true =>
    refine ⟨[], .finish, by simp, ?_⟩
    show d.finish = _
    simp only [finish, Channel.finish, if_pos hc]
  | false =>
    have hopen : ¬ d.channel.isClosed = true := hc ▸ Bool.false_ne_true
    refine ⟨[.finish], .callFinish failure, by simp, ?_⟩
    show d.finish.2.callFinish failure = _
    simp only [finish, Channel.finish, if_neg hopen, callFinish]
    rfl

/-- **To close a socket** is to let its closing have one effect after the other. -/
theorem run_close (hc : d.channel.closing = none) :
    d.run [.close, .notify, .shut] = { d with channel := d.channel.close } := by
  have hsteps : d.run [.close, .notify, .shut] = { d with channel := d.channel.mark.notify.shut } := rfl
  rw [hsteps]
  cases hclosed : d.channel.isClosed with
  | true =>
    rw [Channel.close_of_closed hclosed, Channel.mark_of_closed hclosed]
    simp [Channel.notify, Channel.shut, hc]
  | false => rw [Channel.close, if_neg (hclosed ▸ Bool.false_ne_true)]

/-- So it is to drop a handle. -/
theorem run_drop (hc : d.channel.closing = none) :
    d.run [.release, .notify, .shut] = { d with channel := d.channel.drop } := by
  have hsteps : d.run [.release, .notify, .shut] =
      { d with channel := d.channel.release.notify.shut } := rfl
  rw [hsteps]
  by_cases hleft : 1 < d.channel.handles
  · have hmore : d.channel.handles - 1 ≠ 0 := by omega
    rw [Channel.release_of_handles hleft, Channel.drop, if_neg hmore]
    simp [Channel.notify, Channel.shut, hc]
  · have hlast : d.channel.handles - 1 = 0 := by omega
    rw [Channel.release_of_last (by omega), Channel.drop, if_pos hlast, hlast]
    exact run_close (d := { d with channel := { d.channel with handles := 0 } }) hc

/-! ## 2. Reading -/

/-- What polling comes to for a read. -/
def polledRead (d : Dialogue) (r : Reading) : Progress (List UInt8) × Channel → Reply × Dialogue
  | (.done bytes, channel) =>
    (.read (.ok bytes), { d with channel, reading := none, returned := d.returned ++ bytes })
  | (.failed e, channel) => (.read (.error e), { d with channel, reading := none })
  | (.suspended, channel) =>
    (.nothing, { d with channel, reading := some { r with phase := .suspended } })

theorem step_askRead (hr : d.reading = some r) (hp : r.phase = .blocked)
    {refusal : Option OpError} {p : Polled} {c : Channel}
    (hawait : d.channel.await refusal .read = (p, c)) :
    d.step (.askRead refusal) = readLearns { d with channel := c } r p := by
  show d.askRead refusal = _
  rw [askRead_eq hr hp, hawait]

/-- A step that polling a read of at most so many bytes makes. -/
def Polls (most : Nat) (a : Act) : Prop :=
  a = .checkRead ∨ a = .callRead (.serves most) ∨ a = .askRead none

/-- A read that tried in vain asks the selector next. -/
theorem run_tryRead_askRead (hr : d.reading = some r) (hp : r.phase.looks = true) {c c' : Channel}
    (htry : d.channel.tryRead (.serves r.most) r.most = (.wouldBlock, c)) {p : Polled}
    (hawait : c.await none .read = (p, c')) :
    ∃ acts, (∀ x ∈ acts ++ [.askRead none], Polls r.most x) ∧
      (d.run acts).step (.askRead none) = readLearns { d with channel := c' } r p := by
  obtain ⟨acts, b, hacts, heq⟩ := run_tryRead hr hp htry
  refine ⟨acts ++ [b], fun x hx => ?_, ?_⟩
  · rcases List.mem_append.mp hx with hx | hx
    · exact (hacts x hx).imp_right .inl
    · exact .inr (.inr (List.mem_singleton.mp hx))
  · rw [run_concat, heq]
    refine (step_askRead (r := { r with phase := .blocked }) rfl rfl hawait).trans ?_
    cases p <;> rfl

/-- **To poll a read** is to let it look, call the system, and ask the selector, until it is over or
    suspended. -/
theorem run_read (hr : d.reading = some r) (hp : r.phase.looks = true) :
    ∃ acts a, (∀ b ∈ acts ++ [a], Polls r.most b) ∧
      (d.run acts).step a = d.polledRead r (d.channel.read r.most) := by
  obtain ⟨c, hc⟩ : ∃ c, d.channel = c := ⟨_, rfl⟩
  obtain ⟨most, hmost⟩ : ∃ most, r.most = most := ⟨_, rfl⟩
  rw [hc, hmost]
  fun_induction Channel.read c most generalizing d r with
  | case1 c bytes c' htry =>
    subst hc hmost
    obtain ⟨acts, b, hacts, heq⟩ := run_tryRead hr hp htry
    exact ⟨acts, b, fun x hx => (hacts x hx).imp_right .inl, heq⟩
  | case2 c e c' htry =>
    subst hc hmost
    obtain ⟨acts, b, hacts, heq⟩ := run_tryRead hr hp htry
    exact ⟨acts, b, fun x hx => (hacts x hx).imp_right .inl, heq⟩
  | case3 c c' htry => exact absurd htry (Channel.tryRead_serves_ne _ _ _ _)
  | case4 c c' htry e c'' hawait =>
    subst hc hmost
    obtain ⟨acts, hacts, heq⟩ := run_tryRead_askRead hr hp htry hawait
    exact ⟨acts, _, hacts, heq⟩
  | case5 c c' htry c'' hawait =>
    subst hc hmost
    obtain ⟨acts, hacts, heq⟩ := run_tryRead_askRead hr hp htry hawait
    exact ⟨acts, _, hacts, heq⟩
  | case6 c c' htry c'' hawait ih =>
    subst hc hmost
    obtain ⟨acts, hacts, heq⟩ := run_tryRead_askRead hr hp htry hawait
    obtain ⟨later, a, hlater, hlast⟩ :=
      ih (d := { d with channel := c'', reading := some { r with phase := .calling } })
        (r := { r with phase := .calling }) rfl rfl rfl rfl
    refine ⟨acts ++ [.askRead none] ++ later, a, fun x hx => ?_, ?_⟩
    · rw [List.append_assoc, List.mem_append] at hx
      exact hx.elim (hacts x) (hlater x)
    · rw [run, List.foldl_append]
      change ((d.run (acts ++ [.askRead none])).run later).step a = _
      rw [run_concat, heq]
      refine hlast.trans ?_
      rcases c''.read r.most with ⟨p, c⟩
      cases p <;> rfl

/-! ## 3. Writing -/

/-- A write as it came about: a run of turns, whose bytes are the last that the stream took. -/
structure Traced (w : Writing) (taken : List UInt8) : Prop where
  run : ∃ bytes turns, w = .run bytes turns
  last : w.taken <:+ taken

/-- The write that is under way is one that came about so, and has no result. What a step answers to a
    write is the result of one. -/
structure Written (p : Reply × Dialogue) : Prop where
  under : ∀ s, p.2.sending = some s → Traced s.writing p.2.taken ∧ s.writing.result = none
  answer : ∀ r, p.1 = .write r → ∃ w, Traced w p.2.taken ∧ w.result = some r

theorem traced_start (bytes taken : List UInt8) : Traced (.start bytes) taken :=
  ⟨⟨bytes, [], rfl⟩, List.nil_suffix⟩

/-- **A turn**: what the stream takes in its call is taken by the write. -/
theorem Traced.turn {taken : List UInt8} (h : Traced w taken) (t : Turn) :
    Traced (w.turn t) (taken ++ accepted (w.call? t).toList) := by
  obtain ⟨⟨bytes, turns, rfl⟩, ⟨front, rfl⟩⟩ := h
  refine ⟨⟨bytes, turns ++ [t], ?_⟩, front, ?_⟩
  · rw [Writing.run, Writing.run, List.foldl_append]
    rfl
  · rw [Writing.taken_turn, List.append_assoc]

theorem written_carryOn (h : Traced w d.taken) (phase : Phase) : Written (d.carryOn w phase) := by
  unfold carryOn
  cases hw : w.result with
  | some r => exact ⟨nofun, fun r' hr => by cases hr; exact ⟨w, h, hw⟩⟩
  | none => exact ⟨fun s hs => by cases hs; exact ⟨h, hw⟩, nofun⟩

/-- A call of the system is a turn, unless the write is to wait. -/
theorem written_writeHears (h : Traced w d.taken) (hw : w.result = none) (a : Attempt Nat) :
    Written (d.writeHears w a) := by
  have hturn : a ≠ .wouldBlock → Traced (w.answer a) (d.taken ++ Call.accepted ⟨w.left, a⟩) := by
    intro ha
    have hturn := h.turn ⟨false, a, .ok ()⟩
    rwa [Writing.turn_of_answer hw ha, Writing.accepted_call? hw] at hturn
  cases a with
  | wouldBlock => exact written_carryOn h .blocked
  | done n =>
    exact written_carryOn (d := { d with taken := d.taken ++ w.left.take n }) (hturn nofun) .calling
  | interrupted => exact written_carryOn h .calling
  | failed e =>
    have htraced := hturn nofun
    rw [Call.accepted, List.append_nil] at htraced
    exact written_carryOn htraced .calling

/-- So is a wait for readiness, with the call before it. -/
theorem written_writeLearns (h : Traced w d.taken) (hw : w.result = none) (p : Polled) :
    Written (d.writeLearns w p) := by
  have hturn : ∀ wake, Traced (w.resume wake) d.taken := by
    intro wake
    have hturn := h.turn ⟨false, .wouldBlock, wake⟩
    rwa [Writing.turn_of_wouldBlock hw, Writing.accepted_call? hw, Call.accepted,
      List.append_nil] at hturn
  cases p with
  | ready => exact written_carryOn (hturn (.ok ())) .calling
  | pending => exact written_carryOn (hturn (.ok ())) .suspended
  | failed e => exact written_carryOn (hturn (.error (.ofSelect e))) .calling

/-- **A step** of a socket in use. -/
theorem written_step
    (h : ∀ s, d.sending = some s → Traced s.writing d.taken ∧ s.writing.result = none) (a : Act) :
    Written (d.step a) := by
  have hquiet : ∀ p : Reply × Dialogue, p.2.sending = d.sending → p.2.taken = d.taken →
      (∀ r, p.1 = .write r → False) → Written p := by
    intro p hsending htaken hreply
    refine ⟨fun s hs => ?_, fun r hr => (hreply r hr).elim⟩
    rw [htaken]
    exact h s (hsending.symm.trans hs)
  cases a with
  | write bytes => exact written_carryOn (traced_start bytes d.taken) .calling
  | checkWrite =>
    show Written d.checkWrite
    unfold checkWrite
    split
    · exact hquiet _ rfl rfl fun _ hr => by cases hr
    · rename_i s hs
      obtain ⟨htraced, hw⟩ := h s hs
      split
      · split
        · have hturn := htraced.turn ⟨true, .interrupted, .ok ()⟩
          rw [Writing.turn_of_closed hw, Writing.call?_of_closed rfl] at hturn
          exact written_carryOn (by simpa [accepted] using hturn) .calling
        · exact ⟨fun s' hs' => by cases hs'; exact ⟨htraced, hw⟩, fun r hr => by cases hr⟩
      · exact hquiet _ rfl rfl fun _ hr => by cases hr
  | callWrite m =>
    show Written (d.callWrite m)
    unfold callWrite
    split
    · exact hquiet _ rfl rfl fun _ hr => by cases hr
    · rename_i s hs
      obtain ⟨htraced, hw⟩ := h s hs
      split
      · exact written_writeHears htraced hw _
      · exact hquiet _ rfl rfl fun _ hr => by cases hr
  | askWrite refusal =>
    show Written (d.askWrite refusal)
    unfold askWrite
    split
    · exact hquiet _ rfl rfl fun _ hr => by cases hr
    · rename_i s hs
      obtain ⟨htraced, hw⟩ := h s hs
      split
      · exact written_writeLearns
          (d := { d with channel := (d.channel.await refusal .write).2 }) htraced hw _
      · exact hquiet _ rfl rfl fun _ hr => by cases hr
  | checkRead =>
    show Written d.checkRead
    unfold checkRead
    split
    · exact hquiet _ rfl rfl fun _ hr => by cases hr
    · split
      · split <;> exact hquiet _ rfl rfl fun _ hr => by cases hr
      · exact hquiet _ rfl rfl fun _ hr => by cases hr
  | callRead m =>
    have hhears : ∀ c r a, Written (readHears { d with channel := c } r a) := by
      intro c r a
      cases a <;> exact hquiet _ rfl rfl fun _ hr => by cases hr
    show Written (d.callRead m)
    unfold callRead
    split
    · exact hquiet _ rfl rfl fun _ hr => by cases hr
    · split
      · exact hhears (d.channel.callRead m _).2 _ _
      · exact hquiet _ rfl rfl fun _ hr => by cases hr
  | askRead refusal =>
    have hlearns : ∀ c r p, Written (readLearns { d with channel := c } r p) := by
      intro c r p
      cases p <;> exact hquiet _ rfl rfl fun _ hr => by cases hr
    show Written (d.askRead refusal)
    unfold askRead
    split
    · exact hquiet _ rfl rfl fun _ hr => by cases hr
    · split
      · exact hlearns (d.channel.await refusal .read).2 _ _
      · exact hquiet _ rfl rfl fun _ hr => by cases hr
  | finish =>
    show Written d.finish
    unfold finish
    split <;> exact hquiet _ rfl rfl fun _ hr => by cases hr
  | callFinish failure =>
    show Written (d.callFinish failure)
    unfold callFinish
    split <;> exact hquiet _ rfl rfl fun _ hr => by cases hr
  | read | split | close | release | notify | shut | peerSends | peerEnds | event | closeSelector =>
    exact hquiet _ rfl rfl fun _ hr => by cases hr

/-- **Each write of a socket in use** is a run of turns, as long as it is under way and when it is
    answered: its bytes are the last that the stream took. -/
theorem written_run (selectorClosed : Bool) (acts : List Act) (a : Act) :
    Written (((opened selectorClosed).run acts).step a) := by
  refine written_step ?_ a
  suffices h : ∀ d : Dialogue,
      (∀ s, d.sending = some s → Traced s.writing d.taken ∧ s.writing.result = none) →
      ∀ s, (d.run acts).sending = some s →
        Traced s.writing (d.run acts).taken ∧ s.writing.result = none from
    h (opened selectorClosed) nofun
  induction acts with
  | nil => exact fun d hd => hd
  | cons b acts ih => exact fun d hd => ih (d.step b).2 (written_step hd b).under

end Sluice.Socket.Dialogue
