/-
  File:      Sluice/Proofs/Socket/Closing.lean
  Subject:   What closing a socket or its selector leaves behind.

  * `Selectable.Attended`: whoever waits for a kind is attended to; what keeps that: `attended_fire`,
    `attended_fail`, `attended_poll`;
  * `Channel.Move`: what can become of a socket in one step, and what every move leaves alone;
  * `Channel.Sound`: which of its three effects the closing of a socket has had so far; `sound_move`;
  * `callRead_of_done`, `callRead_of_not_done`, `callRead_serves`: what a call to read gives;
  * `Sound.await_of_told`, `Sound.await_of_cancelled`: nothing waits where a closed socket has told so,
    or its selector is closed, and `Sound.open_of_armed`: where something is armed, neither is so.
-/
import Sluice.Proofs.Selector.Suspended
import Sluice.Socket.Channel

namespace Sluice.Socket

open Sluice.Selector

/-! ## 1. Whoever waits -/

/-- Whoever waits for the kind will be told: it is armed. -/
def Attended (x : Selectable) (i : Interest) : Prop :=
  x.waiting.contains i = true → x.armed.contains i = true

section Attended

variable {x : Selectable} {i j : Interest}

theorem attended_fire (h : Attended x j) (ready : InterestSet) : Attended (x.fire ready) j := by
  intro hw
  simp only [Selectable.fire, InterestSet.contains_eraseAll, Bool.and_eq_true] at hw ⊢
  exact ⟨h hw.1, hw.2⟩

/-- Where everything has failed nobody waits. -/
theorem attended_fail (x : Selectable) (e : SelectError) (j : Interest) : Attended (x.fail e) j := by
  intro hw
  simp [Selectable.fail] at hw

/-- A look at a kind attends to it if it suspends, and keeps what is attended to of any other. -/
theorem attended_poll (h : Attended x j) {closed : Bool} {refusal : Option OpError}
    (hi : j = i → (x.poll closed refusal i).1 = .pending) :
    Attended (x.poll closed refusal i).2 j := by
  by_cases hj : j = i
  · subst hj
    exact fun _ => Selectable.armed_of_pending (hi rfl)
  · rcases Selectable.poll_cases x i with ⟨e, he⟩ | ⟨hf, hfired⟩ | ⟨hf, hfired, harmed⟩ | hasks
    · rwa [Selectable.poll_of_failure he]
    · rwa [Selectable.poll_of_fired hf hfired]
    · rw [Selectable.poll_of_armed hf hfired harmed]
      intro hw
      rw [InterestSet.contains_insert, decide_eq_false hj, Bool.false_or] at hw
      exact h hw
    · rw [Selectable.poll_of_asks hasks]
      cases closed with
      | true =>
        intro hw
        simp only [if_true, InterestSet.contains_insert, decide_eq_false hj, Bool.false_or] at hw
        exact h hw
      | false =>
        cases refusal with
        | some e => exact attended_fail x _ j
        | none =>
          intro hw
          simp only [Bool.false_eq_true, if_false, InterestSet.contains_insert, decide_eq_false hj,
            Bool.false_or] at hw ⊢
          exact h hw

end Attended

namespace Channel

/-! ## 2. Moves -/

/-- What can become of a socket in one step. -/
inductive Move (c : Channel) : Channel → Prop where
  | stays : Move c c
  | callRead (m : Mood) (most : Nat) : Move c (c.callRead m most).2
  | await (refusal : Option OpError) (i : Interest) : Move c (c.await refusal i).2
  | callFinish (failure : Option OpError) : Move c (c.callFinish failure).2
  | split : Move c c.split
  | mark : Move c c.mark
  | release : Move c c.release
  | notify : Move c c.notify
  | shut : Move c c.shut
  | receive (bytes : List UInt8) : Move c (c.receive bytes)
  | peerEnd : Move c c.peerEnd
  | event (ready : InterestSet) : Move c (c.event ready)
  | cancel : Move c c.cancel

variable {c d : Channel}

-- each effect of closing leaves to the others what is theirs

@[simp] theorem stream_mark (c : Channel) : c.mark.stream = c.stream := by
  unfold mark
  split <;> rfl

@[simp] theorem stream_notify (c : Channel) : c.notify.stream = c.stream := by
  unfold notify
  split <;> rfl

@[simp] theorem selectable_mark (c : Channel) : c.mark.selectable = c.selectable := by
  unfold mark
  split <;> rfl

@[simp] theorem selectable_shut (c : Channel) : c.shut.selectable = c.selectable := by
  unfold shut
  split <;> rfl

@[simp] theorem selectorClosed_mark (c : Channel) : c.mark.selectorClosed = c.selectorClosed := by
  unfold mark
  split <;> rfl

@[simp] theorem selectorClosed_notify (c : Channel) :
    c.notify.selectorClosed = c.selectorClosed := by
  unfold notify
  split <;> rfl

@[simp] theorem selectorClosed_shut (c : Channel) : c.shut.selectorClosed = c.selectorClosed := by
  unfold shut
  split <;> rfl

@[simp] theorem state_notify (c : Channel) : c.notify.state = c.state := by
  unfold notify
  split <;> rfl

@[simp] theorem state_shut (c : Channel) : c.shut.state = c.state := by
  unfold shut
  split <;> rfl

theorem mark_of_closed (h : c.isClosed = true) : c.mark = c := by
  rw [mark, if_pos h]

theorem mark_of_open (h : c.isClosed = false) :
    c.mark = { c with state := .closed, closing := some .notifying } := by
  rw [mark, if_neg (h ▸ Bool.false_ne_true)]

@[simp] theorem isClosed_mark (c : Channel) : c.mark.isClosed = true := by
  unfold mark
  split
  · assumption
  · rfl

/-- A handle that is not the last one is given up and nothing else happens; with the last one the
    closing begins. -/
theorem release_of_handles (h : 1 < c.handles) : c.release = { c with handles := c.handles - 1 } := by
  have hleft : c.handles - 1 ≠ 0 := by omega
  rw [release, if_neg hleft]

theorem release_of_last (h : c.handles ≤ 1) : c.release = { c with handles := 0 }.mark := by
  have hleft : c.handles - 1 = 0 := by omega
  rw [release, if_pos hleft, hleft]

theorem isClosed_release (c : Channel) :
    c.release.isClosed = true ↔ c.isClosed = true ∨ c.handles ≤ 1 := by
  by_cases hleft : 1 < c.handles
  · rw [release_of_handles hleft]
    exact ⟨.inl, fun h => h.resolve_right (by omega)⟩
  · rw [release_of_last (by omega), isClosed_mark]
    exact ⟨fun _ => .inr (by omega), fun _ => rfl⟩

@[simp] theorem stream_release (c : Channel) : c.release.stream = c.stream := by
  by_cases hleft : 1 < c.handles
  · rw [release_of_handles hleft]
  · rw [release_of_last (by omega), stream_mark]

@[simp] theorem selectable_release (c : Channel) : c.release.selectable = c.selectable := by
  by_cases hleft : 1 < c.handles
  · rw [release_of_handles hleft]
  · rw [release_of_last (by omega), selectable_mark]

@[simp] theorem selectorClosed_release (c : Channel) :
    c.release.selectorClosed = c.selectorClosed := by
  by_cases hleft : 1 < c.handles
  · rw [release_of_handles hleft]
  · rw [release_of_last (by omega), selectorClosed_mark]

theorem ends_receive (s : Stream) (bytes : List UInt8) :
    (s.receive bytes).ended = s.ended ∧ (s.receive bytes).isShut = s.isShut := by
  unfold Stream.receive
  split <;> exact ⟨rfl, rfl⟩

/-- A call to read leaves the ends of the stream as they are. -/
theorem ends_readAs (s : Stream) (m : Mood) (most : Nat) :
    (s.readAs m most).2.ended = s.ended ∧ (s.readAs m most).2.isShut = s.isShut := by
  cases m with
  | blocks | interrupts | fails => exact ⟨rfl, rfl⟩
  | serves n =>
    simp only [Stream.readAs, Stream.read]
    split
    · exact ⟨rfl, rfl⟩
    · split <;> exact ⟨rfl, rfl⟩

/-- A call to send no more changes nothing but the stream, and nothing of what came. -/
theorem callFinish_eq (c : Channel) (failure : Option OpError) :
    ∃ finished, (c.callFinish failure).2 = { c with stream := { c.stream with finished } } := by
  cases failure with
  | none => exact ⟨_, rfl⟩
  | some e => exact ⟨_, rfl⟩

/-- An event fires what is armed, or nothing where the socket is not registered. -/
theorem event_eq (c : Channel) (ready : InterestSet) :
    c.event ready = c ∨ c.event ready = { c with selectable := c.selectable.fire ready } := by
  unfold event
  split
  · exact .inr rfl
  · exact .inl rfl

theorem isShut_shut (h : c.stream.isShut = true) : c.shut.stream.isShut = true := by
  unfold shut
  split
  · rfl
  · exact h

/-- **A closed socket stays closed**, and so does a closed selector. A stream that was shut down stays
    so. -/
theorem Move.stays_closed (h : Move c d) :
    (c.isClosed = true → d.isClosed = true) ∧
      (c.selectorClosed = true → d.selectorClosed = true) ∧
      (c.stream.isShut = true → d.stream.isShut = true) := by
  cases h with
  | callRead m most => exact ⟨id, id, (ends_readAs _ m most).2.trans⟩
  | callFinish failure =>
    obtain ⟨finished, h⟩ := callFinish_eq c failure
    rw [h]
    exact ⟨id, id, id⟩
  | mark => exact ⟨fun _ => isClosed_mark c, by simp, by simp⟩
  | release => exact ⟨fun h => (isClosed_release c).mpr (.inl h), by simp, by simp⟩
  | notify => exact ⟨by simp [isClosed], by simp, by simp⟩
  | shut => exact ⟨by simp [isClosed], by simp, isShut_shut⟩
  | receive bytes => exact ⟨id, id, (ends_receive _ bytes).2.trans⟩
  | event ready => rcases event_eq c ready with h | h <;> rw [h] <;> exact ⟨id, id, id⟩
  | cancel => exact ⟨id, fun _ => rfl, id⟩
  | stays | await | split | peerEnd => exact ⟨id, id, id⟩

/-- A stream that is not shut down was not shut down before. -/
theorem Move.was_unshut (h : Move c d) (hd : d.stream.isShut = false) : c.stream.isShut = false := by
  cases hc : c.stream.isShut with
  | false => rfl
  | true => cases hd.symm.trans (h.stays_closed.2.2 hc)

/-! ## 3. Whoever waits at a socket -/

section Attended

variable {j : Interest}

theorem attended_notify (h : Attended c.selectable j) : Attended c.notify.selectable j := by
  unfold notify
  split
  · exact attended_fail _ _ j
  · exact h

theorem attended_cancel (h : Attended c.selectable j) : Attended c.cancel.selectable j := by
  unfold cancel
  dsimp only
  split
  · exact attended_fail _ _ j
  · exact h

end Attended

/-- To shut a stream down takes away nothing that came. -/
@[simp] theorem inbox_shut (c : Channel) : c.shut.stream.inbox = c.stream.inbox := by
  unfold shut
  split <;> rfl

@[simp] theorem ended_shut (c : Channel) : c.shut.stream.ended = c.stream.ended := by
  unfold shut
  split <;> rfl

/-! ## 4. Sound sockets -/

/-- **What holds of a socket**: its selectable is sound, only a closed socket has effects of closing to
    come, it has failed for whoever waits once it told so, and it was shut down by the last of them. -/
structure Sound (c : Channel) : Prop where
  selectable : c.selectable.Sound c.selectorClosed (c.selectable.registered && !c.selectorClosed)
  closing : c.closing.isSome = true → c.isClosed = true
  told : c.isClosed = true → c.closing ≠ some .notifying → c.selectable.failure.isSome = true
  shut : c.stream.isShut = true ↔ c.isClosed = true ∧ c.closing = none

theorem sound_fresh (selectorClosed : Bool) : (fresh .connected selectorClosed).Sound where
  selectable := Selectable.sound_fresh selectorClosed 0
  closing := nofun
  told := nofun
  shut := ⟨nofun, fun h => nomatch h.1⟩

/-- Another selectable in the place of the one there was, with any failure that it had. -/
theorem Sound.with_selectable (h : c.Sound) {x : Selectable} {closed listed : Bool}
    (hx : x.Sound closed listed) (hf : c.selectable.failure.isSome = true → x.failure.isSome = true) :
    Sound { c with selectable := x, selectorClosed := closed } := by
  refine ⟨?_, h.closing, fun hc ht => hf (h.told hc ht), h.shut⟩
  rw [← hx.listed_and]
  exact hx

/-- Another stream in the place of the one there was, shut down if that was. -/
theorem Sound.with_stream (h : c.Sound) {s : Stream} (hs : s.isShut = c.stream.isShut) :
    Sound { c with stream := s } :=
  ⟨h.selectable, h.closing, h.told, hs ▸ h.shut⟩

theorem Sound.with_handles (h : c.Sound) (handles : Nat) : Sound { c with handles } :=
  ⟨h.selectable, h.closing, h.told, h.shut⟩

/-- An open socket was not shut down. -/
theorem Sound.unshut_of_open (h : c.Sound) (hc : c.isClosed = false) : c.stream.isShut = false := by
  cases hs : c.stream.isShut with
  | false => rfl
  | true => cases hc.symm.trans (h.shut.mp hs).1

theorem Sound.mark (h : c.Sound) : c.mark.Sound := by
  cases hc : c.isClosed with
  | true => rwa [mark_of_closed hc]
  | false =>
    rw [mark_of_open hc]
    refine ⟨h.selectable, fun _ => rfl, fun _ ht => absurd rfl ht, ?_⟩
    show c.stream.isShut = true ↔ _
    rw [h.unshut_of_open hc]
    exact ⟨nofun, fun hs => nomatch hs.2⟩

theorem Sound.notify (h : c.Sound) : c.notify.Sound := by
  unfold Channel.notify
  split
  · rename_i hn
    refine ⟨?_, fun _ => h.closing (hn ▸ rfl), fun _ _ => ?_, ?_⟩
    · have hs := Selectable.sound_notifyClosed h.selectable
      exact hs.listed_and ▸ hs
    · show (c.selectable.notifyClosed).failure.isSome = true
      rw [Selectable.notifyClosed, Selectable.failure_fail]
      rfl
    · show c.stream.isShut = true ↔ _
      have hunshut : ¬ c.stream.isShut = true := fun hs => by
        cases hn.symm.trans (h.shut.mp hs).2
      exact ⟨fun hs => absurd hs hunshut, nofun⟩
  · exact h

theorem Sound.shutDown (h : c.Sound) : c.shut.Sound := by
  unfold Channel.shut
  split
  · rename_i hn
    have hc : c.isClosed = true := h.closing (hn ▸ rfl)
    refine ⟨h.selectable, nofun, fun _ _ => h.told hc ?_, fun _ => ⟨hc, rfl⟩, fun _ => rfl⟩
    rw [hn]
    nofun
  · exact h

/-- **A move** leaves a socket sound. -/
theorem sound_move (h : c.Sound) (hd : Move c d) : d.Sound := by
  cases hd with
  | stays => exact h
  | callRead m most => exact h.with_stream (ends_readAs _ m most).2
  | await refusal i =>
    have hfailed : c.selectable.failure.isSome = true →
        (c.selectable.poll c.selectorClosed refusal i).2.failure.isSome = true := by
      intro hf
      obtain ⟨e, he⟩ := Option.isSome_iff_exists.mp hf
      rwa [Selectable.poll_of_failure he]
    exact h.with_selectable (Selectable.sound_poll h.selectable refusal i) hfailed
  | callFinish failure =>
    obtain ⟨finished, hc⟩ := callFinish_eq c failure
    rw [hc]
    exact h.with_stream rfl
  | split => exact h.with_handles 2
  | mark => exact h.mark
  | release =>
    by_cases hleft : 1 < c.handles
    · rw [release_of_handles hleft]
      exact h.with_handles _
    · rw [release_of_last (by omega)]
      exact (h.with_handles 0).mark
  | notify => exact h.notify
  | shut => exact h.shutDown
  | receive bytes => exact h.with_stream (ends_receive _ bytes).2
  | peerEnd => exact h.with_stream rfl
  | event ready =>
    rcases event_eq c ready with hc | hc <;> rw [hc]
    · exact h
    · exact h.with_selectable (Selectable.sound_fire h.selectable ready) id
  | cancel =>
    refine h.with_selectable (Selectable.sound_cancel h.selectable) fun hf => ?_
    split
    · rw [Selectable.failure_fail]
      rfl
    · exact hf

/-- **Where a kind is armed**, the socket is open, or whoever waits is still to be told; the selector is
    not closed, and the poller is to watch for the kind. -/
theorem Sound.open_of_armed (h : c.Sound) {i : Interest} (hi : c.selectable.armed.contains i = true) :
    (c.isClosed = true → c.closing = some .notifying) ∧ c.selectorClosed = false ∧
      c.selectable.mask.contains i = true := by
  have hf := h.selectable.failure i hi
  refine ⟨fun hc => ?_, ?_, h.selectable.mask i hi⟩
  · by_cases ht : c.closing = some .notifying
    · exact ht
    · have hfailed := h.told hc ht
      rw [hf] at hfailed
      cases hfailed
  · exact (h.selectable.registered_of_live hf (by rw [hi, Bool.true_or])).2

/-- **Nothing waits at a closed socket**, once that was told. -/
theorem Sound.await_of_told (h : c.Sound) (hc : c.isClosed = true)
    (ht : c.closing ≠ some .notifying) (refusal : Option OpError) (i : Interest) :
    ∃ e, (c.await refusal i).1 = .failed e := by
  obtain ⟨e, he⟩ := Option.isSome_iff_exists.mp (h.told hc ht)
  exact ⟨e, by rw [await, Selectable.poll_of_failure he]⟩

/-- **Nor where the selector is closed.** -/
theorem Sound.await_of_cancelled (h : c.Sound) (hc : c.selectorClosed = true)
    (refusal : Option OpError) (i : Interest) : ∃ e, (c.await refusal i).1 = .failed e := by
  have hs := h.selectable
  rw [hc] at hs
  obtain ⟨e, he⟩ := hs.poll_of_closed refusal i
  exact ⟨e, by rw [await, hc, he]⟩

/-- A closed socket is shut down after the two effects that may be left. -/
theorem Sound.isShut_shut_notify (h : c.Sound) (hc : c.isClosed = true) :
    c.notify.shut.stream.isShut = true := by
  rcases hn : c.closing with - | (_ | _)
  · have hsame : c.notify.shut = c := by simp [Channel.notify, Channel.shut, hn]
    rw [hsame]
    exact h.shut.mpr ⟨hc, hn⟩
  · simp [Channel.notify, Channel.shut, hn, Stream.shutdown]
  · simp [Channel.notify, Channel.shut, hn, Stream.shutdown]

/-! ## 5. Reading -/

/-- A call that gives nothing yet takes nothing. -/
theorem callRead_of_not_done {m : Mood} {most : Nat}
    (h : ∀ bytes, (c.callRead m most).1 ≠ .done bytes) : (c.callRead m most).2 = c := by
  cases m with
  | blocks | interrupts | fails => rfl
  | serves n =>
    have hread : (c.stream.read (min most (max 1 n))).2 = c.stream := by
      change ∀ bytes, (c.stream.read (min most (max 1 n))).1 ≠ .done bytes at h
      unfold Stream.read at h ⊢
      split at h
      · exact absurd rfl (h _)
      · split <;> rfl
    exact congrArg (fun s => { c with stream := s }) hread

/-- Only a signal interrupts a call. -/
theorem interrupts_of_callRead {m : Mood} {most : Nat} (h : (c.callRead m most).1 = .interrupted) :
    m = .interrupts := by
  cases m with
  | interrupts => rfl
  | blocks | fails => cases h
  | serves n =>
    simp only [callRead, Stream.readAs, Stream.read] at h
    split at h
    · cases h
    · split at h <;> cases h

/-- **What a call gives** comes next of all that came. Nothing is given only at an end: that of the
    other side, or that of a stream that was shut down. -/
theorem callRead_of_done {m : Mood} {most : Nat} {bytes : List UInt8}
    (hd : c.callRead m most = (.done bytes, d)) :
    c.stream.inbox = bytes ++ d.stream.inbox ∧
      (0 < most → bytes = [] →
        c.stream.inbox = [] ∧ (c.stream.ended = true ∨ c.stream.isShut = true)) := by
  obtain ⟨hanswer, rfl⟩ := Prod.mk.inj hd
  cases m with
  | blocks | interrupts | fails => cases hanswer
  | serves n =>
    have hread : c.stream.read (min most (max 1 n)) =
        (.done bytes, (c.stream.readAs (.serves n) most).2) := Prod.ext hanswer rfl
    refine ⟨Stream.read_done hread, ?_⟩
    rintro hmost rfl
    exact Stream.ended_of_read_nil (by omega) hread

/-- **What a call gives that is served**: some of what came, or nothing if that is the end. -/
theorem callRead_serves (hs : c.stream.isShut = false) (n most : Nat) :
    (c.callRead (.serves n) most).1 =
      if c.stream.inbox = [] then if c.stream.ended then .done [] else .wouldBlock
      else .done (c.stream.inbox.take (min most (max 1 n))) := by
  simp only [callRead, Stream.readAs, Stream.read]
  cases c.stream.inbox with
  | nil =>
    rw [hs, Bool.or_false, if_pos rfl]
    cases c.stream.ended <;> rfl
  | cons b bs => rw [if_neg (List.cons_ne_nil b bs)]

end Channel

end Sluice.Socket
