/-
  File:      Sluice/Proofs/Socket/Steps.lean
  Subject:   What a step of a socket in use can do.

  * `Channel.Calm`: a socket whose state, selector and arrivals stay as they were; `Calm.callFinish`,
    `Calm.notify`, `Calm.shut`, `Calm.event`;
  * `Change`: what a step changes that returns nothing to a read; `checkRead_changes`, `askRead_changes`,
    and the same for a write: each step of an operation is one;
  * `callRead_cases`: a call to read is one too, or returns what came;
  * **`step_cases`**: so is every step, but for those that close something or are of the other side;
    `move_step`: what it does to the socket itself is a move; `Change.records`: what it leaves on record.
-/
import Sluice.Proofs.Socket.Closing
import Sluice.Socket.Dialogue

namespace Sluice.Socket

open Sluice.Selector

/-- An act that closes something, or is of the other side. -/
def Act.decisive : Act → Bool
  | .close | .release | .peerSends _ | .peerEnds | .closeSelector => true
  | _ => false

/-! ## 1. Calm sockets -/

/-- What a socket becomes whose state, selector and arrivals stay as they were, and whoever waits is
    attended to. -/
structure Channel.Calm (c c' : Channel) : Prop where
  move : c.Move c'
  state : c'.state = c.state
  selectorClosed : c'.selectorClosed = c.selectorClosed
  inbox : c'.stream.inbox = c.stream.inbox
  ended : c'.stream.ended = c.stream.ended
  attended : ∀ i, Attended c.selectable i → Attended c'.selectable i

namespace Channel

theorem Calm.refl (c : Channel) : Calm c c := ⟨.stays, rfl, rfl, rfl, rfl, fun _ => id⟩

theorem Calm.split (c : Channel) : Calm c c.split := ⟨.split, rfl, rfl, rfl, rfl, fun _ => id⟩

theorem Calm.callFinish (c : Channel) (failure : Option OpError) :
    Calm c (c.callFinish failure).2 := by
  have hmove := Move.callFinish (c := c) failure
  obtain ⟨finished, hc⟩ := callFinish_eq c failure
  rw [hc] at hmove ⊢
  exact ⟨hmove, rfl, rfl, rfl, rfl, fun _ => id⟩

theorem Calm.notify (c : Channel) : Calm c c.notify :=
  ⟨.notify, state_notify c, selectorClosed_notify c, by simp, by simp, fun _ => attended_notify⟩

theorem Calm.shut (c : Channel) : Calm c c.shut :=
  ⟨.shut, state_shut c, selectorClosed_shut c, inbox_shut c, ended_shut c,
    fun _ h => (selectable_shut c).symm ▸ h⟩

theorem Calm.event (c : Channel) (ready : InterestSet) : Calm c (c.event ready) := by
  have hmove := Move.event (c := c) ready
  rcases event_eq c ready with hc | hc <;> rw [hc] at hmove ⊢
  · exact .refl c
  · exact ⟨hmove, rfl, rfl, rfl, rfl, fun _ h => attended_fire h ready⟩

end Channel

namespace Dialogue

variable {d : Dialogue} {r : Reading} {s : Sending}

/-- How far the operation of a kind is, if one is under way. -/
def phase? (d : Dialogue) : Interest → Option Phase
  | .read => d.reading.map (·.phase)
  | .write => d.sending.map (·.phase)
  | .accept | .connect => none

theorem phase?_read (hr : d.reading = some r) : d.phase? .read = some r.phase := by
  rw [phase?, hr, Option.map_some]

theorem phase?_write (hs : d.sending = some s) : d.phase? .write = some s.phase := by
  rw [phase?, hs, Option.map_some]

/-! ## 2. Changes -/

/-- **What a step changes** that returns nothing to a read: how far an operation is, where only an open
    socket lets it past its check, and only a kind that was armed lets it be suspended; what the stream
    took, past the check of a write and unless it is shut down; or the socket itself, calmly. -/
inductive Change (d : Dialogue) : Dialogue → Prop where
  | reads (reading : Option Reading)
      (h : ∀ r, reading = some r → r.phase ≠ .suspended ∧
        (r.phase = .checked → d.channel.isClosed = false)) :
      Change d { d with reading }
  | asksRead (refusal : Option OpError) (reading : Option Reading)
      (h : ∀ r, reading = some r → r.phase ≠ .checked ∧
        (r.phase = .suspended → (d.channel.await refusal .read).1 = .pending)) :
      Change d { d with channel := (d.channel.await refusal .read).2, reading }
  | writes (sending : Option Sending) (taken : List UInt8)
      (h : ∀ s, sending = some s → s.phase ≠ .suspended ∧
        (s.phase = .checked → d.channel.isClosed = false))
      (htaken : d.phase? .write ≠ some .checked ∨ d.channel.stream.isShut = true → taken = d.taken) :
      Change d { d with sending, taken }
  | asksWrite (refusal : Option OpError) (sending : Option Sending)
      (h : ∀ s, sending = some s → s.phase ≠ .checked ∧
        (s.phase = .suspended → (d.channel.await refusal .write).1 = .pending)) :
      Change d { d with channel := (d.channel.await refusal .write).2, sending }
  | moves (c : Channel) (finishing : Bool) (h : d.channel.Calm c) :
      Change d { d with channel := c, finishing }

/-- A step that returns nothing to a read. -/
def Changes (d : Dialogue) (p : Reply × Dialogue) : Prop :=
  (∀ bytes, p.1 ≠ .read (.ok bytes)) ∧ Change d p.2

/-- Nothing happens. -/
theorem Change.stays (d : Dialogue) : Change d d := .moves d.channel d.finishing (.refl _)

theorem changes_nothing (d : Dialogue) : d.Changes (.nothing, d) := ⟨nofun, .stays d⟩

/-! ## 3. Reading -/

theorem callRead_eq (hr : d.reading = some r) (hp : r.phase = .checked) (m : Mood) :
    d.callRead m = readHears { d with channel := (d.channel.callRead m r.most).2 } r
      (d.channel.callRead m r.most).1 := by
  simp only [callRead, hr, if_pos hp]

theorem askRead_eq (hr : d.reading = some r) (hp : r.phase = .blocked)
    (refusal : Option OpError) :
    d.askRead refusal = readLearns { d with channel := (d.channel.await refusal .read).2 } r
      (d.channel.await refusal .read).1 := by
  simp only [askRead, hr, if_pos hp]

theorem checkRead_changes (d : Dialogue) : d.Changes d.checkRead := by
  unfold checkRead
  split
  · exact d.changes_nothing
  · split
    · cases hc : d.channel.isClosed with
      | true => exact ⟨nofun, .reads none nofun⟩
      | false => exact ⟨nofun, .reads _ fun r hr => by cases hr; exact ⟨nofun, fun _ => hc⟩⟩
    · exact d.changes_nothing

/-- A look changes nothing but how far the read is. -/
theorem checkRead_eq (d : Dialogue) : ∃ reading, d.checkRead.2 = { d with reading } := by
  unfold checkRead
  split
  · exact ⟨d.reading, rfl⟩
  · split
    · split <;> exact ⟨_, rfl⟩
    · exact ⟨d.reading, rfl⟩

/-- **A call to read** returns what came, or changes nothing but how far the read is. -/
theorem callRead_cases (d : Dialogue) (m : Mood) :
    (∃ r bytes c, d.reading = some r ∧ r.phase = .checked ∧
      d.channel.callRead m r.most = (.done bytes, c) ∧
      d.callRead m = (.read (.ok bytes),
        { d with channel := c, reading := none, returned := d.returned ++ bytes })) ∨
    d.Changes (d.callRead m) := by
  cases hr : d.reading with
  | none =>
    have hnothing : d.callRead m = (.nothing, d) := by simp only [callRead, hr]
    rw [hnothing]
    exact .inr d.changes_nothing
  | some r =>
    by_cases hp : r.phase = .checked
    · rw [callRead_eq hr hp]
      have hsame : (∀ bytes, (d.channel.callRead m r.most).1 ≠ .done bytes) →
          (d.channel.callRead m r.most).2 = d.channel := Channel.callRead_of_not_done
      rcases hcall : d.channel.callRead m r.most with ⟨answer, c⟩
      rw [hcall] at hsame
      cases answer with
      | done bytes => exact .inl ⟨r, bytes, c, rfl, hp, hcall, rfl⟩
      | failed e =>
        cases hsame nofun
        exact .inr ⟨nofun, .reads none nofun⟩
      | interrupted =>
        cases hsame nofun
        exact .inr ⟨nofun, .reads _ fun r' hr' => by cases hr'; exact ⟨nofun, nofun⟩⟩
      | wouldBlock =>
        cases hsame nofun
        exact .inr ⟨nofun, .reads _ fun r' hr' => by cases hr'; exact ⟨nofun, nofun⟩⟩
    · have hnothing : d.callRead m = (.nothing, d) := by simp only [callRead, hr, if_neg hp]
      rw [hnothing]
      exact .inr d.changes_nothing

theorem askRead_changes (d : Dialogue) (refusal : Option OpError) :
    d.Changes (d.askRead refusal) := by
  cases hr : d.reading with
  | none =>
    have hnothing : d.askRead refusal = (.nothing, d) := by simp only [askRead, hr]
    rw [hnothing]
    exact d.changes_nothing
  | some r =>
    by_cases hp : r.phase = .blocked
    · rw [askRead_eq hr hp]
      cases hask : (d.channel.await refusal .read).1 with
      | ready => exact ⟨nofun, .asksRead refusal _ fun r' hr' => by cases hr'; exact ⟨nofun, nofun⟩⟩
      | pending =>
        exact ⟨nofun, .asksRead refusal _ fun r' hr' => by cases hr'; exact ⟨nofun, fun _ => hask⟩⟩
      | failed e => exact ⟨nofun, .asksRead refusal none nofun⟩
    · have hnothing : d.askRead refusal = (.nothing, d) := by simp only [askRead, hr, if_neg hp]
      rw [hnothing]
      exact d.changes_nothing

/-! ## 4. Writing -/

theorem askWrite_eq (hs : d.sending = some s) (hp : s.phase = .blocked)
    (refusal : Option OpError) :
    d.askWrite refusal =
      writeLearns { d with channel := (d.channel.await refusal .write).2 } s.writing
        (d.channel.await refusal .write).1 := by
  simp only [askWrite, hs, if_pos hp]

/-- A write is over, or goes on in its phase. -/
theorem carryOn_cases (d : Dialogue) (w : Writing) (phase : Phase) :
    (∀ bytes, (d.carryOn w phase).1 ≠ .read (.ok bytes)) ∧
    ∃ sending, (d.carryOn w phase).2 = { d with sending } ∧
      ∀ s, sending = some s → s.phase = phase := by
  unfold carryOn
  split
  · exact ⟨nofun, none, rfl, nofun⟩
  · exact ⟨nofun, _, rfl, fun s hs => by cases hs; rfl⟩

/-- A write that looks next, or asks, after the stream took what it takes. -/
theorem carryOn_changes (d : Dialogue) (w : Writing) (phase : Phase) (taken : List UInt8)
    (hsusp : phase ≠ .suspended) (hchecked : phase ≠ .checked)
    (htaken : d.phase? .write ≠ some .checked ∨ d.channel.stream.isShut = true → taken = d.taken) :
    d.Changes ({ d with taken }.carryOn w phase) := by
  obtain ⟨hreply, sending, heq, hphase⟩ := carryOn_cases { d with taken } w phase
  refine ⟨hreply, heq ▸ .writes sending taken (fun s hs => ?_) htaken⟩
  rw [hphase s hs]
  exact ⟨hsusp, fun h => absurd h hchecked⟩

theorem checkWrite_changes (d : Dialogue) : d.Changes d.checkWrite := by
  unfold checkWrite
  split
  · exact d.changes_nothing
  · split
    · cases hc : d.channel.isClosed with
      | true => exact d.carryOn_changes _ .calling d.taken nofun nofun fun _ => rfl
      | false =>
        exact ⟨nofun, .writes _ d.taken
          (fun s hs => by cases hs; exact ⟨nofun, fun _ => hc⟩) fun _ => rfl⟩
    · exact d.changes_nothing

/-- **A stream that was shut down takes nothing.** -/
theorem writeAs_of_shut {x : Stream} (h : x.isShut = true) (m : Mood) (bytes : List UInt8) (n : Nat) :
    x.writeAs m bytes ≠ .done n := by
  cases m with
  | serves k => simp [Stream.writeAs, Stream.write, h]
  | blocks | interrupts | fails => nofun

theorem callWrite_changes (d : Dialogue) (m : Mood) : d.Changes (d.callWrite m) := by
  cases hs : d.sending with
  | none =>
    have hnothing : d.callWrite m = (.nothing, d) := by simp only [callWrite, hs]
    rw [hnothing]
    exact d.changes_nothing
  | some s =>
    by_cases hp : s.phase = .checked
    · have hcall : d.callWrite m =
          d.writeHears s.writing (d.channel.stream.writeAs m s.writing.left) := by
        simp only [callWrite, hs, if_pos hp]
      rw [hcall]
      cases ha : d.channel.stream.writeAs m s.writing.left with
      | wouldBlock => exact d.carryOn_changes _ .blocked d.taken nofun nofun fun _ => rfl
      | interrupted => exact d.carryOn_changes _ .calling d.taken nofun nofun fun _ => rfl
      | failed e => exact d.carryOn_changes _ .calling d.taken nofun nofun fun _ => rfl
      | done n =>
        refine d.carryOn_changes _ .calling _ nofun nofun fun hnot => ?_
        rcases hnot with hpast | hshut
        · exact absurd ((phase?_write hs).trans (congrArg some hp)) hpast
        · exact absurd ha (writeAs_of_shut hshut m _ n)
    · have hnothing : d.callWrite m = (.nothing, d) := by simp only [callWrite, hs, if_neg hp]
      rw [hnothing]
      exact d.changes_nothing

theorem askWrite_changes (d : Dialogue) (refusal : Option OpError) :
    d.Changes (d.askWrite refusal) := by
  cases hs : d.sending with
  | none =>
    have hnothing : d.askWrite refusal = (.nothing, d) := by simp only [askWrite, hs]
    rw [hnothing]
    exact d.changes_nothing
  | some s =>
    by_cases hp : s.phase = .blocked
    · rw [askWrite_eq hs hp]
      have hgoes (w : Writing) (phase : Phase) (hchecked : phase ≠ .checked)
          (hsusp : phase = .suspended → (d.channel.await refusal .write).1 = .pending) :
          d.Changes ({ d with channel := (d.channel.await refusal .write).2 }.carryOn w phase) := by
        obtain ⟨hreply, sending, heq, hphase⟩ :=
          carryOn_cases { d with channel := (d.channel.await refusal .write).2 } w phase
        refine ⟨hreply, heq ▸ .asksWrite refusal sending fun s' hs' => ?_⟩
        rw [hphase s' hs']
        exact ⟨hchecked, hsusp⟩
      cases hask : (d.channel.await refusal .write).1 with
      | ready => exact hgoes (s.writing.resume (.ok ())) .calling nofun nofun
      | pending => exact hgoes (s.writing.resume (.ok ())) .suspended nofun fun _ => hask
      | failed e => exact hgoes (s.writing.resume (.error (.ofSelect e))) .calling nofun nofun
    · have hnothing : d.askWrite refusal = (.nothing, d) := by simp only [askWrite, hs, if_neg hp]
      rw [hnothing]
      exact d.changes_nothing

/-! ## 5. Every step -/

theorem finish_changes (d : Dialogue) : d.Changes d.finish := by
  unfold finish
  split <;> exact ⟨nofun, .moves d.channel _ (.refl _)⟩

theorem callFinish_changes (d : Dialogue) (failure : Option OpError) :
    d.Changes (d.callFinish failure) := by
  unfold callFinish
  split
  · exact ⟨nofun, .moves _ false (.callFinish _ failure)⟩
  · exact d.changes_nothing

/-- **What a step can do**: it closes something or is of the other side, or a read gets something from
    the stream, or it returns nothing to a read and is a change. -/
theorem step_cases (d : Dialogue) (a : Act) :
    a.decisive = true ∨
    (∃ m r bytes c, a = .callRead m ∧ d.reading = some r ∧ r.phase = .checked ∧
      d.channel.callRead m r.most = (.done bytes, c) ∧
      d.step a = (.read (.ok bytes),
        { d with channel := c, reading := none, returned := d.returned ++ bytes })) ∨
    d.Changes (d.step a) := by
  cases a with
  | close | release | peerSends | peerEnds | closeSelector => exact .inl rfl
  | callRead m =>
    rcases d.callRead_cases m with ⟨r, bytes, c, hr, hp, hcall, heq⟩ | hchanges
    · exact .inr (.inl ⟨m, r, bytes, c, rfl, hr, hp, hcall, heq⟩)
    · exact .inr (.inr hchanges)
  | read most pos =>
    exact .inr (.inr ⟨nofun, .reads _ fun r hr => by cases hr; exact ⟨nofun, nofun⟩⟩)
  | checkRead => exact .inr (.inr d.checkRead_changes)
  | askRead refusal => exact .inr (.inr (d.askRead_changes refusal))
  | write bytes => exact .inr (.inr (d.carryOn_changes _ .calling d.taken nofun nofun fun _ => rfl))
  | checkWrite => exact .inr (.inr d.checkWrite_changes)
  | callWrite m => exact .inr (.inr (d.callWrite_changes m))
  | askWrite refusal => exact .inr (.inr (d.askWrite_changes refusal))
  | finish => exact .inr (.inr d.finish_changes)
  | callFinish failure => exact .inr (.inr (d.callFinish_changes failure))
  | split => exact .inr (.inr ⟨nofun, .moves _ d.finishing (.split _)⟩)
  | notify => exact .inr (.inr ⟨nofun, .moves _ d.finishing (.notify _)⟩)
  | shut => exact .inr (.inr ⟨nofun, .moves _ d.finishing (.shut _)⟩)
  | event ready => exact .inr (.inr ⟨nofun, .moves _ d.finishing (.event _ ready)⟩)

theorem Change.move {d' : Dialogue} (h : Change d d') : d.channel.Move d'.channel := by
  cases h with
  | reads | writes => exact .stays
  | asksRead refusal => exact .await refusal .read
  | asksWrite refusal => exact .await refusal .write
  | moves c finishing h => exact h.move

/-- A change returns nothing, and the stream takes something only past the check of a write. -/
theorem Change.records {d' : Dialogue} (h : Change d d') :
    d'.returned = d.returned ∧
      (d.phase? .write ≠ some .checked ∨ d.channel.stream.isShut = true → d'.taken = d.taken) := by
  cases h with
  | writes sending taken hphase htaken => exact ⟨rfl, htaken⟩
  | reads | asksRead | asksWrite | moves => exact ⟨rfl, fun _ => rfl⟩

/-- **What a step does to the socket itself** is a move. -/
theorem move_step (d : Dialogue) (a : Act) : d.channel.Move (d.step a).2.channel := by
  rcases d.step_cases a with ha | ⟨m, r, bytes, c, -, -, -, hcall, heq⟩ | ⟨-, hchange⟩
  · cases a with
    | close => exact .mark
    | release => exact .release
    | peerSends bytes => exact .receive bytes
    | peerEnds => exact .peerEnd
    | closeSelector => exact .cancel
    | _ => cases ha
  · rw [heq]
    obtain rfl : (d.channel.callRead m r.most).2 = c := congrArg Prod.snd hcall
    exact .callRead m r.most
  · exact hchange.move

end Dialogue

end Sluice.Socket
