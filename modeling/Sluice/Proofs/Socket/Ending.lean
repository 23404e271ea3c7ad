/-
  File:      Sluice/Proofs/Socket/Ending.lean
  Subject:   The end of a stream is that of the other side, unless a close overtook the read.

  * `sentBy`: what the other side sends by some acts, before it ends;
  * `Sound`: a socket in use has returned the front of what was sent, all of it but what came and was
    not read, and whoever is suspended is attended to; `sound_step`, `sound_run`;
  * `returned_step`, `sent_step`, `closed_step`, `checked_step`: what a step returns, who sends, who
    closes what, and that nobody gets past the check of a closed socket;
  * `Dead`: how a closed socket answers; `Sound.dead_run`: so it does from then on;
  * `Overtaken`: a read is past its check, and the socket was closed behind it;
  * `Honest`, **`honest_run`**: what a read returns, when it returns nothing, and what closing does;
    `overtaken_read`: a read that returns nothing though the other side goes on.
-/
import Sluice.Proofs.Socket.Steps

namespace Sluice.Socket

open Sluice.Selector

/-! ## 1. The other side -/

/-- What the other side sends by an act. -/
def Act.sends : Act → List UInt8
  | .peerSends bytes => bytes
  | _ => []

/-- The other side ends by it. -/
def Act.ends : Act → Bool
  | .peerEnds => true
  | _ => false

/-- What the other side sends by some acts, before it ends. -/
def sentBy (acts : List Act) : List UInt8 := (acts.takeWhile (!·.ends)).flatMap Act.sends

theorem sentBy_cons (a : Act) (acts : List Act) :
    sentBy (a :: acts) = if a.ends then [] else a.sends ++ sentBy acts := by
  cases h : a.ends <;> simp [sentBy, h]

theorem any_ends (acts : List Act) : acts.any Act.ends = true ↔ .peerEnds ∈ acts := by
  rw [List.any_eq_true]
  constructor
  · rintro ⟨a, ha, hends⟩
    cases a with
    | peerEnds => exact ha
    | _ => cases hends
  · exact fun h => ⟨_, h, rfl⟩

namespace Dialogue

variable {d : Dialogue} {r : Reading} {s : Sending}

/-- An operation sleeps: it is suspended, and nobody has woken it. -/
def Asleep (d : Dialogue) (i : Interest) : Prop :=
  d.phase? i = some .suspended ∧ d.channel.selectable.waiting.contains i = true

/-! ## 2. What holds of a socket in use -/

/-- **What holds of a socket in use**: what was returned, with what came and was not read, is the front
    of what was sent, and all of it as long as the stream is not shut down. Whoever is suspended is
    attended to. -/
structure Sound (d : Dialogue) : Prop where
  channel : d.channel.Sound
  front : d.returned ++ d.channel.stream.inbox <+: d.sent
  whole : d.channel.stream.isShut = false → d.returned ++ d.channel.stream.inbox = d.sent
  attended : ∀ i, d.phase? i = some .suspended → Attended d.channel.selectable i

theorem sound_opened (selectorClosed : Bool) : (opened selectorClosed).Sound where
  channel := Channel.sound_fresh selectorClosed
  front := List.prefix_rfl
  whole _ := rfl
  attended i hi := by cases i <;> cases hi

/-- A move that leaves what came and was not read, and attends to whoever is suspended. -/
theorem Sound.with_channel (h : d.Sound) {c : Channel} (hmove : d.channel.Move c)
    (hinbox : c.stream.inbox = d.channel.stream.inbox)
    (hattended : ∀ i, d.phase? i = some .suspended → Attended d.channel.selectable i →
      Attended c.selectable i) : Sound { d with channel := c } where
  channel := Channel.sound_move h.channel hmove
  front := by
    rw [hinbox]
    exact h.front
  whole hc := by
    rw [hinbox]
    exact h.whole (hmove.was_unshut hc)
  attended i hi := hattended i hi (h.attended i hi)

theorem Sound.with_reading (h : d.Sound) {reading : Option Reading}
    (hr : ∀ r, reading = some r → r.phase = .suspended → Attended d.channel.selectable .read) :
    Sound { d with reading } := by
  refine ⟨h.channel, h.front, h.whole, fun i hi => ?_⟩
  cases i with
  | read =>
    obtain ⟨r, hsome, hphase⟩ := Option.map_eq_some_iff.mp hi
    exact hr r hsome hphase
  | write => exact h.attended .write hi
  | accept | connect => cases hi

theorem Sound.with_sending (h : d.Sound) {sending : Option Sending} (taken : List UInt8)
    (hs : ∀ s, sending = some s → s.phase = .suspended → Attended d.channel.selectable .write) :
    Sound { d with sending, taken } := by
  refine ⟨h.channel, h.front, h.whole, fun i hi => ?_⟩
  cases i with
  | read => exact h.attended .read hi
  | write =>
    obtain ⟨s, hsome, hphase⟩ := Option.map_eq_some_iff.mp hi
    exact hs s hsome hphase
  | accept | connect => cases hi

/-- What came next was returned. -/
theorem Sound.with_returned (h : d.Sound) {m : Mood} {most : Nat} {bytes : List UInt8} {c : Channel}
    (hcall : d.channel.callRead m most = (.done bytes, c)) :
    Sound { d with channel := c, reading := none, returned := d.returned ++ bytes } := by
  obtain ⟨hinbox, -⟩ := Channel.callRead_of_done hcall
  obtain rfl : (d.channel.callRead m most).2 = c := congrArg Prod.snd hcall
  have hmove := Channel.Move.callRead (c := d.channel) m most
  have hnext : d.returned ++ bytes ++ (d.channel.callRead m most).2.stream.inbox =
      d.returned ++ d.channel.stream.inbox := by
    rw [List.append_assoc, ← hinbox]
  refine ⟨Channel.sound_move h.channel hmove, hnext ▸ h.front,
    fun hc => hnext.trans (h.whole (hmove.was_unshut hc)), fun i hi => ?_⟩
  cases i with
  | write => exact h.attended .write hi
  | read | accept | connect => cases hi

/-- **A change** leaves a socket in use sound. -/
theorem Sound.change (h : d.Sound) {d' : Dialogue} (hd : Change d d') : d'.Sound := by
  cases hd with
  | reads reading hphase => exact h.with_reading fun r hr hsusp => absurd hsusp (hphase r hr).1
  | asksRead refusal reading hphase =>
    -- the read is given up first, since a look that fails attends to nobody who reads
    have hnone : Sound { d with reading := none } := h.with_reading nofun
    have hmoved := hnone.with_channel (.await refusal .read) rfl fun i hi hatt =>
      attended_poll hatt fun hread => by subst hread; cases hi
    exact hmoved.with_reading fun r hr hsusp _ =>
      Selectable.armed_of_pending ((hphase r hr).2 hsusp)
  | writes sending taken hphase =>
    exact h.with_sending taken fun s hs hsusp => absurd hsusp (hphase s hs).1
  | asksWrite refusal sending hphase =>
    have hnone : Sound { d with sending := none } := h.with_sending d.taken nofun
    have hmoved := hnone.with_channel (.await refusal .write) rfl fun i hi hatt =>
      attended_poll hatt fun hwrite => by subst hwrite; cases hi
    exact hmoved.with_sending d.taken fun s hs hsusp _ =>
      Selectable.armed_of_pending ((hphase s hs).2 hsusp)
  | moves c finishing hcalm =>
    have hmoved := h.with_channel hcalm.move hcalm.inbox fun i _ => hcalm.attended i
    exact ⟨hmoved.channel, hmoved.front, hmoved.whole, hmoved.attended⟩

/-- What the other side sends comes behind what it sent before. -/
theorem Sound.receive (h : d.Sound) (bytes : List UInt8) : (d.step (.peerSends bytes)).2.Sound := by
  have hmove := Channel.Move.receive (c := d.channel) bytes
  cases hshut : d.channel.stream.isShut with
  | true =>
    refine ⟨Channel.sound_move h.channel hmove, ?_, fun hunshut => ?_, h.attended⟩
    · show d.returned ++ (d.channel.stream.receive bytes).inbox <+: if _ then _ else _
      rw [Stream.receive, hshut, Bool.or_true, if_pos rfl]
      split
      · exact h.front
      · exact h.front.trans (List.prefix_append _ _)
    · cases hshut.symm.trans (hmove.was_unshut hunshut)
  | false =>
    have hwhole : d.returned ++ (d.channel.stream.receive bytes).inbox =
        if d.channel.stream.ended then d.sent else d.sent ++ bytes := by
      rw [Stream.receive, hshut, Bool.or_false]
      split
      · exact h.whole hshut
      · rw [← h.whole hshut, List.append_assoc]
    exact ⟨Channel.sound_move h.channel hmove, hwhole ▸ List.prefix_rfl, fun _ => hwhole, h.attended⟩

/-- **A step** leaves a socket in use sound. -/
theorem sound_step (h : d.Sound) (a : Act) : (d.step a).2.Sound := by
  rcases d.step_cases a with ha | ⟨m, r, bytes, c, -, -, -, hcall, heq⟩ | ⟨-, hchange⟩
  · cases a with
    | close => exact h.with_channel .mark (by simp) fun _ _ hatt => by simpa using hatt
    | release => exact h.with_channel .release (by simp) fun _ _ hatt => by simpa using hatt
    | peerSends bytes => exact h.receive bytes
    | peerEnds => exact h.with_channel .peerEnd rfl fun _ _ => id
    | closeSelector => exact h.with_channel .cancel rfl fun _ _ => Channel.attended_cancel
    | _ => cases ha
  · rw [heq]
    exact h.with_returned hcall
  · exact h.change hchange

theorem sound_run (h : d.Sound) (acts : List Act) : (d.run acts).Sound := by
  induction acts generalizing d with
  | nil => exact h
  | cons a acts ih => exact ih (sound_step h a)

/-! ## 3. What is returned and sent -/

/-- A step that returns nothing to a read. The stream takes what it takes past the check of a write, and
    as long as it is not shut down. -/
structure Mute (d : Dialogue) (p : Reply × Dialogue) : Prop where
  answer : ∀ bytes, p.1 ≠ .read (.ok bytes)
  returned : p.2.returned = d.returned
  taken : d.phase? .write ≠ some .checked ∨ d.channel.stream.isShut = true → p.2.taken = d.taken

/-- **A step returns** what a read past its check got from the stream, or nothing. -/
theorem returned_step (d : Dialogue) (a : Act) :
    (∃ m r bytes c, d.reading = some r ∧ r.phase = .checked ∧
      d.channel.callRead m r.most = (.done bytes, c) ∧
      d.step a = (.read (.ok bytes),
        { d with channel := c, reading := none, returned := d.returned ++ bytes })) ∨
    Mute d (d.step a) := by
  rcases d.step_cases a with ha | ⟨m, r, bytes, c, -, hr, hp, hcall, heq⟩ | ⟨hanswer, hchange⟩
  · refine .inr ?_
    cases a with
    | close | release | peerSends | peerEnds | closeSelector => exact ⟨nofun, rfl, fun _ => rfl⟩
    | _ => cases ha
  · exact .inl ⟨m, r, bytes, c, hr, hp, hcall, heq⟩
  · obtain ⟨hreturned, htaken⟩ := hchange.records
    exact .inr ⟨hanswer, hreturned, htaken⟩

/-- What comes of an act that is not decisive: nothing is closed, sent or ended. -/
structure Calm (d d' : Dialogue) : Prop where
  state : d'.channel.state = d.channel.state
  selectorClosed : d'.channel.selectorClosed = d.channel.selectorClosed
  ended : d'.channel.stream.ended = d.channel.stream.ended
  sent : d'.sent = d.sent

theorem calm_step (d : Dialogue) {a : Act} (ha : a.decisive = false) : Calm d (d.step a).2 := by
  rcases d.step_cases a with hdecisive | ⟨m, r, bytes, c, -, -, -, hcall, heq⟩ | ⟨-, hchange⟩
  · cases ha.symm.trans hdecisive
  · rw [heq]
    obtain rfl : (d.channel.callRead m r.most).2 = c := congrArg Prod.snd hcall
    exact ⟨rfl, rfl, (Channel.ends_readAs _ m r.most).1, rfl⟩
  · generalize (d.step a).2 = d' at hchange
    cases hchange with
    | reads | asksRead | writes | asksWrite => exact ⟨rfl, rfl, rfl, rfl⟩
    | moves c finishing hcalm => exact ⟨hcalm.state, hcalm.selectorClosed, hcalm.ended, rfl⟩

/-- **The other side sends until it ends**, and nobody else does. -/
theorem sent_step (d : Dialogue) (a : Act) :
    (d.step a).2.sent = d.sent ++ (if d.channel.stream.ended then [] else a.sends) ∧
    (d.step a).2.channel.stream.ended = (d.channel.stream.ended || a.ends) := by
  have hquiet : ∀ d' : Dialogue, a.sends = [] → a.ends = false → d'.sent = d.sent →
      d'.channel.stream.ended = d.channel.stream.ended →
      d'.sent = d.sent ++ (if d.channel.stream.ended then [] else a.sends) ∧
        d'.channel.stream.ended = (d.channel.stream.ended || a.ends) := by
    intro d' hsends hends hsent hended
    rw [hsends, hends, ite_self, List.append_nil, Bool.or_false]
    exact ⟨hsent, hended⟩
  cases ha : a.decisive with
  | false =>
    have hcalm := d.calm_step ha
    refine hquiet _ ?_ ?_ hcalm.sent hcalm.ended <;> cases a <;> first | rfl | cases ha
  | true =>
    cases a with
    | peerSends bytes =>
      show (if _ then _ else _) = d.sent ++ (if _ then [] else bytes) ∧
        (d.channel.stream.receive bytes).ended = (_ || false)
      refine ⟨?_, by rw [(Channel.ends_receive _ bytes).1, Bool.or_false]⟩
      split
      · exact (List.append_nil _).symm
      · rfl
    | peerEnds =>
      show d.sent = d.sent ++ (if _ then [] else []) ∧ true = (_ || true)
      rw [Bool.or_true, ite_self, List.append_nil]
      exact ⟨rfl, rfl⟩
    | close =>
      refine hquiet { d with channel := d.channel.mark } rfl rfl rfl ?_
      rw [Channel.stream_mark]
    | release =>
      refine hquiet { d with channel := d.channel.release } rfl rfl rfl ?_
      rw [Channel.stream_release]
    | closeSelector => exact hquiet _ rfl rfl rfl rfl
    | _ => cases ha

/-! ## 4. A closed socket -/

/-- **How a closed socket answers.** -/
structure Dead (d : Dialogue) : Prop where
  /-- A read that is under way fails when it looks, and when it asks once the closing was told. -/
  checkRead : ∀ r, d.reading = some r → r.phase.looks = true →
    (d.step .checkRead).1 = .read (.error (.ofSelect .closed))
  askRead : d.channel.closing ≠ some .notifying → ∀ r refusal, d.reading = some r →
    r.phase = .blocked → ∃ e, (d.step (.askRead refusal)).1 = .read (.error (.ofSelect e))
  /-- So does a write. -/
  checkWrite : ∀ s, d.sending = some s → s.phase.looks = true →
    (d.step .checkWrite).1 = .write (.error (.ofSelect .closed))
  askWrite : d.channel.closing ≠ some .notifying → ∀ s refusal, d.sending = some s →
    s.phase = .blocked → ∃ e, (d.step (.askWrite refusal)).1 = .write (.error (.ofSelect e))
  /-- What begins fails as well, and no more can be sent. -/
  read : ∀ most pos, ((d.step (.read most pos)).2.step .checkRead).1 =
    .read (.error (.ofSelect .closed))
  write : ∀ bytes, bytes ≠ [] → ((d.step (.write bytes)).2.step .checkWrite).1 =
    .write (.error (.ofSelect .closed))
  finish : (d.step .finish).1 = .finish (.error (.ofSelect .closed))
  /-- Closing again changes nothing. -/
  close : d.step .close = (.nothing, d)

theorem checkRead_of_closed (hc : d.channel.isClosed = true) (hr : d.reading = some r)
    (hp : r.phase.looks = true) :
    (d.step .checkRead).1 = .read (.error (.ofSelect .closed)) := by
  show d.checkRead.1 = _
  simp only [Dialogue.checkRead, hr, if_pos hp, if_pos hc]

theorem checkWrite_of_closed (hc : d.channel.isClosed = true) (hs : d.sending = some s)
    (hp : s.phase.looks = true) :
    (d.step .checkWrite).1 = .write (.error (.ofSelect .closed)) := by
  show d.checkWrite.1 = _
  simp only [Dialogue.checkWrite, hs, if_pos hp, if_pos hc]
  rfl

/-- A read that asks fails where a look at the selector does. -/
theorem askRead_of_failed (hr : d.reading = some r) (hp : r.phase = .blocked)
    {refusal : Option OpError} (hf : ∃ e, (d.channel.await refusal .read).1 = .failed e) :
    ∃ e, (d.step (.askRead refusal)).1 = .read (.error (.ofSelect e)) := by
  obtain ⟨e, he⟩ := hf
  refine ⟨e, ?_⟩
  show (d.askRead refusal).1 = _
  rw [askRead_eq hr hp, he]
  rfl

theorem askWrite_of_failed (hs : d.sending = some s) (hp : s.phase = .blocked)
    {refusal : Option OpError} (hf : ∃ e, (d.channel.await refusal .write).1 = .failed e) :
    ∃ e, (d.step (.askWrite refusal)).1 = .write (.error (.ofSelect e)) := by
  obtain ⟨e, he⟩ := hf
  refine ⟨e, ?_⟩
  show (d.askWrite refusal).1 = _
  rw [askWrite_eq hs hp, he]
  rfl

theorem Sound.dead (h : d.Sound) (hc : d.channel.isClosed = true) : d.Dead := by
  constructor
  case checkRead => exact fun r hr hp => checkRead_of_closed hc hr hp
  case askRead =>
    exact fun ht r refusal hr hp => askRead_of_failed hr hp (h.channel.await_of_told hc ht refusal .read)
  case checkWrite => exact fun s hs hp => checkWrite_of_closed hc hs hp
  case askWrite =>
    exact fun ht s refusal hs hp =>
      askWrite_of_failed hs hp (h.channel.await_of_told hc ht refusal .write)
  case read =>
    intro most pos
    exact checkRead_of_closed (d := (d.step (.read most pos)).2) hc rfl rfl
  case write =>
    intro bytes hbytes
    have hstart : (Writing.start bytes).result = none := by
      rw [Writing.start, List.isEmpty_eq_false_iff.mpr hbytes]
      rfl
    have hbegins : d.step (.write bytes) =
        (.nothing, { d with sending := some ⟨.start bytes, .calling⟩ }) := by
      show d.carryOn (.start bytes) .calling = _
      simp only [carryOn, hstart]
    rw [hbegins]
    exact checkWrite_of_closed (d := { d with sending := some ⟨.start bytes, .calling⟩ }) hc rfl rfl
  case finish =>
    show d.finish.1 = _
    simp only [Dialogue.finish, if_pos hc]
  case close =>
    show (Reply.nothing, { d with channel := d.channel.mark }) = _
    rw [Channel.mark_of_closed hc]

/-- **Nobody gets past the check of a closed socket.** -/
theorem checked_step (hc : d.channel.isClosed = true) (a : Act) {i : Interest}
    (hi : (d.step a).2.phase? i = some .checked) : d.phase? i = some .checked := by
  rcases d.step_cases a with ha | ⟨m, r, bytes, c, -, -, -, -, heq⟩ | ⟨-, hchange⟩
  · cases a with
    | close | release | peerSends | peerEnds | closeSelector => exact hi
    | _ => cases ha
  · rw [heq] at hi
    cases i with
    | write => exact hi
    | read | accept | connect => cases hi
  · generalize (d.step a).2 = d' at hchange hi
    cases hchange with
    | reads reading hphase =>
      cases i with
      | write => exact hi
      | accept | connect => cases hi
      | read =>
        obtain ⟨r, hr, hp⟩ := Option.map_eq_some_iff.mp hi
        cases hc.symm.trans ((hphase r hr).2 hp)
    | asksRead refusal reading hphase =>
      cases i with
      | write => exact hi
      | accept | connect => cases hi
      | read =>
        obtain ⟨r, hr, hp⟩ := Option.map_eq_some_iff.mp hi
        exact absurd hp (hphase r hr).1
    | writes sending taken hphase =>
      cases i with
      | read => exact hi
      | accept | connect => cases hi
      | write =>
        obtain ⟨s, hs, hp⟩ := Option.map_eq_some_iff.mp hi
        cases hc.symm.trans ((hphase s hs).2 hp)
    | asksWrite refusal sending hphase =>
      cases i with
      | read => exact hi
      | accept | connect => cases hi
      | write =>
        obtain ⟨s, hs, hp⟩ := Option.map_eq_some_iff.mp hi
        exact absurd hp (hphase s hs).1
    | moves => exact hi

/-- **A closed socket stays as it is**, whatever happens later: what a read returns, or the stream takes,
    is that of an operation that was past its check already, and the stream takes nothing once it is
    shut down. -/
theorem Sound.dead_run (h : d.Sound) (hc : d.channel.isClosed = true) (later : List Act) :
    (d.run later).Dead ∧
    (d.phase? .read ≠ some .checked → (d.run later).returned = d.returned) ∧
    (d.phase? .write ≠ some .checked ∨ d.channel.stream.isShut = true →
      (d.run later).taken = d.taken) := by
  induction later generalizing d with
  | nil => exact ⟨h.dead hc, fun _ => rfl, fun _ => rfl⟩
  | cons a later ih =>
    obtain ⟨hclosed, -, hshut⟩ := (move_step d a).stays_closed
    obtain ⟨hdead, hreturned, htaken⟩ := ih (sound_step h a) (hclosed hc)
    refine ⟨hdead, fun hp => ?_, fun hp => ?_⟩
    · refine (hreturned fun hi => hp (checked_step hc a hi)).trans ?_
      rcases d.returned_step a with ⟨m, r, bytes, c, hr, hpast, -⟩ | hmute
      · exact absurd ((phase?_read hr).trans (congrArg some hpast)) hp
      · exact hmute.returned
    · refine (htaken (hp.imp (fun hn hi => hn (checked_step hc a hi)) hshut)).trans ?_
      rcases d.returned_step a with ⟨m, r, bytes, c, -, -, -, heq⟩ | hmute
      · rw [heq]
      · exact hmute.taken hp

/-! ## 5. Every socket in use -/

theorem sent_run (d : Dialogue) (acts : List Act) :
    (d.run acts).sent = d.sent ++ (if d.channel.stream.ended then [] else sentBy acts) ∧
    (d.run acts).channel.stream.ended = (d.channel.stream.ended || acts.any Act.ends) := by
  induction acts generalizing d with
  | nil =>
    rw [List.any_nil, Bool.or_false]
    refine ⟨?_, rfl⟩
    show d.sent = d.sent ++ if _ then [] else []
    rw [ite_self, List.append_nil]
  | cons a acts ih =>
    obtain ⟨hsent, hended⟩ := d.sent_step a
    obtain ⟨hsents, hends⟩ := ih (d.step a).2
    rw [hended] at hsents hends
    refine ⟨hsents.trans ?_, hends.trans ?_⟩
    · rw [hsent, sentBy_cons]
      cases d.channel.stream.ended with
      | true => simp
      | false =>
        cases ha : a.ends with
        | true =>
          have hnone : a.sends = [] := by
            cases a with
            | peerEnds => rfl
            | _ => cases ha
          simp [hnone]
        | false => simp
    · rw [List.any_cons, Bool.or_assoc]

/-- **Who closes what**: the closing of a socket begins with `close`, or as the last handle is given up,
    and nothing else closes it or its selector. -/
theorem closed_step (d : Dialogue) (a : Act) :
    ((d.step a).2.channel.isClosed = true ↔
      d.channel.isClosed = true ∨ a = .close ∨ a = .release ∧ d.channel.handles ≤ 1) ∧
    ((d.step a).2.channel.selectorClosed = true ↔
      d.channel.selectorClosed = true ∨ a = .closeSelector) := by
  cases ha : a.decisive with
  | false =>
    have hcalm := d.calm_step ha
    have hclose : a ≠ .close := by rintro rfl; cases ha
    have hrelease : a ≠ .release := by rintro rfl; cases ha
    have hcancel : a ≠ .closeSelector := by rintro rfl; cases ha
    simp [Channel.isClosed, hcalm.state, hcalm.selectorClosed, hclose, hrelease, hcancel]
  | true =>
    cases a with
    | close =>
      refine ⟨⟨fun _ => .inr (.inl rfl), fun _ => Channel.isClosed_mark _⟩, ?_⟩
      show d.channel.mark.selectorClosed = true ↔ _
      simp
    | release =>
      refine ⟨(Channel.isClosed_release d.channel).trans (by simp), ?_⟩
      show d.channel.release.selectorClosed = true ↔ _
      simp
    | closeSelector =>
      refine ⟨?_, ⟨fun _ => .inr rfl, fun _ => rfl⟩⟩
      show d.channel.isClosed = true ↔ _
      simp
    | peerSends | peerEnds =>
      show (d.channel.isClosed = true ↔ _) ∧ (d.channel.selectorClosed = true ↔ _)
      simp
    | _ => cases ha

/-- A read is overtaken by a close: it is past its check, and the stream was shut down behind that. -/
def Overtaken (d : Dialogue) : Prop :=
  d.phase? .read = some .checked ∧ d.channel.stream.isShut = true

/-- What a read returns is the answer of the stream, and it was past its check. -/
theorem Sound.returns (h : d.Sound) {a : Act} {bytes : List UInt8}
    (ha : (d.step a).1 = .read (.ok bytes)) :
    d.phase? .read = some .checked ∧ (d.step a).2.returned = d.returned ++ bytes ∧
      (bytes = [] → d.channel.stream.ended = true ∧ d.returned = d.sent ∨ d.Overtaken) := by
  rcases d.returned_step a with ⟨m, r, bytes', c, hr, hp, hcall, heq⟩ | hmute
  · rw [heq] at ha ⊢
    cases ha
    have hpast : d.phase? .read = some .checked := (phase?_read hr).trans (congrArg some hp)
    refine ⟨hpast, rfl, fun hbytes => ?_⟩
    obtain ⟨hinbox, hends⟩ := (Channel.callRead_of_done hcall).2 r.pos hbytes
    cases hshut : d.channel.stream.isShut with
    | true => exact .inr ⟨hpast, hshut⟩
    | false =>
      have hwhole := h.whole hshut
      rw [hinbox, List.append_nil] at hwhole
      exact .inl ⟨hends.resolve_right (hshut ▸ Bool.false_ne_true), hwhole⟩
  · exact absurd ha (hmute.answer bytes)

/-- **A call right behind its check** is not overtaken. -/
theorem Sound.prompt (h : d.Sound) {m : Mood} (hp : d.phase? .read ≠ some .checked)
    (ha : ((d.step .checkRead).2.step (.callRead m)).1 = .read (.ok [])) :
    d.channel.stream.ended = true ∧ d.returned = d.sent := by
  obtain ⟨hchecked, -, hnil⟩ := (sound_step h .checkRead).returns ha
  have hopen : d.channel.isClosed = false := by
    cases hc : d.channel.isClosed with
    | false => rfl
    | true => exact absurd (checked_step hc .checkRead hchecked) hp
  have hunshut := h.channel.unshut_of_open hopen
  change _ → d.checkRead.2.channel.stream.ended = true ∧ d.checkRead.2.returned = d.checkRead.2.sent ∨
    d.checkRead.2.Overtaken at hnil
  obtain ⟨reading, heq⟩ := d.checkRead_eq
  rw [heq] at hnil
  exact (hnil rfl).resolve_right fun hover => by cases hunshut.symm.trans hover.2

/-- What a read gets from a stream that serves it is what is left of all that was sent. -/
theorem Sound.gives (h : d.Sound) (hs : d.channel.stream.isShut = false) (hr : d.reading = some r)
    (hp : r.phase = .checked) (n : Nat) {rest : List UInt8} (hrest : d.returned ++ rest = d.sent) :
    (d.step (.callRead (.serves n))).1 =
      if rest = [] then if d.channel.stream.ended then .read (.ok []) else .nothing
      else .read (.ok (rest.take (min r.most (max 1 n)))) := by
  have hinbox : rest = d.channel.stream.inbox :=
    List.append_cancel_left (hrest.trans (h.whole hs).symm)
  subst hinbox
  show (d.callRead (.serves n)).1 = _
  rw [callRead_eq hr hp, Channel.callRead_serves hs]
  split
  · split <;> rfl
  · rfl

/-- A read that gets nothing for now asks the selector next, unless a signal interrupted its call. -/
theorem blocked_of_nothing (hr : d.reading = some r) (hp : r.phase = .checked) {m : Mood}
    (hnothing : (d.step (.callRead m)).1 = .nothing) (hm : m ≠ .interrupts) :
    (d.step (.callRead m)).2.reading = some { r with phase := .blocked } := by
  change (d.callRead m).1 = _ at hnothing
  show (d.callRead m).2.reading = _
  rw [callRead_eq hr hp] at hnothing ⊢
  cases hcall : (d.channel.callRead m r.most).1 with
  | wouldBlock => rfl
  | interrupted => exact absurd (Channel.interrupts_of_callRead hcall) hm
  | done bytes | failed e =>
    rw [hcall] at hnothing
    cases hnothing

/-- **What a socket in use keeps to**, whatever was done to it. -/
structure Honest (d : Dialogue) (acts : List Act) : Prop where
  /-- What reads returned is the front of what the other side sent before it ended. -/
  sent : d.sent = sentBy acts
  front : d.returned <+: d.sent
  /-- What a read returns comes next of that, and the read was past its check. It returns nothing only
      if the other side has ended and all that it sent was returned, or if a close overtook it. -/
  returns : ∀ a bytes, (d.step a).1 = .read (.ok bytes) →
    d.phase? .read = some .checked ∧ (d.step a).2.returned = d.returned ++ bytes ∧
      (bytes = [] → .peerEnds ∈ acts ∧ d.returned = d.sent ∨ d.Overtaken)
  keeps : ∀ a, (∀ bytes, (d.step a).1 ≠ .read (.ok bytes)) → (d.step a).2.returned = d.returned
  /-- No close overtakes a read whose call comes right behind its check: the end that it is told of is
      that of the other side. -/
  prompt : ∀ m, d.phase? .read ≠ some .checked →
    ((d.step .checkRead).2.step (.callRead m)).1 = .read (.ok []) →
      .peerEnds ∈ acts ∧ d.returned = d.sent
  /-- As long as the stream is not shut down, a call that is served gives what is there, data or the
      end. -/
  gives : ∀ r n rest, d.channel.stream.isShut = false → d.reading = some r → r.phase = .checked →
    d.returned ++ rest = d.sent → (d.step (.callRead (.serves n))).1 =
      if rest = [] then if acts.any Act.ends then .read (.ok []) else .nothing
      else .read (.ok (rest.take (min r.most (max 1 n))))
  /-- Nobody sleeps at a socket that was closed and told so, or whose selector is closed: either wakes
      whoever is suspended. Whoever sleeps is watched for. -/
  asleep : ∀ i, d.Asleep i → (d.channel.isClosed = true → d.channel.closing = some .notifying) ∧
    d.channel.selectorClosed = false ∧ d.channel.selectable.mask.contains i = true
  /-- Where the selector is closed, a read that got nothing from the stream fails. -/
  cut : d.channel.selectorClosed = true → ∀ r m refusal, d.reading = some r → r.phase = .checked →
    (d.step (.callRead m)).1 = .nothing → m ≠ .interrupts →
      ∃ e, ((d.step (.callRead m)).2.step (.askRead refusal)).1 = .read (.error (.ofSelect e))
  /-- A read that was about to be suspended when the selector was closed fails as well. -/
  cutAsk : d.channel.selectorClosed = true → ∀ r refusal, d.reading = some r → r.phase = .blocked →
    ∃ e, (d.step (.askRead refusal)).1 = .read (.error (.ofSelect e))
  /-- A closed socket fails everything from then on, but for one call of an operation that was past its
      check, and nothing more reaches the other side once it is shut down. -/
  closed : d.channel.isClosed = true → ∀ later, (d.run later).Dead ∧
    (d.phase? .read ≠ some .checked → (d.run later).returned = d.returned) ∧
    (d.phase? .write ≠ some .checked ∨ d.channel.stream.isShut = true →
      (d.run later).taken = d.taken)
  /-- The one who closes it shuts it down in two steps more, and nobody else does. -/
  completes : d.channel.isClosed = true → (d.run [.notify, .shut]).channel.stream.isShut = true
  shut : d.channel.stream.isShut = true ↔ d.channel.isClosed = true ∧ d.channel.closing = none
  /-- It is closed by `close`, or as the last handle is given up; one of two halves does not. -/
  closes : ∀ a, (d.step a).2.channel.isClosed = true ↔
    d.channel.isClosed = true ∨ a = .close ∨ a = .release ∧ d.channel.handles ≤ 1
  /-- The selector is closed by nobody else. -/
  cuts : ∀ a, (d.step a).2.channel.selectorClosed = true ↔
    d.channel.selectorClosed = true ∨ a = .closeSelector
  half : d.channel.handles = 2 →
    d.step .release = (.nothing, { d with channel := { d.channel with handles := 1 } })

/-- **The end of a stream is that of the other side**, and so is everything else that a read returns,
    whatever is done to a socket and its selector, and in whatever order, unless a close comes between
    the check of a read and its call. -/
theorem honest_run (selectorClosed : Bool) (acts : List Act) :
    ((opened selectorClosed).run acts).Honest acts := by
  have hsound := sound_run (sound_opened selectorClosed) acts
  obtain ⟨hsent, hended⟩ := (opened selectorClosed).sent_run acts
  generalize (opened selectorClosed).run acts = d at hsound hsent hended ⊢
  change d.sent = sentBy acts at hsent
  change d.channel.stream.ended = acts.any Act.ends at hended
  constructor
  case sent => exact hsent
  case front => exact (List.prefix_append _ _).trans hsound.front
  case returns =>
    intro a bytes ha
    rw [← any_ends, ← hended]
    exact hsound.returns ha
  case keeps =>
    intro a hnot
    rcases d.returned_step a with ⟨m, r, bytes, c, -, -, -, heq⟩ | hmute
    · exact absurd (congrArg Prod.fst heq) (hnot bytes)
    · exact hmute.returned
  case prompt =>
    intro m hp ha
    rw [← any_ends, ← hended]
    exact hsound.prompt hp ha
  case gives =>
    intro r n rest hs hr hp hrest
    rw [← hended]
    exact hsound.gives hs hr hp n hrest
  case asleep =>
    rintro i ⟨hphase, hwaits⟩
    exact hsound.channel.open_of_armed (hsound.attended i hphase hwaits)
  case cut =>
    intro hc r m refusal hr hp hnothing hm
    refine askRead_of_failed (blocked_of_nothing hr hp hnothing hm) rfl ?_
    refine (sound_step hsound (.callRead m)).channel.await_of_cancelled ?_ refusal .read
    exact ((d.closed_step (.callRead m)).2).mpr (.inl hc)
  case cutAsk =>
    intro hc r refusal hr hp
    exact askRead_of_failed hr hp (hsound.channel.await_of_cancelled hc refusal .read)
  case closed => exact fun hc later => hsound.dead_run hc later
  case completes => exact fun hc => hsound.channel.isShut_shut_notify hc
  case shut => exact hsound.channel.shut
  case closes => exact fun a => (d.closed_step a).1
  case cuts => exact fun a => (d.closed_step a).2
  case half =>
    intro htwo
    show (Reply.nothing, { d with channel := d.channel.release }) = _
    rw [Channel.release_of_handles (by omega), htwo]

/-- The halves are in use on two threads: a read has found the socket open, and the other half closes it
    before the system is called. -/
def overtaking (most : Nat) (pos : 0 < most) : List Act :=
  [.split, .read most pos, .checkRead, .close, .notify, .shut, .peerSends [1, 2]]

/-- **Nothing is returned to it**, though the other side goes on. -/
theorem overtaken_read : ¬ ∀ selectorClosed acts a,
    (((opened selectorClosed).run acts).step a).1 = .read (.ok []) →
      .peerEnds ∈ acts ∧
        ((opened selectorClosed).run acts).returned = ((opened selectorClosed).run acts).sent := by
  intro h
  obtain ⟨-, hall⟩ := h false (overtaking 4 (by decide)) (.callRead (.serves 4)) rfl
  cases hall

/-- A read that is suspended when the other half is closed fails, and is not told of an end. -/
example : (((opened false).run [.split, .read 4 (by decide), .checkRead, .callRead (.serves 4),
    .askRead none, .close, .notify, .shut]).step .checkRead).1 =
      .read (.error (.ofSelect .closed)) := rfl

end Dialogue

end Sluice.Socket
