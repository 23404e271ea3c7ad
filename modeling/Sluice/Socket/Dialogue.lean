/-
  File:      Sluice/Socket/Dialogue.lean
  Subject:   A socket in use: a read and a write under way, the other side, and the selector.

  * `Phase`, `Reading`, `Sending`: how far an operation is;
  * `Dialogue`: the socket, what is under way on it, and what was sent, returned and taken so far;
  * `checkRead`, `callRead`, `askRead`, and the same for a write: the steps of an operation, a look at
    whether the socket is closed, a call of the system, or a question to the selector;
  * `Act`, `Reply`, `step`, `run`: all that can happen, one thing after another.

  Between two steps of an operation anything else may happen, since the halves of a socket are used from
  different tasks: the other half may close it behind the look and before the call. The effects of
  closing are steps of their own too. How the system takes a call and what the selector reports is given
  from outside.
-/
import Sluice.Socket.Channel

namespace Sluice.Socket

open Sluice.Selector

/-- How far an operation is: it will look whether the socket is closed; it has found it open and will
    call the system; it was told to wait and will ask the selector; or it is suspended, and begins again
    when it is woken. -/
inductive Phase where
  | calling
  | checked
  | blocked
  | suspended
  deriving DecidableEq, Repr

/-- The next step of the operation is the look at whether the socket is closed. -/
def Phase.looks : Phase → Bool
  | .calling | .suspended => true
  | .checked | .blocked => false

/-- A read under way, of at most so many bytes. -/
structure Reading where
  most : Nat
  pos : 0 < most
  phase : Phase

/-- A write under way. -/
structure Sending where
  writing : Writing
  phase : Phase

/-- A socket in use. `finishing`: the end of writing was found to be allowed. The last three are kept for
    the record: what the other side sent, what reads returned, and what the stream took from writes. -/
structure Dialogue where
  channel : Channel
  reading : Option Reading
  sending : Option Sending
  finishing : Bool
  sent : List UInt8
  returned : List UInt8
  taken : List UInt8

/-- What happens: an operation begins or makes a step, the socket is split, closed or given up, its
    closing goes on, the other side sends or ends, the selector reports readiness or is closed. -/
inductive Act where
  | read (most : Nat) (pos : 0 < most)
  | checkRead
  | callRead (m : Mood)
  | askRead (refusal : Option OpError)
  | write (bytes : List UInt8)
  | checkWrite
  | callWrite (m : Mood)
  | askWrite (refusal : Option OpError)
  | finish
  | callFinish (failure : Option OpError)
  | split
  | close
  | release
  | notify
  | shut
  | peerSends (bytes : List UInt8)
  | peerEnds
  | event (ready : InterestSet)
  | closeSelector

/-- What comes of it, if an operation is over. -/
inductive Reply where
  | nothing
  | read (r : Except OpError (List UInt8))
  | write (r : Except OpError Unit)
  | finish (r : Except OpError Unit)

namespace Dialogue

/-- A fresh connection, under a selector that may be closed already. -/
def opened (selectorClosed : Bool) : Dialogue :=
  ⟨.fresh .connected selectorClosed, none, none, false, [], [], []⟩

/-! ## 1. Reading -/

/-- A read looks whether the socket is closed, if that is its next step. -/
def checkRead (d : Dialogue) : Reply × Dialogue :=
  match d.reading with
  | none => (.nothing, d)
  | some r =>
    if r.phase.looks then
      if d.channel.isClosed then (.read (.error (.ofSelect .closed)), { d with reading := none })
      else (.nothing, { d with reading := some { r with phase := .checked } })
    else (.nothing, d)

/-- What a call of the system comes to for a read. -/
def readHears (d : Dialogue) (r : Reading) : Attempt (List UInt8) → Reply × Dialogue
  | .done bytes =>
    (.read (.ok bytes), { d with reading := none, returned := d.returned ++ bytes })
  | .failed e => (.read (.error e), { d with reading := none })
  | .interrupted => (.nothing, { d with reading := some { r with phase := .calling } })
  | .wouldBlock => (.nothing, { d with reading := some { r with phase := .blocked } })

/-- A read that found the socket open calls the system, whatever became of the socket since. -/
def callRead (d : Dialogue) (m : Mood) : Reply × Dialogue :=
  match d.reading with
  | none => (.nothing, d)
  | some r =>
    if r.phase = .checked then
      let t := d.channel.callRead m r.most
      { d with channel := t.2 }.readHears r t.1
    else (.nothing, d)

/-- What a look at the selector comes to for a read. -/
def readLearns (d : Dialogue) (r : Reading) : Polled → Reply × Dialogue
  | .failed e => (.read (.error (.ofSelect e)), { d with reading := none })
  | .ready => (.nothing, { d with reading := some { r with phase := .calling } })
  | .pending => (.nothing, { d with reading := some { r with phase := .suspended } })

/-- A read that was told to wait asks the selector. -/
def askRead (d : Dialogue) (refusal : Option OpError) : Reply × Dialogue :=
  match d.reading with
  | none => (.nothing, d)
  | some r =>
    if r.phase = .blocked then
      let t := d.channel.await refusal .read
      { d with channel := t.2 }.readLearns r t.1
    else (.nothing, d)

/-! ## 2. Writing -/

/-- A write that came so far is over, or goes on. -/
def carryOn (d : Dialogue) (w : Writing) (phase : Phase) : Reply × Dialogue :=
  match w.result with
  | some r => (.write r, { d with sending := none })
  | none => (.nothing, { d with sending := some ⟨w, phase⟩ })

/-- A write looks whether the socket is closed, if that is its next step. -/
def checkWrite (d : Dialogue) : Reply × Dialogue :=
  match d.sending with
  | none => (.nothing, d)
  | some s =>
    if s.phase.looks then
      if d.channel.isClosed then d.carryOn (s.writing.fail (.ofSelect .closed)) .calling
      else (.nothing, { d with sending := some { s with phase := .checked } })
    else (.nothing, d)

/-- What a call of the system comes to for a write. -/
def writeHears (d : Dialogue) (w : Writing) : Attempt Nat → Reply × Dialogue
  | .done n => { d with taken := d.taken ++ w.left.take n }.carryOn (w.take n) .calling
  | .wouldBlock => d.carryOn w .blocked
  | a => d.carryOn (w.answer a) .calling

/-- A write that found the socket open calls the system. -/
def callWrite (d : Dialogue) (m : Mood) : Reply × Dialogue :=
  match d.sending with
  | none => (.nothing, d)
  | some s =>
    if s.phase = .checked then
      d.writeHears s.writing (d.channel.stream.writeAs m s.writing.left)
    else (.nothing, d)

/-- What a look at the selector comes to for a write. -/
def writeLearns (d : Dialogue) (w : Writing) : Polled → Reply × Dialogue
  | .failed e => d.carryOn (w.resume (.error (.ofSelect e))) .calling
  | .ready => d.carryOn (w.resume (.ok ())) .calling
  | .pending => d.carryOn (w.resume (.ok ())) .suspended

/-- A write that was told to wait asks the selector. -/
def askWrite (d : Dialogue) (refusal : Option OpError) : Reply × Dialogue :=
  match d.sending with
  | none => (.nothing, d)
  | some s =>
    if s.phase = .blocked then
      let t := d.channel.await refusal .write
      { d with channel := t.2 }.writeLearns s.writing t.1
    else (.nothing, d)

/-! ## 3. Everything -/

/-- The end of writing begins with the look at whether the socket is closed. -/
def finish (d : Dialogue) : Reply × Dialogue :=
  if d.channel.isClosed then (.finish (.error (.ofSelect .closed)), { d with finishing := false })
  else (.nothing, { d with finishing := true })

/-- What the system says to the end of writing, if it was found to be allowed. -/
def callFinish (d : Dialogue) (failure : Option OpError) : Reply × Dialogue :=
  if d.finishing then
    let t := d.channel.callFinish failure
    (.finish t.1, { d with channel := t.2, finishing := false })
  else (.nothing, d)

/-- One thing happens. Another read or write takes the place of one under way, which is given up. -/
def step (d : Dialogue) : Act → Reply × Dialogue
  | .read most pos => (.nothing, { d with reading := some ⟨most, pos, .calling⟩ })
  | .checkRead => d.checkRead
  | .callRead m => d.callRead m
  | .askRead refusal => d.askRead refusal
  | .write bytes => d.carryOn (.start bytes) .calling
  | .checkWrite => d.checkWrite
  | .callWrite m => d.callWrite m
  | .askWrite refusal => d.askWrite refusal
  | .finish => d.finish
  | .callFinish failure => d.callFinish failure
  | .split => (.nothing, { d with channel := d.channel.split })
  | .close => (.nothing, { d with channel := d.channel.mark })
  | .release => (.nothing, { d with channel := d.channel.release })
  | .notify => (.nothing, { d with channel := d.channel.notify })
  | .shut => (.nothing, { d with channel := d.channel.shut })
  | .peerSends bytes =>
    (.nothing,
      { d with
        channel := d.channel.receive bytes
        sent := if d.channel.stream.ended then d.sent else d.sent ++ bytes })
  | .peerEnds => (.nothing, { d with channel := d.channel.peerEnd })
  | .event ready => (.nothing, { d with channel := d.channel.event ready })
  | .closeSelector => (.nothing, { d with channel := d.channel.cancel })

/-- What a socket is after all of that happened. -/
def run (d : Dialogue) (acts : List Act) : Dialogue := acts.foldl (fun d a => (d.step a).2) d

end Dialogue

end Sluice.Socket
