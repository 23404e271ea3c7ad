/-
  File:      Sluice/Proofs/Segments.lean
  Subject:   Where a stream is cut into segments cannot be told from what is read.

  * `Taken`, `Request.take`, `Response.take`: one message of a stream, with what was made of its body;
  * `Taken.Agrees`: two calls that cannot be told apart, `Request.take_agrees`;
  * `Series`, `Provision`: calls one after the other, each with a store and perhaps a new receiver;
  * **`series_agree`**: over streams of the same bytes that end alike, into receivers of the same
    limits, the same messages and bodies are read, with the same outcome, and the same bytes are left.
-/
import Mathlib.Data.List.Forall2
import Sluice.Proofs.Bodies
import Sluice.Proofs.Head.Lines

namespace Sluice.Http

open Sluice.Wire

/-! ## 1. One message -/

/-- A message, and what was made of its body, if that was read: the bytes in its receiver, and their
    number or what was at fault. -/
structure Delivery (μ : Type) where
  message : μ
  body : Option (List UInt8 × Except MessageError Nat)

/-- What one call took out of a stream: a message, whether another one can follow it or what was at
    fault, and stream and receiver at that moment. -/
structure Taken (μ : Type) where
  item : Option (Delivery μ)
  outcome : Except MessageError Bool
  source : Source
  sink : Sink

/-- Takes a request, and its body into a receiver, if one is announced. -/
def Request.take (store : Store) (source : Source) (sink : Sink) : Taken Request :=
  match Request.read? store source with
  | (.error e, rest) => ⟨none, .error e, rest, sink⟩
  | (.ok none, rest) => ⟨none, .ok false, rest, sink⟩
  | (.ok (some r), rest) =>
    if r.announcesBody then
      let body := copyBody r.headers rest sink
      ⟨some ⟨r, some (body.sink.written.toList, body.result)⟩, body.result.map fun _ => true,
        body.source, body.sink⟩
    else ⟨some ⟨r, none⟩, .ok true, rest, sink⟩

/-- Takes the head of a response. -/
def Response.take (store : Store) (source : Source) (sink : Sink) : Taken Response :=
  match Response.read? store source with
  | (.error e, rest) => ⟨none, .error e, rest, sink⟩
  | (.ok none, rest) => ⟨none, .ok false, rest, sink⟩
  | (.ok (some r), rest) => ⟨some ⟨r, none⟩, .ok true, rest, sink⟩

/-- Two calls that cannot be told apart. What they left is compared unless something was at fault. -/
structure Taken.Agrees {μ : Type} (t t' : Taken μ) : Prop where
  item : t.item = t'.item
  outcome : t.outcome = t'.outcome
  bytes : ∀ goesOn, t.outcome = .ok goesOn → t.source.bytes = t'.source.bytes
  failure : ∀ goesOn, t.outcome = .ok goesOn → t.source.failure = t'.source.failure
  sink : ∀ goesOn, t.outcome = .ok goesOn → t.sink.Alike t'.sink

section Calls

variable {source source' : Source} {sink sink' : Sink}

/-- **A body copied** from streams of the same bytes into receivers that are alike. -/
theorem copyBody_congr (h : Headers) (hbytes : source.bytes = source'.bytes)
    (hfailure : source.failure = source'.failure) (hsink : sink.Alike sink') :
    (copyBody h source sink).result = (copyBody h source' sink').result ∧
      (copyBody h source sink).sink.Alike (copyBody h source' sink').sink ∧
      ∀ n, (copyBody h source sink).result = .ok n →
        (copyBody h source sink).source.bytes = (copyBody h source' sink').source.bytes ∧
          (copyBody h source sink).source.failure = (copyBody h source' sink').source.failure := by
  unfold copyBody
  cases Framing.ofHeaders h with
  | error e => exact ⟨rfl, hsink, nofun⟩
  | ok f =>
    obtain ⟨hwrote, hends⟩ := f.copy_within source hsink.takes_left
    obtain ⟨hwrote', hends'⟩ := f.copy_within source' hsink.takes_right
    rw [← hbytes, ← hfailure, ← hsink.room] at hwrote' hends'
    have halike := hsink.wrote hwrote hwrote'
    unfold Copied.Ends at hends hends'
    dsimp only
    cases hy : ((f.yield source.failure source.bytes).within sink.room).result with
    | error e =>
      rw [hy] at hends hends'
      rw [show _ = _ from hends, show _ = _ from hends']
      exact ⟨hends.trans hends'.symm, halike, fun n hn => by rw [hends] at hn; cases hn⟩
    | ok found =>
      rw [hy] at hends hends'
      obtain ⟨hresult, hrest, hfail⟩ := hends
      obtain ⟨hresult', hrest', hfail'⟩ := hends'
      have hleft := And.intro (hrest.trans hrest'.symm) (hfail.trans hfail'.symm)
      obtain ⟨hend, hclosed⟩ := halike.shutdown
      rw [hresult, hresult']
      dsimp only
      generalize (f.copy source sink).sink.shutdown = ended at hend hclosed ⊢
      generalize (f.copy source' sink').sink.shutdown = ended' at hend hclosed ⊢
      obtain ⟨failed, closed⟩ := ended
      obtain ⟨failed', closed'⟩ := ended'
      obtain rfl : failed = failed' := hend
      cases failed with
      | some e => exact ⟨rfl, hclosed, nofun⟩
      | none => exact ⟨rfl, hclosed, fun _ _ => hleft⟩

variable (store : Store) (hbytes : source.bytes = source'.bytes)
  (hfailure : source.failure = source'.failure) (hsink : sink.Alike sink')

include hbytes hfailure hsink

/-- **A request with its body** is the same from streams of the same bytes. -/
theorem Request.take_agrees :
    (Request.take store source sink).Agrees (Request.take store source' sink') := by
  obtain ⟨hsame, hrest⟩ := Request.read?_congr store hbytes hfailure
  unfold Request.take
  generalize Request.read? store source = read at hsame hrest ⊢
  generalize Request.read? store source' = read' at hsame hrest ⊢
  obtain ⟨result, rest⟩ := read
  obtain ⟨result', rest'⟩ := read'
  obtain rfl : result = result' := hsame
  cases result with
  | error e => exact ⟨rfl, rfl, nofun, nofun, nofun⟩
  | ok o =>
    obtain ⟨hleft, hfail⟩ := hrest o rfl
    cases o with
    | none => exact ⟨rfl, rfl, fun _ _ => hleft, fun _ _ => hfail, fun _ _ => hsink⟩
    | some r =>
      dsimp only
      cases r.announcesBody with
      | false => exact ⟨rfl, rfl, fun _ _ => hleft, fun _ _ => hfail, fun _ _ => hsink⟩
      | true =>
        obtain ⟨hresult, halike, hbehind⟩ := copyBody_congr r.headers hleft hfail hsink
        rw [if_pos rfl, if_pos rfl, ← halike.written, ← hresult]
        cases hcopied : (copyBody r.headers rest sink).result with
        | error e => exact ⟨rfl, rfl, nofun, nofun, nofun⟩
        | ok n =>
          obtain ⟨hleft, hfail⟩ := hbehind n hcopied
          exact ⟨rfl, rfl, fun _ _ => hleft, fun _ _ => hfail, fun _ _ => halike⟩

/-- **A response** is the same from streams of the same bytes. -/
theorem Response.take_agrees :
    (Response.take store source sink).Agrees (Response.take store source' sink') := by
  obtain ⟨hsame, hrest⟩ := Response.read?_congr store hbytes hfailure
  unfold Response.take
  generalize Response.read? store source = read at hsame hrest ⊢
  generalize Response.read? store source' = read' at hsame hrest ⊢
  obtain ⟨result, rest⟩ := read
  obtain ⟨result', rest'⟩ := read'
  obtain rfl : result = result' := hsame
  cases result with
  | error e => exact ⟨rfl, rfl, nofun, nofun, nofun⟩
  | ok o =>
    obtain ⟨hleft, hfail⟩ := hrest o rfl
    cases o with
    | none => exact ⟨rfl, rfl, fun _ _ => hleft, fun _ _ => hfail, fun _ _ => hsink⟩
    | some r => exact ⟨rfl, rfl, fun _ _ => hleft, fun _ _ => hfail, fun _ _ => hsink⟩

end Calls

/-! ## 2. One message after the other -/

/-- What one call works with: where it lays down a head, and a new receiver for the body, or none to
    go on with the one of the call before. -/
structure Provision where
  store : Store
  writer : Option Sink

/-- Provisions that differ at most in what a single write takes. -/
structure Provision.Alike (p p' : Provision) : Prop where
  store : p.store = p'.store
  writer : Option.Rel Sink.Alike p.writer p'.writer

theorem Provision.Alike.sink {p p' : Provision} {sink sink' : Sink} (h : p.Alike p')
    (hsink : sink.Alike sink') : (p.writer.getD sink).Alike (p'.writer.getD sink') := by
  have hwriter := h.writer
  generalize p.writer = writer at hwriter ⊢
  generalize p'.writer = writer' at hwriter ⊢
  cases hwriter with
  | some hnew => exact hnew
  | none => exact hsink

/-- What several calls took out of a stream: the messages, and outcome and stream after the last. -/
structure Series (μ : Type) where
  items : List (Delivery μ)
  outcome : Except MessageError Bool
  source : Source

section Series

variable {μ : Type} (take : Store → Source → Sink → Taken μ)

/-- Calls one after the other, until they are used up, the stream ends or something is at fault. -/
def Series.ofCalls (source : Source) (sink : Sink) : List Provision → Series μ
  | [] => ⟨[], .ok true, source⟩
  | p :: later =>
    let taken := take p.store source (p.writer.getD sink)
    match taken.outcome with
    | .ok true =>
      let series := ofCalls taken.source taken.sink later
      { series with items := taken.item.toList ++ series.items }
    | outcome => ⟨taken.item.toList, outcome, taken.source⟩

/-- Two series that cannot be told apart. What they left is compared unless something was at fault. -/
structure Series.Agrees (s s' : Series μ) : Prop where
  items : s.items = s'.items
  outcome : s.outcome = s'.outcome
  bytes : ∀ goesOn, s.outcome = .ok goesOn → s.source.bytes = s'.source.bytes

variable {take}

/-- **Calls that agree one by one** agree one after the other. -/
theorem Series.agrees_of_take
    (htake : ∀ (store : Store) (source source' : Source) (sink sink' : Sink),
      source.bytes = source'.bytes → source.failure = source'.failure → sink.Alike sink' →
        (take store source sink).Agrees (take store source' sink'))
    {source source' : Source} {sink sink' : Sink} {calls calls' : List Provision}
    (hcalls : List.Forall₂ Provision.Alike calls calls') (hbytes : source.bytes = source'.bytes)
    (hfailure : source.failure = source'.failure) (hsink : sink.Alike sink') :
    (Series.ofCalls take source sink calls).Agrees
      (Series.ofCalls take source' sink' calls') := by
  induction hcalls generalizing source source' sink sink' with
  | nil => exact ⟨rfl, rfl, fun _ _ => hbytes⟩
  | @cons p p' later later' hp _ ih =>
    have hagrees := htake p.store _ _ _ _ hbytes hfailure (hp.sink hsink)
    unfold Series.ofCalls
    rw [hp.store] at hagrees ⊢
    generalize take p'.store source (p.writer.getD sink) = taken at hagrees ⊢
    generalize take p'.store source' (p'.writer.getD sink') = taken' at hagrees ⊢
    dsimp only
    rw [← hagrees.outcome, ← hagrees.item]
    cases ho : taken.outcome with
    | error e => exact ⟨rfl, rfl, nofun⟩
    | ok goesOn =>
      cases goesOn with
      | false => exact ⟨rfl, rfl, fun _ _ => hagrees.bytes _ ho⟩
      | true =>
        have hlater := ih (hagrees.bytes _ ho) (hagrees.failure _ ho) (hagrees.sink _ ho)
        exact ⟨congrArg (taken.item.toList ++ ·) hlater.items, hlater.outcome, hlater.bytes⟩

end Series

/-- **Segmentation cannot be observed**: over two streams of the same bytes that end alike, with
    receivers of the same limits, whatever a single write takes, any number of calls read the same
    requests with the same bodies, or the same responses, come to the same outcome, and unless
    something was at fault leave the same bytes. -/
theorem series_agree {source source' : Source} {sink sink' : Sink} {calls calls' : List Provision}
    (hbytes : source.bytes = source'.bytes) (hfailure : source.failure = source'.failure)
    (hsink : sink.Alike sink') (hcalls : List.Forall₂ Provision.Alike calls calls') :
    (Series.ofCalls Request.take source sink calls).Agrees
        (Series.ofCalls Request.take source' sink' calls') ∧
      (Series.ofCalls Response.take source sink calls).Agrees
        (Series.ofCalls Response.take source' sink' calls') :=
  ⟨Series.agrees_of_take (fun store _ _ _ _ => Request.take_agrees store) hcalls hbytes hfailure
      hsink,
    Series.agrees_of_take (fun store _ _ _ _ => Response.take_agrees store) hcalls hbytes hfailure
      hsink⟩

/-- A request with a body and one behind it, in one segment, and cut inside a header and inside the
    body, the body written a byte at a time. -/
theorem series_agree_cut :
    (Series.ofCalls Request.take
        (.ofSegments [Utf8.encode "POST / HTTP/1.1\nContent-Length: 2\n\nabGET / HTTP/1.1\n\n".toList]
          none)
        (.ofLimits (some 9) none none)
        [⟨.ofChunkSize 4 (by decide), none⟩,
          ⟨.ofChunkSize 4 (by decide), some (.ofLimits none (some 2) none)⟩]).Agrees
      (Series.ofCalls Request.take
        (.ofSegments [Utf8.encode "POST / HTTP/1.1\nContent-L".toList,
          Utf8.encode "ength: 2\n\na".toList, Utf8.encode "bGET / HTTP/1.1\n\n".toList] none)
        (.ofLimits (some 9) (some 1) none)
        [⟨.ofChunkSize 4 (by decide), none⟩,
          ⟨.ofChunkSize 4 (by decide), some (.ofLimits none none none)⟩]) := by
  have hsink : (Sink.ofLimits (some 9) none none).Alike (.ofLimits (some 9) (some 1) none) :=
    Sink.alike_ofLimits _ _ (by decide) (by decide)
  have hfresh : (Sink.ofLimits none (some 2) none).Alike (.ofLimits none none none) :=
    Sink.alike_ofLimits _ _ (by decide) (by decide)
  refine (series_agree ?_ ?_ hsink (.cons ?_ (.cons ?_ .nil))).1
  · decide +kernel
  · exact Eq.refl none
  · exact ⟨rfl, .none⟩
  · exact ⟨rfl, .some hfresh⟩

end Sluice.Http
