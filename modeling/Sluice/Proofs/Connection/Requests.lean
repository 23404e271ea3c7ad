/-
  File:      Sluice/Proofs/Connection/Requests.lean
  Subject:   The requests of a stream that are accepted, and those a reader still comes to.

  * `Engine.requests`: the requests of a stream, in order, up to the first one that is at fault, whose
    framing is, or whose body is;
  * `requests_congr`: they depend on the bytes of the stream alone;
  * `Engine.coming`: the requests that a reader still comes to, the one it has in hand first;
  * **`coming_readHead`**, **`coming_readBody`**, **`coming_enroll`**: reading on in a head or in a
    body leaves them as they are, and the start of a handler takes the first of them.
-/
import Sluice.Proofs.Connection.Steps

namespace Sluice.Http

open Sluice.Wire

/-- What is left behind a body is no more than there was. -/
theorem Framing.length_yield_le {f : Framing} {failure : Option Failure} {bytes rest : List UInt8}
    {n : Nat} (h : (f.yield failure bytes).result = .ok (n, rest)) : rest.length ≤ bytes.length := by
  have hbytes : (Source.ofSegments [bytes] failure).bytes = bytes := by
    rw [Source.bytes_ofSegments, List.flatten_singleton]
  obtain ⟨_, hends⟩ := f.copy_eq (.ofSegments [bytes] failure) (Sink.takes_unlimited _)
  rw [hbytes] at hends
  unfold Copied.Ends at hends
  rw [show (f.yield (Source.ofSegments [bytes] failure).failure bytes).result = _ from h] at hends
  have hle := f.size_copy_le (.ofSegments [bytes] failure) .unlimited
  unfold Source.size at hle
  rwa [hends.2.1, hbytes] at hle

end Sluice.Http

namespace Sluice.Connection

open Sluice.Http Sluice.Wire

namespace Engine

/-! ## 1. The requests of a stream -/

/-- **The requests of a stream that are accepted**, in order: their heads are well-formed and say how
    the body is delimited. Behind a request whose body is at fault there are none. -/
def requests (g : Engine) (source : Source) : List (Request × Framing) :=
  match _hr : Request.read? g.store source with
  | (.ok (some request), rest) =>
    match request.framing with
    | .error _ => []
    | .ok framing =>
      match _hy : (framing.yield rest.failure rest.bytes).result with
      | .error _ => [(request, framing)]
      | .ok (_, later) => (request, framing) :: g.requests (.ofSegments [later] rest.failure)
  | _ => []
termination_by source.size
decreasing_by
  have hlt : (Request.read? g.store source).2.size < source.size :=
    Request.size_read?_lt (by rw [_hr])
  have hle := Framing.length_yield_le _hy
  rw [_hr] at hlt
  refine Nat.lt_of_le_of_lt ?_ hlt
  rw [Source.size, Source.bytes_ofSegments, List.flatten_singleton]
  exact hle

/-- The requests behind a body. -/
def requestsBehind (g : Engine) (failure : Option Failure) (body : Yield Nat) :
    List (Request × Framing) :=
  match body.result with
  | .error _ => []
  | .ok (_, later) => g.requests (.ofSegments [later] failure)

/-- The requests by what became of reading a head. -/
def requestsFrom (g : Engine) (read : Except MessageError (Option Request) × Source) :
    List (Request × Framing) :=
  match read with
  | (.ok (some request), rest) =>
    match request.framing with
    | .error _ => []
    | .ok framing => (request, framing) ::
        g.requestsBehind rest.failure (framing.yield rest.failure rest.bytes)
  | _ => []

variable {g : Engine} {s t : State} {source source' : Source}

/-- **The requests of a stream**, one after the other. -/
theorem requests_eq (g : Engine) (source : Source) :
    g.requests source = g.requestsFrom (Request.read? g.store source) := by
  rw [requests.eq_def]
  unfold requestsFrom
  split
  · rename_i request rest hr
    rw [hr]
    dsimp only
    split
    · rfl
    · unfold requestsBehind
      split <;> rename_i hy <;> rw [hy]
  · rename_i hr
    split
    · exact absurd ‹_› (hr _ _)
    · rfl

/-- Streams of the same bytes have the same requests. -/
theorem requests_congr (hbytes : source.bytes = source'.bytes)
    (hfailure : source.failure = source'.failure) : g.requests source = g.requests source' := by
  obtain ⟨hsame, hrest⟩ := Request.read?_congr g.store hbytes hfailure
  rw [requests_eq, requests_eq]
  unfold requestsFrom
  cases hread : Request.read? g.store source with
  | mk result rest =>
    cases hread' : Request.read? g.store source' with
    | mk result' rest' =>
      rw [hread, hread'] at hsame hrest
      obtain rfl : result = result' := hsame
      cases result with
      | error e => rfl
      | ok o =>
        cases o with
        | none => rfl
        | some request =>
          obtain ⟨hb, hf⟩ := hrest _ rfl
          dsimp only at hb hf ⊢
          rw [hb, hf]

theorem requests_ofSegments (g : Engine) (source : Source) :
    g.requests (.ofSegments [source.bytes] source.failure) = g.requests source :=
  requests_congr (by rw [Source.bytes_ofSegments, List.flatten_singleton]) rfl

/-- What is accepted says how its body is delimited. -/
theorem framing_of_mem_requests {request : Request} {framing : Framing}
    (h : (request, framing) ∈ g.requests source) : request.framing = .ok framing := by
  fun_induction requests g source with
  | case1 => cases h
  | case2 source r rest hr f hf e hy =>
    obtain ⟨rfl, rfl⟩ := Prod.mk.inj (List.mem_singleton.mp h)
    exact hf
  | case3 source r rest hr f hf n later hy ih =>
    rcases List.mem_cons.mp h with h | h
    · obtain ⟨rfl, rfl⟩ := Prod.mk.inj h
      exact hf
    · exact ih h
  | case4 => cases h

/-! ## 2. The requests a reader comes to -/

/-- The requests from a place in a head on. -/
def requestsOn (g : Engine) (h : HeadState RequestLine) (source : Source) :
    List (Request × Framing) :=
  let read := (headFeeder RequestLine.ofText g.store).read h source
  g.requestsFrom (read.1.map (·.map .ofHead), read.2)

/-- The requests that a reader still comes to, the one it has in hand first. -/
def coming (g : Engine) (source : Source) : Reader → List (Request × Framing)
  | .head h => g.requestsOn h source
  | .offering request framing =>
    (request, framing) ::
      g.requestsBehind source.failure (framing.yield source.failure source.bytes)
  | .copying _ _ (some _) => g.requests source
  | .copying b _ none => g.requestsBehind source.failure (b.yield source.failure source.bytes)
  | .refusing _ _ | .answering _ _ | .ended _ => []

/-- Before the first byte of a head, these are the requests of the stream. -/
theorem coming_fresh (g : Engine) (source : Source) :
    g.coming source (.head (.fresh g.store)) = g.requests source :=
  (requests_eq g source).symm

theorem coming_refuse (g : Engine) (source : Source) (e : MessageError) :
    g.coming source (refuse e) = [] := by
  unfold refuse
  split <;> rfl

/-- **In a head**, the reader goes on to the same requests. -/
theorem coming_readHead {h : HeadState RequestLine} {r : Except Failure (List UInt8)}
    (ha : s.arrivals.available = some r) :
    g.coming (g.readHead s h r).arrivals.toSource (g.readHead s h r).reader =
      g.requestsOn h s.arrivals.toSource := by
  unfold requestsOn
  rw [read_eq, Arrivals.available_toSource ha]
  cases r with
  | error f => rfl
  | ok bytes =>
    cases bytes with
    | nil =>
      unfold readHead
      dsimp only
      cases hend : h.atEnd with
      | error e =>
        show g.coming _ (refuse e) = g.requestsFrom (h.atEnd.map (·.map .ofHead), _)
        rw [hend]
        exact coming_refuse g _ e
      | ok o =>
        show [] = g.requestsFrom (h.atEnd.map (·.map .ofHead), _)
        rw [hend, atEnd_eq_none hend]
        rfl
    | cons b bs =>
      unfold readHead
      dsimp only
      cases hv : ((headFeeder RequestLine.ofText g.store).feed h (b :: bs)).verdict with
      | fault e => exact coming_refuse g _ e
      | more =>
        dsimp only
        rw [← Arrivals.toSource_consume]
        rfl
      | done o =>
        cases o with
        | none => rfl
        | some head =>
          dsimp only
          rw [← Arrivals.toSource_consume]
          unfold requestsFrom
          dsimp only [Except.map, Option.map]
          cases (Request.ofHead head).framing with
          | error e => exact coming_refuse g _ e
          | ok f => rfl

/-- The requests behind a body whose end is known. -/
theorem requestsBehind_ok {failure : Option Failure} {output rest : List UInt8} {n : Nat}
    (hbytes : source.bytes = rest) (hfailure : source.failure = failure) :
    g.requestsBehind failure ⟨output, .ok (n, rest)⟩ = g.requests source := by
  rw [← hbytes, ← hfailure]
  exact requests_ofSegments g source

/-- **In a body**, the reader goes on to the same requests. -/
theorem coming_readBody {b : BodyState} {r : Except Failure (List UInt8)} (hb : b.Going)
    (ha : s.arrivals.available = some r) :
    g.coming (readBody s b r).arrivals.toSource (readBody s b r).reader =
      g.requestsBehind s.arrivals.toSource.failure
        (b.yield s.arrivals.toSource.failure s.arrivals.toSource.bytes) := by
  have hsource := Arrivals.available_toSource ha
  cases r with
  | error f =>
    obtain ⟨hbytes, hfailure⟩ := Source.bytes_of_available_error hsource
    rw [hbytes, hfailure, yields_bodyFeeder.atEnd _ b hb]
    rfl
  | ok bytes =>
    cases bytes with
    | nil =>
      obtain ⟨hbytes, hfailure⟩ := Source.bytes_of_available_nil hsource
      rw [hbytes, hfailure, yields_bodyFeeder.atEnd _ b hb]
      unfold readBody
      show _ = g.requestsBehind none ⟨[], b.atEnd.map (·, [])⟩
      dsimp only
      cases b.atEnd with
      | error e => rfl
      | ok total => exact (requestsBehind_ok hbytes hfailure).symm
    | cons x xs =>
      obtain ⟨later, hbytes, hfail, hleft⟩ := exists_left ha
      rw [hbytes]
      unfold readBody
      dsimp only
      cases hv : (bodyFeeder.feed b (x :: xs)).verdict with
      | fault e =>
        rw [yields_bodyFeeder.of_fault _ hb hv]
        rfl
      | more =>
        obtain ⟨_, hle, hflat⟩ :=
          yields_bodyFeeder.of_more s.arrivals.toSource.failure hb hv later
        rw [hflat, ← hfail, ← hleft _ hle]
        rfl
      | done total =>
        obtain ⟨hle, hflat⟩ :=
          yields_bodyFeeder.of_done s.arrivals.toSource.failure hb hv later
        rw [hflat]
        exact (requestsBehind_ok (hleft _ hle) (hfail _)).symm

/-- **The start of a handler** takes the first of the requests. -/
theorem coming_enroll (g : Engine) (s : State) (request : Request) (framing : Framing) :
    (request, framing) ::
        g.coming (g.enroll s request framing).arrivals.toSource (g.enroll s request framing).reader =
      g.coming s.arrivals.toSource (.offering request framing) := by
  have hbehind : g.coming s.arrivals.toSource (.offering request framing) =
      (request, framing) :: g.requestsBehind s.arrivals.toSource.failure
        (framing.yield s.arrivals.toSource.failure s.arrivals.toSource.bytes) := rfl
  rw [hbehind]
  cases hbody : BodyState.ofFraming framing with
  | none =>
    rw [enroll_of_none request hbody, Framing.yield_of_none hbody, requestsBehind_ok rfl rfl]
    exact congrArg _ (coming_fresh g s.arrivals.toSource)
  | some b =>
    rw [enroll_of_some request hbody, Framing.yield_of_some hbody]
    rfl

end Engine

end Sluice.Connection
