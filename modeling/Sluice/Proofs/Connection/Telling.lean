/-
  File:      Sluice/Proofs/Connection/Telling.lean
  Subject:   The account of a connection depends on the bytes of its stream alone.

  * **`accountFrom_congr`**: streams of the same bytes have the same account;
  * `Engine.tell`, `Engine.inBody`, `Engine.behindBody`: the account of flat bytes, from a head on,
    from a body on, and behind a body;
  * `Engine.readOn`, `readOn_fresh`: the account from a place in a head on.
-/
import Sluice.Connection.Account
import Sluice.Proofs.Bodies
import Sluice.Proofs.Head.Lines

namespace Sluice

open Http Wire

/-! ## 1. Segments do not matter -/

namespace Connection

namespace Engine

variable {g : Engine} {n : Nat} {source source' : Source}

/-- The account of a stream without a further request. -/
theorem accountFrom_of_error {e : MessageError} (h : (Request.read? g.store source).1 = .error e) :
    g.accountFrom n source = ⟨refusal e, .error e⟩ := by
  rw [accountFrom.eq_def]
  split
  · rename_i hr
    rw [hr] at h
    cases h
    rfl
  · rename_i hr
    rw [hr] at h
    cases h
  · rename_i hr
    rw [hr] at h
    cases h

theorem accountFrom_of_none (h : (Request.read? g.store source).1 = .ok none) :
    g.accountFrom n source = ⟨[], .ok ()⟩ := by
  rw [accountFrom.eq_def]
  split
  · rename_i hr
    rw [hr] at h
    cases h
  · rfl
  · rename_i hr
    rw [hr] at h
    cases h

/-- The account of a stream with a request, its framing known. -/
theorem accountFrom_of_framing {r : Request} {f : Framing}
    (h : (Request.read? g.store source).1 = .ok (some r)) (hf : r.framing = .ok f) :
    g.accountFrom n source =
      match (f.copy (Request.read? g.store source).2 .unlimited).result with
      | .error e => ⟨(g.handler n r (!f.isNone)).answer
          (f.copy (Request.read? g.store source).2 .unlimited).sink.written.toList, .error e⟩
      | .ok _ => ⟨(g.handler n r (!f.isNone)).answer
          (f.copy (Request.read? g.store source).2 .unlimited).sink.written.toList ++
          (g.accountFrom (n + 1) (f.copy (Request.read? g.store source).2 .unlimited).source).output,
          (g.accountFrom (n + 1) (f.copy (Request.read? g.store source).2 .unlimited).source).result⟩ := by
  rw [accountFrom.eq_def]
  split
  · rename_i hr
    rw [hr] at h
    cases h
  · rename_i hr
    rw [hr] at h
    cases h
  · rename_i r' rest hr
    rw [hr] at h ⊢
    obtain rfl : r' = r := Option.some.inj (Except.ok.inj h)
    cases hf' : r'.framing with
    | error e =>
      rw [hf] at hf'
      cases hf'
    | ok f' =>
      rw [hf] at hf'
      cases hf'
      rfl

/-- The account of a stream with a request whose framing is at fault. -/
theorem accountFrom_of_framing_error {r : Request} {e : MessageError}
    (h : (Request.read? g.store source).1 = .ok (some r)) (hf : r.framing = .error e) :
    g.accountFrom n source = ⟨refusal e, .error e⟩ := by
  rw [accountFrom.eq_def]
  split
  · rename_i hr
    rw [hr] at h
    cases h
  · rename_i hr
    rw [hr] at h
    cases h
  · rename_i r' rest hr
    rw [hr] at h
    obtain rfl : r' = r := Option.some.inj (Except.ok.inj h)
    rw [hf]

/-- **Streams of the same bytes** have the same account. -/
theorem accountFrom_congr (hbytes : source.bytes = source'.bytes)
    (hfailure : source.failure = source'.failure) :
    g.accountFrom n source = g.accountFrom n source' := by
  -- by the number of bytes: every request takes up some
  induction hsize : source.size using Nat.strongRecOn generalizing n source source' with
  | ind size ih =>
    obtain ⟨hsame, hrest⟩ := Request.read?_congr g.store hbytes hfailure
    cases hr : (Request.read? g.store source).1 with
    | error e =>
      rw [accountFrom_of_error hr, accountFrom_of_error (hsame ▸ hr)]
    | ok o =>
      cases o with
      | none => rw [accountFrom_of_none hr, accountFrom_of_none (hsame ▸ hr)]
      | some r =>
        have hr' : (Request.read? g.store source').1 = .ok (some r) := hsame ▸ hr
        obtain ⟨hb, hfail⟩ := hrest _ hr
        cases hf : r.framing with
        | error e => rw [accountFrom_of_framing_error hr hf, accountFrom_of_framing_error hr' hf]
        | ok f =>
          rw [accountFrom_of_framing hr hf, accountFrom_of_framing hr' hf]
          have hlt := Request.size_read?_lt hr
          have hle := f.size_copy_le (Request.read? g.store source).2 .unlimited
          obtain ⟨hw, hends⟩ := Framing.copy_eq f (Request.read? g.store source).2
            (Sink.takes_unlimited _)
          obtain ⟨hw', hends'⟩ := Framing.copy_eq f (Request.read? g.store source').2
            (Sink.takes_unlimited _)
          rw [← hb, ← hfail] at hw' hends'
          rw [hw.written, hw'.written]
          unfold Copied.Ends at hends hends'
          cases hy : (f.yield (Request.read? g.store source).2.failure
            (Request.read? g.store source).2.bytes).result with
          | error e =>
            rw [hy] at hends hends'
            rw [show _ = _ from hends, show _ = _ from hends']
          | ok found =>
            rw [hy] at hends hends'
            rw [hends.1, hends'.1]
            dsimp only
            rw [ih _ (by omega) (hends.2.1.trans hends'.2.1.symm)
              (hends.2.2.trans hends'.2.2.symm) rfl]

/-! ## 2. The account of flat bytes -/

/-- The account of bytes from the `n`th request on, however they arrive. -/
def tell (g : Engine) (n : Nat) (failure : Option Failure) (bytes : List UInt8) : Account :=
  g.accountFrom n (.ofSegments [bytes] failure)

/-- What is sent for the requests behind a body. -/
def behindBody (g : Engine) (n : Nat) (failure : Option Failure) (body : Yield Nat) : Account :=
  match body.result with
  | .error e => ⟨[], .error e⟩
  | .ok (_, rest) => g.tell n failure rest

/-- What is sent for the `n`th request and all that follow, by the bytes behind its head. -/
def inBody (g : Engine) (n : Nat) (failure : Option Failure) (r : Request) (f : Framing)
    (bytes : List UInt8) : Account :=
  let body := f.yield failure bytes
  let later := g.behindBody (n + 1) failure body
  ⟨(g.handler n r (!f.isNone)).answer body.output ++ later.output, later.result⟩

/-- What is sent by what became of reading a head: for a fault, for the end of the stream, or for a
    request and all that follow. -/
def behindHead (g : Engine) (n : Nat) (read : Except MessageError (Option Request) × Source) :
    Account :=
  match read with
  | (.error e, _) => ⟨refusal e, .error e⟩
  | (.ok none, _) => ⟨[], .ok ()⟩
  | (.ok (some r), rest) =>
    match r.framing with
    | .error e => ⟨refusal e, .error e⟩
    | .ok f => g.inBody n rest.failure r f rest.bytes

theorem accountFrom_eq_tell (g : Engine) (n : Nat) (source : Source) :
    g.accountFrom n source = g.tell n source.failure source.bytes :=
  accountFrom_congr (by rw [Source.bytes_ofSegments, List.flatten_singleton]) rfl

/-- **The account of a stream**, request by request. -/
theorem accountFrom_eq (g : Engine) (n : Nat) (source : Source) :
    g.accountFrom n source = g.behindHead n (Request.read? g.store source) := by
  unfold behindHead
  split
  · rename_i hr
    exact accountFrom_of_error (by rw [hr])
  · rename_i hr
    exact accountFrom_of_none (by rw [hr])
  · rename_i r rest hr
    have hread : (Request.read? g.store source).1 = .ok (some r) := by rw [hr]
    split
    · exact accountFrom_of_framing_error hread ‹_›
    · rename_i f hf
      rw [accountFrom_of_framing hread hf, hr]
      obtain ⟨hw, hends⟩ := Framing.copy_eq f rest (Sink.takes_unlimited _)
      unfold inBody behindBody
      unfold Copied.Ends at hends
      dsimp only
      cases hy : (f.yield rest.failure rest.bytes).result with
      | error e =>
        rw [hy] at hends
        rw [show _ = _ from hends, hw.written, List.append_nil]
        rfl
      | ok found =>
        rw [hy] at hends
        rw [hends.1, hw.written]
        dsimp only
        rw [accountFrom_eq_tell, hends.2.1, hends.2.2]
        rfl

/-- What is sent from a place in the head of the `n`th request on. -/
def readOn (g : Engine) (n : Nat) (h : HeadState RequestLine) (source : Source) : Account :=
  let read := (headFeeder RequestLine.ofText g.store).read h source
  g.behindHead n (read.1.map (·.map .ofHead), read.2)

/-- Before the first byte of a head. -/
theorem readOn_fresh (g : Engine) (n : Nat) (source : Source) :
    g.readOn n (.fresh g.store) source = g.tell n source.failure source.bytes := by
  rw [← accountFrom_eq_tell, accountFrom_eq]
  rfl

end Engine

end Connection

end Sluice
