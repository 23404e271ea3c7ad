/-
  File:      Sluice/Proofs/Pipelining.lean
  Subject:   Requests that are written one behind the other are read one after the other.

  * `Request.takeBody`, `receive`: all requests of a stream with the data of their bodies;
  * `Item`, `Item.IsWritten`: a request that is sent, and all the ways to write it;
  * `receive_of_isWritten`: the first request, whatever follows it;
  * **`receive_written`**: requests written one behind the other, in whatever spacing and segments,
    are received as they were sent, and nothing is left.
-/
import Sluice.Proofs.Framing
import Sluice.Proofs.Head.Rendering

namespace Sluice.Http

open Sluice.Wire

/-! ## 1. Receiving -/

/-- Takes the body of a request out of a stream, if one is announced. -/
def Request.takeBody (r : Request) (source : Source) : Copied :=
  if r.announcesBody then copyBody r.headers source .unlimited else ⟨.ok 0, source, .unlimited⟩

theorem size_copyBody_le (h : Headers) (source : Source) (sink : Sink) :
    (copyBody h source sink).source.size ≤ source.size := by
  unfold copyBody
  cases Framing.ofHeaders h with
  | error e => exact Nat.le_refl _
  | ok f =>
    have hle := f.size_copy_le source sink
    dsimp only
    split
    · exact hle
    · split <;> exact hle

theorem Request.size_takeBody_le (r : Request) (source : Source) :
    (r.takeBody source).source.size ≤ source.size := by
  unfold takeBody
  split
  · exact size_copyBody_le ..
  · exact Nat.le_refl _

/-- A request with the data of its body. -/
structure Received where
  request : Request
  body : List UInt8

/-- The requests of a stream, how reading them ended, and what is left of the stream. -/
structure Reception where
  items : List Received
  result : Except MessageError Unit
  source : Source

/-- Reads requests with their bodies until the stream ends or something is at fault. -/
def receive (store : Store) (source : Source) : Reception :=
  match _hr : Request.read? store source with
  | (.error e, rest) => ⟨[], .error e, rest⟩
  | (.ok none, rest) => ⟨[], .ok (), rest⟩
  | (.ok (some r), rest) =>
    let body := r.takeBody rest
    match body.result with
    | .error e => ⟨[⟨r, body.sink.written.toList⟩], .error e, body.source⟩
    | .ok _ =>
      let later := receive store body.source
      { later with items := ⟨r, body.sink.written.toList⟩ :: later.items }
termination_by source.size
decreasing_by
  have hlt : (Request.read? store source).2.size < source.size :=
    Request.size_read?_lt (by rw [_hr])
  rw [_hr] at hlt
  exact Nat.lt_of_le_of_lt (Request.size_takeBody_le ..) hlt

/-! ## 2. Sending -/

/-- A request that is sent: the texts of its head, and the data of its body. -/
structure Item where
  head : RequestText
  data : List UInt8

/-- All the ways to write a request: a head, and behind it what the head carries. -/
def Item.IsWritten (i : Item) (bytes : List UInt8) : Prop :=
  ∃ head body, i.head.Valid ∧ IsHead i.head head ∧ i.head.Carries i.data body ∧ bytes = head ++ body

/-! ## 3. The round trip -/

section RoundTrip

variable {store : Store} {source : Source}

/-- A stream without bytes has no request. -/
theorem receive_nil (store : Store) (hbytes : source.bytes = []) (hfailure : source.failure = none) :
    (receive store source).items = [] ∧ (receive store source).result = .ok () ∧
      (receive store source).source.bytes = [] := by
  have hshown : requestShown source.failure (source.bytes.splitOn 10) = .ok none := by
    rw [hbytes, hfailure]
    rfl
  obtain ⟨hnone, hleft⟩ := Request.read?_of_none store hshown
  unfold receive
  split
  · rename_i hr
    rw [hr] at hnone
    cases hnone
  · rename_i hr
    rw [hr] at hleft
    exact ⟨rfl, rfl, hleft⟩
  · rename_i hr
    rw [hr] at hnone
    cases hnone

/-- **The body of a request** is taken as it was sent, and what follows it is left. -/
theorem takeBody_of_carries {r : Request} {shown : RequestText} {data body rest : List UInt8}
    (hr : r.Shows shown) (h : shown.Carries data body) (hbytes : source.bytes = body ++ rest) :
    (r.takeBody source).result = .ok data.length ∧
      (r.takeBody source).sink.written.toList = data ∧ (r.takeBody source).source.bytes = rest ∧
      (r.takeBody source).source.failure = source.failure := by
  unfold Request.takeBody
  rcases framing_of_carries hr h with ⟨hannounced, rfl, rfl⟩ | ⟨hannounced, f, hf, hyield⟩
  · rw [hannounced, if_neg (by decide)]
    exact ⟨rfl, rfl, hbytes, rfl⟩
  · rw [hannounced, if_pos rfl]
    obtain ⟨hwrote, hends⟩ := Framing.copy_eq f source (Sink.takes_unlimited _)
    rw [hbytes, hyield] at hwrote hends
    obtain ⟨hresult, hrest, hfailure⟩ : _ ∧ _ ∧ _ := hends
    have hshutdown : (f.copy source .unlimited).sink.shutdownFailure = none :=
      hwrote.shutdownFailure
    unfold copyBody
    rw [hf]
    dsimp only
    rw [hresult]
    dsimp only
    unfold Sink.shutdown
    rw [hshutdown]
    exact ⟨rfl, hwrote.written, hrest, hfailure⟩

/-- **The first request** is received as it was sent, whatever follows it. -/
theorem receive_of_isWritten (store : Store) {i : Item} {bytes rest : List UInt8}
    (h : i.IsWritten bytes) (hbytes : source.bytes = bytes ++ rest) :
    ∃ got next, got.request.Shows i.head ∧ got.body = i.data ∧ next.bytes = rest ∧
      next.failure = source.failure ∧
      receive store source =
        { receive store next with items := got :: (receive store next).items } := by
  obtain ⟨head, body, hvalid, hhead, hcarries, rfl⟩ := h
  have hshown : requestShown source.failure (source.bytes.splitOn 10) =
      .ok (some (i.head, (body ++ rest).splitOn 10)) := by
    rw [hbytes, List.append_assoc, requestShown_of_isHead hvalid hhead]
  obtain ⟨r, hr, htext, hmethod, hlookup, hleft, hfailure⟩ := Request.read?_of_some store hshown
  have hshows : r.Shows i.head := ⟨htext, hmethod, hlookup⟩
  rw [List.intercalate_splitOn] at hleft
  obtain ⟨hresult, hdata, hrest, hfail⟩ := takeBody_of_carries hshows hcarries hleft
  refine ⟨⟨r, i.data⟩, (r.takeBody (Request.read? store source).2).source, hshows, rfl, hrest,
    hfail.trans hfailure, ?_⟩
  rw [receive.eq_def]
  split
  · rename_i hr'
    rw [hr'] at hr
    cases hr
  · rename_i hr'
    rw [hr'] at hr
    cases hr
  · rename_i r' left hr'
    rw [hr'] at hr hresult hdata ⊢
    obtain rfl : r' = r := Option.some.inj (Except.ok.inj hr)
    dsimp only at hresult hdata ⊢
    rw [hresult, hdata]

/-- **Requests written one behind the other**, in whatever spacing and wherever the segments are
    cut, are received as they were sent, texts, lookups and bodies; then there is no further one,
    and nothing is left. -/
theorem receive_written {items : List Item} {written : List (List UInt8)}
    (hitems : List.Forall₂ Item.IsWritten items written)
    (hbytes : source.bytes = written.flatten) (hfailure : source.failure = none) :
    List.Forall₂ (fun i got => got.request.Shows i.head ∧ got.body = i.data) items
        (receive store source).items ∧
      (receive store source).result = .ok () ∧ (receive store source).source.bytes = [] := by
  induction hitems generalizing source with
  | nil =>
    obtain ⟨hnone, hresult, hleft⟩ := receive_nil store hbytes hfailure
    rw [hnone]
    exact ⟨.nil, hresult, hleft⟩
  | cons hitem _ ih =>
    rw [List.flatten_cons] at hbytes
    obtain ⟨got, next, hshows, hbody, hnext, hfail, hreceive⟩ :=
      receive_of_isWritten store hitem hbytes
    obtain ⟨hlater, hresult, hleft⟩ := ih hnext (hfail.trans hfailure)
    rw [hreceive]
    exact ⟨.cons ⟨hshows, hbody⟩ hlater, hresult, hleft⟩

/-- A request with a body of one byte. -/
def Item.short : Item where
  head := ⟨"POST".toList, "/".toList, "HTTP/1.1".toList, [("Content-Length".toList, "1".toList)]⟩
  data := [97]

/-- A request without a body. -/
def Item.bare : Item where
  head := ⟨"GET".toList, "/".toList, "HTTP/1.1".toList, []⟩
  data := []

/-- One request with a body and one without, cut inside both. -/
theorem receive_written_short :
    List.Forall₂ Item.IsWritten [.short, .bare]
        [Utf8.encode "\r\n POST  / HTTP/1.1\nContent-Length :1 \r\n\r\na".toList,
          Utf8.encode "GET /  HTTP/1.1 \r\n\n".toList] ∧
      (receive (.ofChunkSize 4 (by decide)) (.ofSegments
        [Utf8.encode "\r\n POST  / HT".toList,
          Utf8.encode "TP/1.1\nContent-Length :1 \r\n\r\naG".toList,
          Utf8.encode "ET /  HTTP/1.1 \r\n\n".toList] none)).result = .ok () := by
  have hshort : Item.short.IsWritten
      (Utf8.encode "\r\n POST  / HTTP/1.1\nContent-Length :1 \r\n\r\na".toList) := by
    refine ⟨Utf8.encode "\r\n POST  / HTTP/1.1\nContent-Length :1 \r\n\r\n".toList, [97],
      ⟨by decide, by decide, by decide, by decide⟩, ?_, ?_, by decide⟩
    · exact ⟨[[13, 10]], Utf8.encode " POST  / HTTP/1.1\n".toList,
        [Utf8.encode "Content-Length :1 \r\n".toList], [13, 10], by decide,
        ⟨1, 1, 0, 0, by decide, .inl (by decide)⟩,
        .cons ⟨0, 1, 0, 1, by decide, .inr (by decide)⟩ .nil,
        ⟨0, by decide, .inr (by decide)⟩, by decide⟩
    · refine @RequestText.Carries.length _ _ "1".toList ?_ (by decide)
        ⟨List.cons_ne_nil _ _, List.forall_mem_singleton.mpr rfl, rfl⟩ (by decide)
      rintro (h | h | h) <;> cases h
  have hbare : Item.bare.IsWritten (Utf8.encode "GET /  HTTP/1.1 \r\n\n".toList) := by
    refine ⟨Utf8.encode "GET /  HTTP/1.1 \r\n\n".toList, [],
      ⟨by decide, by decide, by decide, by decide⟩, ?_, .bodyless (.inl rfl), by decide⟩
    exact ⟨[], Utf8.encode "GET /  HTTP/1.1 \r\n".toList, [], [10], by decide,
      ⟨0, 0, 1, 1, by decide, .inr (by decide)⟩, .nil, ⟨0, by decide, .inl (by decide)⟩, by decide⟩
  have hitems : List.Forall₂ Item.IsWritten [.short, .bare] _ := .cons hshort (.cons hbare .nil)
  exact ⟨hitems, (receive_written hitems (by decide) rfl).2.1⟩

end RoundTrip

end Sluice.Http
