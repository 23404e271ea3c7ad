/-
  File:      Sluice/Proofs/Announcement.lean
  Subject:   Whether a body is announced, and what the framing says, agree.

  * `decimal?_eq_zero_iff`: which lengths are read as none;
  * `isNone_of_not_announced`: where no body is announced, the framing is that of no body;
  * `isNone_iff_of_announced`: where one is announced, only a length of several zeros is none;
  * **`announced_iff_framed`**: both, for every request that is read, from the first header of each
    name in its lines.
-/
import Sluice.Proofs.Framing

namespace Sluice

/-! ## 1. Lengths of zero -/

/-- **A view read as zero** shows zeros, and at least one of them. -/
theorem TextView.decimal?_eq_zero_iff {v : TextView} {w : UInt64} (h : v.decimal? = some w) :
    w = 0 ↔ ∃ n, v.toText = List.replicate (n + 1) '0' := by
  rw [decimal?_eq] at h
  obtain ⟨hne, hdigits, hvalue⟩ := Radix.digits_of_parse? (by decide) h
  rw [← UInt64.toNat_inj, hvalue]
  refine (Radix.value_eq_zero_iff (by decide) hdigits).trans ⟨fun hzeros => ?_, ?_⟩
  · obtain ⟨n, hn⟩ := Nat.exists_eq_succ_of_ne_zero (mt List.length_eq_zero_iff.mp hne)
    refine ⟨n, List.eq_replicate_iff.mpr ⟨hn, fun c hc => ?_⟩⟩
    exact Radix.digit?_ten_eq_zero_iff.mp (hzeros c hc)
  · rintro ⟨n, hn⟩ c hc
    rw [hn] at hc
    exact Radix.digit?_ten_eq_zero_iff.mpr (List.eq_of_mem_replicate hc)

namespace Http

open Wire

/-- Zeros are a number in decimal. -/
theorem isDecimal_zeros (n : Nat) : RequestText.IsDecimal (List.replicate (n + 1) '0') 0 := by
  have hzero : ∀ c ∈ List.replicate (n + 1) '0', Radix.digit? 10 c = some 0 := by
    intro c hc
    rw [List.eq_of_mem_replicate hc]
    rfl
  have hdigits : ∀ c ∈ List.replicate (n + 1) '0', (Radix.digit? 10 c).isSome := by
    intro c hc
    rw [hzero c hc]
    rfl
  exact ⟨List.cons_ne_nil _ _, hdigits, (Radix.value_eq_zero_iff (by decide) hdigits).mpr hzero⟩

/-! ## 2. Any headers -/

namespace Framing

variable {h : Headers} {f : Framing}

/-- A framing beside a content length is this length. -/
theorem ofHeaders_of_length {value : TextView} (hlength : h.get? "Content-Length".toList = some value)
    (hf : ofHeaders h = .ok f) : ∃ w, value.decimal? = some w ∧ f = .length w := by
  unfold ofHeaders at hf
  rw [hlength] at hf
  dsimp only at hf
  cases hw : value.decimal? with
  | none =>
    rw [hw] at hf
    cases hf
  | some w =>
    rw [hw] at hf
    exact ⟨w, rfl, (Except.ok.inj hf).symm⟩

/-- Without a content length, no body is framed only where nothing else announces one. -/
theorem unannounced_of_isNone (hlength : h.get? "Content-Length".toList = .none)
    (hf : ofHeaders h = .ok f) (hnone : f.isNone = true) :
    h.contains "Transfer-Encoding".toList = false ∧
      (h.get? "Connection".toList).any (·.startsWithFold "close".toList) = false ∧
      h.contains "Content-Type".toList = false := by
  unfold ofHeaders at hf
  rw [hlength] at hf
  dsimp only at hf
  unfold Headers.contains
  cases hcoding : h.get? "Transfer-Encoding".toList with
  | some coding =>
    rw [hcoding] at hf
    dsimp only at hf
    split at hf
    · obtain rfl := Except.ok.inj hf
      cases hnone
    · cases hf
  | none =>
    rw [hcoding] at hf
    dsimp only at hf
    split at hf
    · obtain rfl := Except.ok.inj hf
      cases hnone
    · rename_i hconnection
      refine ⟨rfl, Bool.eq_false_of_not_eq_true hconnection, ?_⟩
      cases htype : h.get? "Content-Type".toList with
      | none => rfl
      | some type =>
        rw [htype] at hf
        dsimp only at hf
        split at hf
        · cases hf
        · obtain rfl := Except.ok.inj hf
          cases hnone

end Framing

section Requests

variable {r : Request}

/-- A bodyless method announces nothing. -/
theorem announcesBody_of_isBodyless (h : r.method.isBodyless = true) : r.announcesBody = false :=
  if_pos h

/-- **Where no body is announced**, by a method that may have one, the framing is that of no body. -/
theorem isNone_of_not_announced (hmethod : r.method.isBodyless = false)
    (h : r.announcesBody = false) :
    ∃ f, Framing.ofHeaders r.headers = .ok f ∧ f.isNone = true := by
  unfold Request.announcesBody at h
  rw [hmethod, if_neg (by decide)] at h
  dsimp only at h
  unfold Framing.ofHeaders
  cases hlength : r.headers.get? "Content-Length".toList with
  | some value =>
    rw [hlength] at h
    have htext : value.toText = "0".toList := eq_of_beq (Bool.not_inj h)
    have hdecimal : RequestText.IsDecimal value.toText 0 := htext ▸ isDecimal_zeros 0
    obtain ⟨w, hw, hzero⟩ := decimal?_of_isDecimal hdecimal (by decide)
    dsimp only
    rw [hw]
    exact ⟨.length w, rfl, beq_iff_eq.mpr (UInt64.toNat_inj.mp hzero)⟩
  | none =>
    rw [hlength] at h
    simp only [Bool.or_eq_false_iff, Headers.contains, Option.isSome_eq_false_iff,
      Option.isNone_iff_eq_none] at h
    obtain ⟨⟨hcoding, hconnection⟩, htype⟩ := h
    dsimp only
    rw [hcoding]
    dsimp only
    rw [hconnection, if_neg (by decide), htype]
    exact ⟨.none, rfl, rfl⟩

/-- **Where a body is announced**, a framing is that of no body only for a length that is written as
    several zeros. -/
theorem isNone_iff_of_announced (h : r.announcesBody = true) {f : Framing}
    (hf : Framing.ofHeaders r.headers = .ok f) :
    f.isNone = true ↔ ∃ n, (r.header? "Content-Length".toList).map TextView.toText =
      some (List.replicate (n + 2) '0') := by
  unfold Request.announcesBody at h
  split at h
  · cases h
  · dsimp only at h
    change _ ↔ ∃ n, (r.headers.get? _).map _ = _
    cases hlength : r.headers.get? "Content-Length".toList with
    | some value =>
      rw [hlength] at h
      dsimp only at h
      have hnot : value.toText ≠ "0".toList := fun htext => by
        rw [show value.eqText "0".toList = true from beq_iff_eq.mpr htext] at h
        cases h
      obtain ⟨w, hw, rfl⟩ := Framing.ofHeaders_of_length hlength hf
      rw [Option.map_some]
      refine (beq_iff_eq.trans (TextView.decimal?_eq_zero_iff hw)).trans ⟨?_, ?_⟩
      · rintro ⟨n, hn⟩
        cases n with
        | zero => exact absurd hn hnot
        | succ n => exact ⟨n, congrArg some hn⟩
      · rintro ⟨n, hn⟩
        exact ⟨n + 1, Option.some.inj hn⟩
    | none =>
      rw [hlength] at h
      have hsome : f.isNone = false := by
        by_contra hnone
        obtain ⟨hcoding, hconnection, htype⟩ :=
          Framing.unannounced_of_isNone hlength hf (Bool.eq_true_of_not_eq_false hnone)
        rw [hcoding, hconnection, htype] at h
        cases h
      rw [hsome]
      refine ⟨fun hnone => ?_, ?_⟩
      · cases hnone
      · rintro ⟨n, hn⟩
        cases hn

end Requests

/-! ## 3. Requests that are read -/

/-- **A request that is read** shows the texts of its lines, in its parts and its lookups. -/
theorem Request.shows_of_read? {store : Store} {source : Source} {r : Request}
    (h : (Request.read? store source).1 = .ok (some r)) :
    ∃ shown left, requestShown source.failure (source.bytes.splitOn 10) = .ok (some (shown, left)) ∧
      r.Shows shown := by
  cases hshown : requestShown source.failure (source.bytes.splitOn 10) with
  | error f =>
    obtain ⟨e, he, -⟩ := Request.read?_of_error store hshown
    cases h.symm.trans he
  | ok o =>
    cases o with
    | none => cases h.symm.trans (Request.read?_of_none store hshown).1
    | some s =>
      obtain ⟨r', hr, htext, hmethod, hlookup, -⟩ := Request.read?_of_some store hshown
      cases h.symm.trans hr
      exact ⟨_, _, rfl, htext, hmethod, hlookup⟩

/-- **The announcement of a body and the framing agree**, for every request that is read. A method that
    never has a body announces none. By any other method, where none is announced, the framing is that
    of no body, and where one is announced, the headers are at fault or the framing is that of a body,
    except for a first content length of two zeros or more. Both go by the first header of a name in
    the lines, up to case, whatever else is there. -/
theorem announced_iff_framed (store : Store) (source : Source) (r : Request)
    (h : (Request.read? store source).1 = .ok (some r)) :
    ∃ shown left, requestShown source.failure (source.bytes.splitOn 10) = .ok (some (shown, left)) ∧
      r.Shows shown ∧ (shown.Bodyless → r.announcesBody = false) ∧
      (¬ shown.Bodyless →
        (r.announcesBody = false →
          ∃ f, Framing.ofHeaders r.headers = .ok f ∧ f.isNone = true) ∧
        (r.announcesBody = true → ∀ f, Framing.ofHeaders r.headers = .ok f →
          (f.isNone = true ↔ ∃ n, shown.lookup "Content-Length".toList =
            some (List.replicate (n + 2) '0')))) := by
  obtain ⟨shown, left, hshown, hshows⟩ := Request.shows_of_read? h
  refine ⟨shown, left, hshown, hshows, fun hbodyless => ?_, fun hbody => ⟨fun hnot => ?_, ?_⟩⟩
  · exact announcesBody_of_isBodyless (hshows.isBodyless_iff.mpr hbodyless)
  · have hmethod := Bool.eq_false_iff.mpr (mt hshows.isBodyless_iff.mp hbody)
    exact isNone_of_not_announced hmethod hnot
  · intro hannounced f hf
    rw [← hshows.lookup]
    exact isNone_iff_of_announced hannounced hf

/-- A request whose first content length is written as two zeros, with another one behind it. -/
def twoLengths : Source :=
  .ofSegments [Utf8.encode "POST / HTTP/1.1\r\ncontent-LENGTH: 0".toList,
    Utf8.encode "0\r\nContent-Length: 5\r\n\r\n".toList] none

/-- The texts of its head. -/
def twoLengthsHead : RequestText where
  method := "POST".toList
  target := "/".toList
  version := "HTTP/1.1".toList
  headers := [("content-LENGTH".toList, "00".toList), ("Content-Length".toList, "5".toList)]

/-- A body is announced, and the framing is that of none. -/
theorem announced_iff_framed_twoLengths :
    ∃ r, (Request.read? (.ofChunkSize 4 (Nat.succ_pos 3)) twoLengths).1 = .ok (some r) ∧
      r.announcesBody = true ∧
      ∃ f, Framing.ofHeaders r.headers = .ok f ∧ f.isNone = true := by
  have hshown : requestShown twoLengths.failure (twoLengths.bytes.splitOn 10) =
      .ok (some (twoLengthsHead, [[]])) := by
    decide +kernel
  obtain ⟨r, hr, -⟩ := Request.read?_of_some (.ofChunkSize 4 (Nat.succ_pos 3)) hshown
  obtain ⟨shown, left, hshown', hshows, -, hbody⟩ := announced_iff_framed _ twoLengths r hr
  cases hshown.symm.trans hshown'
  have hmethod : ¬ twoLengthsHead.Bodyless := by
    unfold RequestText.Bodyless
    decide
  have hlookup : twoLengthsHead.lookup "Content-Length".toList = some "00".toList := by decide
  obtain ⟨v, hv, hzeros⟩ := hshows.header?_some hlookup
  have hdecimal : RequestText.IsDecimal v.toText 0 := hzeros ▸ isDecimal_zeros 1
  obtain ⟨w, hw, -⟩ := decimal?_of_isDecimal hdecimal (by decide)
  have hframing : Framing.ofHeaders r.headers = .ok (.length w) := by
    unfold Framing.ofHeaders
    rw [hv]
    dsimp only
    rw [hw]
  have hannounced : r.announcesBody = true := by
    unfold Request.announcesBody
    rw [if_neg (mt hshows.isBodyless_iff.mp hmethod)]
    dsimp only
    rw [hv]
    dsimp only
    rw [TextView.eqText, hzeros]
    rfl
  exact ⟨r, hr, hannounced, _, hframing,
    ((hbody hmethod).2 hannounced _ hframing).mpr ⟨0, hlookup⟩⟩

end Http

end Sluice
