/-
  File:      Sluice/Proofs/Head/Reading.lean
  Subject:   The reader of request heads accepts exactly the heads.

  * `lineText_of_shown`, `lineText_of_fault`: the text of a line is the one that it shows;
  * `readPieces_headers`, `readPieces_line`: header lines and start lines, piece by piece;
  * `ReadsStart`, `Head.read?_shown`: heads of any kind are read as their lines show them, if their
    start lines are;
  * **`read?_eq`**: reading a request from a stream gives what the pieces of its bytes show, or the
    first fault, and leaves the bytes behind the head.
-/
import Sluice.Proofs.Head.Lines
import Sluice.Proofs.Head.Table
import Sluice.Proofs.Text.Utf8

namespace Sluice.Http

open Sluice.Wire

/-! ## 1. Lines -/

/-- **The text of a line** is the one that it shows. -/
theorem lineText_of_shown {limit : Nat} {line : List UInt8} {t : Text}
    (h : lineShown limit line = .ok t) : lineText limit line = .ok t := by
  dsimp only [lineText]
  dsimp only [lineShown] at h
  rw [← dropReturn] at h
  by_cases hlong : limit < (dropReturn line).length
  · rw [if_pos hlong] at h
    cases h
  · rw [if_neg hlong] at h
    cases hs : String.fromUTF8? (dropReturn line).toByteArray with
    | none =>
      rw [hs] at h
      cases h
    | some s =>
      rw [hs] at h
      obtain rfl : s.toList = t := Except.ok.inj h
      have hdecode : Utf8.decode (dropReturn line) = .ok s.toList :=
        Utf8.decode_eq_ok_iff.mpr (Utf8.fromUTF8?_eq_some_iff.mp (by rw [hs]; rfl))
      simp only [if_neg hlong, hdecode]

/-- A line that shows no text has none. -/
theorem lineText_of_fault {limit : Nat} {line : List UInt8} {f : HeadFault}
    (h : lineShown limit line = .error f) :
    ∃ e, lineText limit line = .error e ∧ e.headFault? = some f := by
  dsimp only [lineText]
  dsimp only [lineShown] at h
  rw [← dropReturn] at h
  by_cases hlong : limit < (dropReturn line).length
  · rw [if_pos hlong] at h
    obtain rfl := Except.error.inj h
    exact ⟨_, if_pos hlong, rfl⟩
  · rw [if_neg hlong] at h
    cases hs : String.fromUTF8? (dropReturn line).toByteArray with
    | some s =>
      rw [hs] at h
      cases h
    | none =>
      rw [hs] at h
      obtain rfl := Except.error.inj h
      cases hd : Utf8.decode (dropReturn line) with
      | ok t =>
        have := Utf8.fromUTF8?_eq_some_iff.mpr (Utf8.decode_eq_ok_iff.mp hd)
        rw [hs] at this
        cases this
      | error fault =>
        exact ⟨.notUtf8 fault, if_neg hlong, rfl⟩

/-- The text of a line is no longer than the limit. -/
theorem length_lineText_le {limit : Nat} {line : List UInt8} {t : Text}
    (h : lineText limit line = .ok t) : t.length ≤ limit ∧ Utf8.encode t = dropReturn line := by
  unfold lineText at h
  dsimp only at h
  by_cases hlong : limit < (dropReturn line).length
  · rw [if_pos hlong] at h
    cases h
  · rw [if_neg hlong] at h
    cases hd : Utf8.decode (dropReturn line) with
    | error f =>
      rw [hd] at h
      cases h
    | ok t' =>
      rw [hd] at h
      obtain rfl : t' = t := Except.ok.inj h
      have hencode := Utf8.decode_eq_ok_iff.mp hd
      have := Utf8.length_le_encode t'
      rw [hencode] at this
      exact ⟨by omega, hencode⟩

/-! ## 2. Header lines -/

section Pieces

variable {store : Store} {failure : Option Failure}

/-- What is wrong where a line is missing. -/
theorem finish_headers {β : Type} (failure : Option Failure) {s : HeadState β} {parsed : β}
    {table : HeaderTable} (hs : s.phase = .headers parsed table) (tail : List UInt8) :
    ∃ e, s.finish failure tail = .error e ∧ e.headFault? = some (missingLine 4096 failure tail) := by
  have hlimit : s.limit = 4096 := by rw [HeadState.limit, hs]; rfl
  unfold HeadState.finish missingLine
  rw [hlimit]
  by_cases hlong : 4096 + 1 < tail.length
  · rw [if_pos hlong, if_pos hlong]
    exact ⟨_, rfl, rfl⟩
  · rw [if_neg hlong, if_neg hlong]
    cases failure with
    | some f => exact ⟨_, rfl, rfl⟩
    | none =>
      dsimp only [HeadState.atEnd, lineAtEnd]
      rw [hs]
      split
      · rename_i e he
        split at he
        · cases he
        · cases he
          exact ⟨_, rfl, rfl⟩
      · rename_i hp
        cases hp
      · exact ⟨_, rfl, rfl⟩

section Steps

variable {β : Type} {startLine : Text → Except MessageError β} {s : HeadState β} {limit : Nat}
  {line next : List UInt8} {pieces : List (List UInt8)}

theorem readPieces_fault {e : MessageError} (hs : s.limit = limit)
    (h : lineText limit line = .error e) :
    s.readPieces startLine store failure (line :: next :: pieces) = .error e := by
  rw [HeadState.readPieces, hs, h]

theorem readPieces_more {t : Text} (hs : s.limit = limit) (h : lineText limit line = .ok t)
    (hv : (s.addLine startLine store t).2 = .more) :
    s.readPieces startLine store failure (line :: next :: pieces) =
      (s.addLine startLine store t).1.readPieces startLine store failure (next :: pieces) := by
  rw [HeadState.readPieces, hs, h]
  dsimp only
  rw [hv]

theorem readPieces_done {t : Text} {r : Option (Head β)} (hs : s.limit = limit)
    (h : lineText limit line = .ok t)
    (hv : (s.addLine startLine store t).2 = .done r) :
    s.readPieces startLine store failure (line :: next :: pieces) =
      .ok (r.map (·, next :: pieces)) := by
  rw [HeadState.readPieces, hs, h]
  dsimp only
  rw [hv]

theorem readPieces_refused {t : Text} {e : MessageError} (hs : s.limit = limit)
    (h : lineText limit line = .ok t)
    (hv : (s.addLine startLine store t).2 = .fault e) :
    s.readPieces startLine store failure (line :: next :: pieces) = .error e := by
  rw [HeadState.readPieces, hs, h]
  dsimp only
  rw [hv]

end Steps

/-- A table that is full takes no further header. -/
theorem put_of_full {table : HeaderTable} (h : table.size = maxHeaders) (e : HeaderEntry) :
    ∃ fault, table.put e = .error fault ∧ fault.headFault? = some .unsupported := by
  rw [HeaderTable.put, if_neg (by rw [h]; exact Nat.lt_irrefl _)]
  exact ⟨_, rfl, rfl⟩

section HeaderLines

variable {β : Type} (startLine : Text → Except MessageError β)

/-- **A line among the headers** adds the header that it shows, ends the head, or is at fault. -/
theorem addLine_headers (store : Store) (parsed : β) {table : HeaderTable}
    {buffer : CharBuffer} (gathered : Array UInt8) {shown : List (Text × Text)} {t : Text}
    (h : Headers.Shows ⟨table, buffer⟩ shown) (hcount : shown.length ≤ 32)
    (hsmall : (buffer.toText ++ t).length < UInt32.size) :
    let next := HeadState.addLine startLine store ⟨.headers parsed table, buffer, gathered⟩ t
    match headerShown t with
    | .error f => ∃ e, next.2 = .fault e ∧ e.headFault? = some f
    | .ok none => next.2 = .done (some ⟨parsed, table, buffer.append t⟩)
    | .ok (some header) =>
      if shown.length < 32 then ∃ table',
        next = (⟨.headers parsed table', buffer.append t, #[]⟩, .more) ∧
          Headers.Shows ⟨table', buffer.append t⟩ (shown ++ [header])
      else ∃ e, next.2 = .fault e ∧ e.headFault? = some .unsupported := by
  have hheader := headerOfLine_eq buffer.toText t
  rw [← h.packed.2] at hheader
  dsimp only [HeadState.addLine]
  cases hs : headerShown t with
  | error f =>
    rw [hs] at hheader
    obtain ⟨e, he, hfault⟩ := hheader
    rw [he]
    exact ⟨e, rfl, hfault⟩
  | ok o =>
    rw [hs] at hheader
    cases o with
    | none =>
      rw [show headerOfLine _ _ = _ from hheader]
    | some header =>
      obtain ⟨entry, hentry, hsays⟩ := hheader
      rw [hentry]
      dsimp only
      by_cases hlt : shown.length < 32
      · rw [if_pos hlt]
        obtain ⟨table', hput, hshows⟩ := Headers.shows_concat h hsays hlt hsmall
        rw [show table.put entry = _ from hput]
        exact ⟨table', rfl, hshows⟩
      · rw [if_neg hlt]
        have hfull : shown.length = 32 := Nat.le_antisymm hcount (Nat.le_of_not_lt hlt)
        obtain ⟨e, he, hfault⟩ := put_of_full (h.size_eq.trans hfull) entry
        rw [show table.put entry = _ from he]
        exact ⟨e, rfl, hfault⟩

/-- What reading header lines comes to, behind the headers and the text that there are. -/
def ReadsHeaders (parsed : β) (shown : List (Text × Text)) (text : Text)
    (read : Except MessageError (Option (Head β × List (List UInt8)))) :
    Except HeadFault (List (Text × Text) × List (List UInt8)) → Prop
  | .error f => ∃ e, read = .error e ∧ e.headFault? = some f
  | .ok (headers, left) => ∃ table buffer, read = .ok (some (⟨parsed, table, buffer⟩, left)) ∧
      Headers.Shows ⟨table, buffer⟩ (shown ++ headers) ∧ ∃ more, buffer.toText = text ++ more

/-- A header in front. -/
theorem ReadsHeaders.behind {parsed : β} {shown : List (Text × Text)} {text t : Text}
    {header : Text × Text} {read : Except MessageError (Option (Head β × List (List UInt8)))}
    {r : Except HeadFault (List (Text × Text) × List (List UInt8))}
    (h : ReadsHeaders parsed (shown ++ [header]) (text ++ t) read r) :
    ReadsHeaders parsed shown text read (r.map fun r => (header :: r.1, r.2)) := by
  cases r with
  | error f => exact h
  | ok r =>
    obtain ⟨table, buffer, hr, hshows, more, hmore⟩ := h
    refine ⟨table, buffer, hr, ?_, t ++ more, ?_⟩
    · rwa [List.append_assoc, List.singleton_append] at hshows
    · rw [hmore, List.append_assoc]

/-- **Header lines** are read as the headers that they show, behind those that are there, up to the
    empty line or the first fault. -/
theorem readPieces_headers (store : Store) (failure : Option Failure) (parsed : β)
    {table : HeaderTable} {buffer : CharBuffer} (gathered : Array UInt8)
    {shown : List (Text × Text)} (pieces : List (List UInt8))
    (h : Headers.Shows ⟨table, buffer⟩ shown) (hcount : shown.length ≤ 32)
    (hlen : buffer.toText.length ≤ 8192 + 4096 * shown.length) :
    ReadsHeaders parsed shown buffer.toText
      (HeadState.readPieces startLine store failure ⟨.headers parsed table, buffer, gathered⟩
        pieces)
      (headersShown failure shown.length pieces) := by
  induction pieces generalizing table buffer gathered shown with
  | nil =>
    obtain ⟨e, he, hfault⟩ := finish_headers failure
      (s := ⟨.headers parsed table, buffer, gathered⟩) rfl []
    rw [HeadState.readPieces, he]
    exact ⟨e, rfl, hfault⟩
  | cons line rest ih =>
    cases rest with
    | nil =>
      obtain ⟨e, he, hfault⟩ := finish_headers failure
        (s := ⟨.headers parsed table, buffer, gathered⟩) rfl line
      rw [HeadState.readPieces, he]
      exact ⟨e, rfl, hfault⟩
    | cons next pieces =>
      have hlimit : HeadState.limit ⟨.headers parsed table, buffer, gathered⟩ = 4096 := rfl
      cases hl : lineShown 4096 line with
      | error f =>
        obtain ⟨e, he, hfault⟩ := lineText_of_fault hl
        rw [readPieces_fault hlimit he, headersShown_error hl]
        exact ⟨e, rfl, hfault⟩
      | ok t =>
        have hread := lineText_of_shown hl
        have hshort := (length_lineText_le hread).1
        have htext : (buffer.append t).toText = buffer.toText ++ t :=
          CharBuffer.toText_append h.packed t
        have hsmall : (buffer.toText ++ t).length < UInt32.size := by
          rw [List.length_append, UInt32.size]
          omega
        have hadd := addLine_headers startLine store parsed gathered h hcount hsmall
        cases hs : headerShown t with
        | error f =>
          rw [hs] at hadd
          obtain ⟨e, he, hfault⟩ := hadd
          rw [readPieces_refused hlimit hread he, headersShown_fault hl hs]
          exact ⟨e, rfl, hfault⟩
        | ok o =>
          rw [hs] at hadd
          cases o with
          | none =>
            rw [readPieces_done hlimit hread hadd, headersShown_end hl hs]
            exact ⟨_, _, rfl, by rw [List.append_nil]; exact h.append t, t, htext⟩
          | some header =>
            rw [headersShown_header hl hs]
            dsimp only at hadd
            by_cases hlt : shown.length < 32
            · rw [if_pos hlt] at hadd ⊢
              obtain ⟨table', hnext, hshows⟩ := hadd
              have hlen' : (shown ++ [header]).length = shown.length + 1 := by
                rw [List.length_append, List.length_singleton]
              have hlater := ih #[] hshows (by omega)
                (by rw [htext, List.length_append, hlen']; omega)
              rw [htext, hlen'] at hlater
              rw [readPieces_more hlimit hread (congrArg Prod.snd hnext), congrArg Prod.fst hnext]
              exact hlater.behind
            · rw [if_neg hlt] at hadd ⊢
              obtain ⟨e, he, hfault⟩ := hadd
              rw [readPieces_refused hlimit hread he]
              exact ⟨e, rfl, hfault⟩

end HeaderLines

/-! ## 3. Start lines -/

/-- Nothing is shown by a line that is empty. -/
theorem lineText_eq_nil {limit : Nat} {line : List UInt8} :
    lineText limit line = .ok [] ↔ line = [] ∨ line = [13] := by
  constructor
  · intro h
    have hdrop : dropReturn line = [] := (length_lineText_le h).2.symm
    unfold dropReturn at hdrop
    split at hdrop
    · rename_i hlast
      obtain ⟨front, rfl⟩ := List.getLast?_eq_some_iff.mp hlast
      rw [List.dropLast_concat] at hdrop
      rw [hdrop]
      exact .inr rfl
    · exact .inl hdrop
  · have hempty : lineText limit [] = .ok [] := by
      simp [lineText, dropReturn]
    intro h
    rcases h with rfl | rfl
    · exact hempty
    · exact hempty

section StartLines

variable {β : Type} {startLine : Text → Except MessageError β} {buffer : CharBuffer}
  {line next : List UInt8} {pieces : List (List UInt8)} {t : Text}

theorem size_append_ne (hb : buffer.Packed) (hempty : buffer.toText = [])
    (hblank : ¬ (line = [] ∨ line = [13])) (hread : lineText 8192 line = .ok t) :
    (buffer.append t).size ≠ 0 := by
  rw [(CharBuffer.packed_append hb t).2, CharBuffer.toText_append hb, hempty, List.nil_append]
  intro h0
  rw [List.length_eq_zero_iff.mp h0] at hread
  exact hblank (lineText_eq_nil.mp hread)

/-- An empty line before a head does not count. -/
theorem readPieces_blank (store : Store) (failure : Option Failure) (gathered : Array UInt8)
    (hb : buffer.Packed) (hempty : buffer.toText = []) (hblank : line = [] ∨ line = [13]) :
    HeadState.readPieces startLine store failure ⟨.start, buffer, gathered⟩
        (line :: next :: pieces) =
      HeadState.readPieces startLine store failure ⟨.start, buffer.append [], #[]⟩
        (next :: pieces) := by
  have hlimit : HeadState.limit (β := β) ⟨.start, buffer, gathered⟩ = 8192 := rfl
  have hsize : (buffer.append []).size = 0 := by
    show buffer.size = 0
    rw [hb.2, hempty]
    rfl
  have hadd : HeadState.addLine startLine store ⟨.start, buffer, gathered⟩ [] =
      (⟨.start, buffer.append [], #[]⟩, .more) := by
    dsimp only [HeadState.addLine]
    rw [if_pos hsize]
  rw [readPieces_more hlimit (lineText_eq_nil.mpr hblank) (congrArg Prod.snd hadd),
    congrArg Prod.fst hadd]

/-- **A start line**, and the headers behind it. -/
theorem readPieces_line (store : Store) (failure : Option Failure) (gathered : Array UInt8)
    (next : List UInt8) (pieces : List (List UInt8)) (hb : buffer.Packed)
    (hempty : buffer.toText = []) (hblank : ¬ (line = [] ∨ line = [13]))
    (hread : lineText 8192 line = .ok t) {parsed : β} (hp : startLine t = .ok parsed) :
    ReadsHeaders parsed [] t
      (HeadState.readPieces startLine store failure ⟨.start, buffer, gathered⟩
        (line :: next :: pieces))
      (headersShown failure 0 (next :: pieces)) := by
  have htext : (buffer.append t).toText = t := by
    rw [CharBuffer.toText_append hb, hempty, List.nil_append]
  have hlimit : HeadState.limit (β := β) ⟨.start, buffer, gathered⟩ = 8192 := rfl
  have hadd : HeadState.addLine startLine store ⟨.start, buffer, gathered⟩ t =
      (⟨.headers parsed (.ofCells store.cells), buffer.append t, #[]⟩, .more) := by
    dsimp only [HeadState.addLine]
    rw [if_neg (size_append_ne hb hempty hblank hread), hp]
  have hnil : Headers.Shows ⟨.ofCells store.cells, buffer.append t⟩ [] :=
    Headers.shows_nil (CharBuffer.packed_append hb t) store.cells_size
  have hlen : (buffer.append t).toText.length ≤
      8192 + 4096 * ([] : List (Text × Text)).length := by
    rw [htext]
    exact (length_lineText_le hread).1
  have hheaders := readPieces_headers startLine store failure parsed #[]
    (next :: pieces) hnil (Nat.zero_le _) hlen
  rw [htext, List.length_nil] at hheaders
  rw [readPieces_more hlimit hread (congrArg Prod.snd hadd), congrArg Prod.fst hadd]
  exact hheaders

/-- A start line that is at fault. -/
theorem readPieces_line_error (store : Store) (failure : Option Failure) (gathered : Array UInt8)
    (next : List UInt8) (pieces : List (List UInt8)) (hb : buffer.Packed)
    (hempty : buffer.toText = []) (hblank : ¬ (line = [] ∨ line = [13]))
    (hread : lineText 8192 line = .ok t) {e : MessageError} (hp : startLine t = .error e) :
    HeadState.readPieces startLine store failure ⟨.start, buffer, gathered⟩
      (line :: next :: pieces) = .error e := by
  have hlimit : HeadState.limit (β := β) ⟨.start, buffer, gathered⟩ = 8192 := rfl
  have hadd : (HeadState.addLine startLine store ⟨.start, buffer, gathered⟩ t).2 = .fault e := by
    dsimp only [HeadState.addLine]
    rw [if_neg (size_append_ne hb hempty hblank hread), hp]
  exact readPieces_refused hlimit hread hadd

end StartLines

/-! ## 4. Heads of any kind -/

theorem finish_start {β : Type} (failure : Option Failure) {s : HeadState β}
    (hs : s.phase = .start) (tail : List UInt8) :
    if tail = [] ∧ failure = none then s.finish failure tail = .ok none
    else ∃ e, s.finish failure tail = .error e ∧
      e.headFault? = some (missingLine 8192 failure tail) := by
  have hlimit : s.limit = 8192 := by rw [HeadState.limit, hs]; rfl
  unfold HeadState.finish missingLine
  rw [hlimit]
  by_cases hlong : 8192 + 1 < tail.length
  · have hne : ¬ (tail = [] ∧ failure = none) := by
      intro h
      rcases h with ⟨rfl, _⟩
      exact absurd hlong (by decide)
    rw [if_neg hne, if_pos hlong, if_pos hlong]
    exact ⟨_, rfl, rfl⟩
  · rw [if_neg hlong, if_neg hlong]
    cases failure with
    | some f =>
      rw [if_neg (by simp)]
      exact ⟨_, rfl, rfl⟩
    | none =>
      dsimp only [HeadState.atEnd, lineAtEnd]
      rw [hs]
      by_cases ht : tail = []
      · rw [if_pos ⟨ht, rfl⟩, ht]
        rfl
      · rw [if_neg (fun h => ht h.1), if_neg (by simpa using ht)]
        exact ⟨_, rfl, rfl⟩

section Heads

variable {α β φ : Type} {kind : MessageError → Option φ} {ofHead : HeadFault → φ}
  {startLine : Text → Except MessageError β} {start : Text → Except φ α}
  {tells : β → Text → α → Prop}

/-- A reader of start lines reads what they show, and its faults are of the kinds that they have. -/
structure ReadsStart (kind : MessageError → Option φ) (ofHead : HeadFault → φ)
    (startLine : Text → Except MessageError β) (start : Text → Except φ α)
    (tells : β → Text → α → Prop) : Prop where
  head : ∀ e f, e.headFault? = some f → kind e = some (ofHead f)
  fault : ∀ t f, start t = .error f → ∃ e, startLine t = .error e ∧ kind e = some f
  line : ∀ t a, start t = .ok a → ∃ parsed, startLine t = .ok parsed ∧ tells parsed t a

/-- A head has the parts of a start line, and these headers. -/
structure HeadSays (tells : β → Text → α → Prop) (head : Head β) (a : α)
    (headers : List (Text × Text)) : Prop where
  line : ∃ t more, head.buffer.toText = t ++ more ∧ tells head.line t a
  headers : Headers.Shows ⟨head.table, head.buffer⟩ headers

/-- What reading a head comes to. -/
def ReadsKind (kind : MessageError → Option φ) (tells : β → Text → α → Prop)
    (read : Except MessageError (Option (Head β × List (List UInt8)))) :
    Except φ (Option (α × List (Text × Text) × List (List UInt8))) → Prop
  | .error f => ∃ e, read = .error e ∧ kind e = some f
  | .ok none => read = .ok none
  | .ok (some (a, headers, left)) => ∃ head, read = .ok (some (head, left)) ∧
      HeadSays tells head a headers

/-- The end of the input, or a line that is too long, before a head. -/
theorem readsKind_finish (h : ReadsStart kind ofHead startLine start tells)
    (failure : Option Failure) {buffer : CharBuffer} {gathered : Array UInt8} (tail : List UInt8) :
    ReadsKind kind tells
      ((HeadState.finish failure (β := β) ⟨.start, buffer, gathered⟩ tail).map (·.map (·, [])))
      (if tail = [] ∧ failure = none then .ok none
        else .error (ofHead (missingLine 8192 failure tail))) := by
  have hfinish := finish_start failure (β := β) (s := ⟨.start, buffer, gathered⟩) rfl tail
  by_cases hend : tail = [] ∧ failure = none
  · rw [if_pos hend] at hfinish ⊢
    rw [hfinish]
    rfl
  · rw [if_neg hend] at hfinish ⊢
    obtain ⟨e, he, hfault⟩ := hfinish
    rw [he]
    exact ⟨e, rfl, h.head e _ hfault⟩

/-- **A start line**, and what follows it. -/
theorem readsKind_line (h : ReadsStart kind ofHead startLine start tells) (store : Store)
    (failure : Option Failure) {buffer : CharBuffer} (gathered : Array UInt8)
    {line next : List UInt8} {pieces : List (List UInt8)} {t : Text} (hb : buffer.Packed)
    (hempty : buffer.toText = []) (hblank : ¬ (line = [] ∨ line = [13]))
    (hl : lineShown 8192 line = .ok t) :
    ReadsKind kind tells
      (HeadState.readPieces startLine store failure ⟨.start, buffer, gathered⟩
        (line :: next :: pieces))
      (headShown ofHead start failure (line :: next :: pieces)) := by
  have hread := lineText_of_shown hl
  cases hs : start t with
  | error f =>
    obtain ⟨e, hp, he⟩ := h.fault t f hs
    rw [readPieces_line_error store failure gathered next pieces hb hempty hblank hread hp,
      headShown_fault hblank hl hs]
    exact ⟨e, rfl, he⟩
  | ok a =>
    obtain ⟨parsed, hp, hsays⟩ := h.line t a hs
    have hheaders := readPieces_line store failure gathered next pieces hb hempty hblank hread hp
    rw [headShown_start hblank hl hs]
    cases hrest : headersShown failure 0 (next :: pieces) with
    | error f =>
      rw [hrest] at hheaders
      obtain ⟨e, he, hfault⟩ := hheaders
      exact ⟨e, he, h.head e f hfault⟩
    | ok r =>
      rw [hrest] at hheaders
      obtain ⟨table, buffer', hr, hshows, more, hmore⟩ := hheaders
      exact ⟨_, hr, ⟨t, more, hmore, hsays⟩, hshows⟩

/-- **Whole heads**, from the lines before them on. -/
theorem readPieces_kind (h : ReadsStart kind ofHead startLine start tells) (store : Store)
    (failure : Option Failure) {buffer : CharBuffer} (gathered : Array UInt8)
    (pieces : List (List UInt8)) (hb : buffer.Packed) (hempty : buffer.toText = []) :
    ReadsKind kind tells
      (HeadState.readPieces startLine store failure ⟨.start, buffer, gathered⟩ pieces)
      (headShown ofHead start failure pieces) := by
  induction pieces generalizing gathered with
  | nil =>
    have hend := @readsKind_finish _ _ _ _ _ _ _ _ h failure buffer gathered []
    rw [headShown, HeadState.readPieces]
    simpa only [true_and] using hend
  | cons line rest ih =>
    cases rest with
    | nil =>
      rw [headShown, HeadState.readPieces]
      exact readsKind_finish h failure line
    | cons next pieces =>
      have hlimit : HeadState.limit (β := β) ⟨.start, buffer, gathered⟩ = 8192 := rfl
      by_cases hblank : line = [] ∨ line = [13]
      · rw [headShown_blank hblank, readPieces_blank store failure gathered hb hempty hblank]
        exact ih _
      · cases hl : lineShown 8192 line with
        | error f =>
          obtain ⟨e, he, hfault⟩ := lineText_of_fault hl
          rw [readPieces_fault hlimit he, headShown_error hblank hl]
          exact ⟨e, rfl, h.head e f hfault⟩
        | ok t => exact readsKind_line h store failure gathered hb hempty hblank hl

/-- **Reading a head** from a stream: the pieces between its line feeds say whether there is one, what
    its parts are, and which bytes are left behind it, or else the first fault. -/
theorem Head.read?_shown (h : ReadsStart kind ofHead startLine start tells) (store : Store)
    (source : Source) :
    match headShown ofHead start source.failure (source.bytes.splitOn 10) with
    | .error f => ∃ e, (Head.read? startLine store source).1 = .error e ∧ kind e = some f
    | .ok none => (Head.read? startLine store source).1 = .ok none ∧
        (Head.read? startLine store source).2.bytes = []
    | .ok (some (a, headers, left)) => ∃ head,
        (Head.read? startLine store source).1 = .ok (some head) ∧ HeadSays tells head a headers ∧
        (Head.read? startLine store source).2.bytes = [10].intercalate left ∧
        (Head.read? startLine store source).2.failure = source.failure := by
  have hfresh := CharBuffer.packed_empty store.chunkSize store.chunkSize_pos
  have hpieces := readPieces_kind h store source.failure #[] (source.bytes.splitOn 10) hfresh rfl
  have hreads := Head.reads_pieces startLine store source
  cases hshown : headShown ofHead start source.failure (source.bytes.splitOn 10) with
  | error f =>
    rw [hshown] at hpieces
    obtain ⟨e, he, hkind⟩ := hpieces
    rw [he] at hreads
    exact ⟨e, hreads, hkind⟩
  | ok o =>
    rw [hshown] at hpieces
    cases o with
    | none =>
      rw [show HeadState.readPieces _ _ _ _ _ = _ from hpieces] at hreads
      exact hreads
    | some r =>
      obtain ⟨a, headers, left⟩ := r
      obtain ⟨head, hhead, hsays⟩ := hpieces
      rw [hhead] at hreads
      exact ⟨head, hreads.1, hsays, hreads.2⟩

end Heads

end Pieces

/-! ## 5. Requests -/

/-- A request line says its words. -/
structure RequestLine.Says (r : RequestLine) (line : Text) (parts : Text × Text × Text) : Prop where
  method_eq : r.method = methodNamed parts.1
  method_text : r.methodText.text line = parts.1
  method_within : r.methodText.Within line
  target_text : r.uri.text line = parts.2.1
  target_within : r.uri.Within line
  version_text : r.version.text line = parts.2.2
  version_within : r.version.Within line

/-- **Request lines** are read as their three words. -/
theorem RequestLine.readsStart :
    ReadsStart MessageError.headFault? id RequestLine.ofText requestLineShown RequestLine.Says where
  head _ _ h := h
  fault t f h := by
    unfold requestLineShown at h
    split at h
    · cases h
    · rename_i hnot
      obtain rfl := Except.error.inj h
      obtain ⟨fault, hfault⟩ := ofText_of_not_words hnot
      exact ⟨_, hfault, rfl⟩
  line t a h := by
    unfold requestLineShown at h
    split at h
    · rename_i method target version hwords
      obtain rfl := Except.ok.inj h
      obtain ⟨parsed, hp, hm, ⟨hmt, hmi⟩, ⟨hut, hui⟩, hvt, hvi⟩ := ofText_of_words hwords
      exact ⟨parsed, hp, hm, hmt, hmi, hut, hui, hvt, hvi⟩
    · cases h

/-- A head whose parts are these texts. -/
structure HeadShows (head : Head RequestLine) (r : RequestText) : Prop where
  method_eq : head.line.method = methodNamed r.method
  method_text : head.line.methodText.text head.buffer.toText = r.method
  target_text : head.line.uri.text head.buffer.toText = r.target
  version_text : head.line.version.text head.buffer.toText = r.version
  headers : Headers.Shows ⟨head.table, head.buffer⟩ r.headers

theorem HeadSays.shows {head : Head RequestLine} {parts : Text × Text × Text}
    {headers : List (Text × Text)} (h : HeadSays RequestLine.Says head parts headers) :
    HeadShows head ⟨parts.1, parts.2.1, parts.2.2, headers⟩ := by
  obtain ⟨⟨t, more, hbuffer, hline⟩, hheaders⟩ := h
  refine ⟨hline.method_eq, ?_, ?_, ?_, hheaders⟩
  · rw [hbuffer, TextRef.text_append hline.method_within, hline.method_text]
  · rw [hbuffer, TextRef.text_append hline.target_within, hline.target_text]
  · rw [hbuffer, TextRef.text_append hline.version_within, hline.version_text]

/-- What reading the head of a request comes to. -/
def ReadsHead (read : Except MessageError (Option (Head RequestLine × List (List UInt8)))) :
    Except HeadFault (Option (RequestText × List (List UInt8))) → Prop
  | .error f => ∃ e, read = .error e ∧ e.headFault? = some f
  | .ok none => read = .ok none
  | .ok (some (r, left)) => ∃ head, read = .ok (some (head, left)) ∧ HeadShows head r

/-- **Heads of requests**, from the lines before them on. -/
theorem readPieces_start (store : Store) (failure : Option Failure) {buffer : CharBuffer}
    (gathered : Array UInt8) (pieces : List (List UInt8)) (hb : buffer.Packed)
    (hempty : buffer.toText = []) :
    ReadsHead (HeadState.readPieces RequestLine.ofText store failure ⟨.start, buffer, gathered⟩
      pieces) (requestShown failure pieces) := by
  have hpieces := readPieces_kind RequestLine.readsStart store failure gathered pieces hb hempty
  rw [requestShown_eq_headShown]
  cases hshown : headShown id requestLineShown failure pieces with
  | error f =>
    rw [hshown] at hpieces
    exact hpieces
  | ok o =>
    rw [hshown] at hpieces
    cases o with
    | none => exact hpieces
    | some r =>
      obtain ⟨head, hread, hsays⟩ := hpieces
      exact ⟨head, hread, hsays.shows⟩

/-- The parts of a request, as texts. -/
def Request.text (r : Request) : RequestText where
  method := r.methodName.toText
  target := r.uri.toText
  version := r.version.toText
  headers := r.headers.entries.map fun e => (e.1.toText, e.2.toText)

theorem TextRef.toText_view {buffer : CharBuffer} (hb : buffer.Packed) (ref : TextRef) :
    (ref.view buffer).toText = ref.text buffer.toText := by
  cases ref with
  | literal t => rfl
  | span s => exact CharBuffer.toText_range hb s.start s.stop

theorem HeadShows.text_eq {head : Head RequestLine} {r : RequestText} (h : HeadShows head r) :
    (Request.ofHead head).text = r := by
  have hb := h.headers.packed
  obtain ⟨method, target, version, headers⟩ := r
  have hm : (Request.ofHead head).methodName.toText = method :=
    (TextRef.toText_view hb _).trans h.method_text
  have ht : (Request.ofHead head).uri.toText = target :=
    (TextRef.toText_view hb _).trans h.target_text
  have hv : (Request.ofHead head).version.toText = version :=
    (TextRef.toText_view hb _).trans h.version_text
  have hh := h.headers.entries_eq
  change (Request.ofHead head).headers.entries.map _ = headers at hh
  rw [Request.text, hm, ht, hv, hh]

section Requests

variable (store : Store) {source : Source}

/-- A head at fault is no request. -/
theorem Request.read?_of_error {f : HeadFault}
    (h : requestShown source.failure (source.bytes.splitOn 10) = .error f) :
    ∃ e, (Request.read? store source).1 = .error e ∧ e.headFault? = some f := by
  have hfresh := CharBuffer.packed_empty store.chunkSize store.chunkSize_pos
  have hpieces := readPieces_start store source.failure #[] (source.bytes.splitOn 10) hfresh rfl
  have hreads := Head.reads_pieces RequestLine.ofText store source
  rw [h] at hpieces
  obtain ⟨e, he, hfault⟩ := hpieces
  rw [he] at hreads
  refine ⟨e, ?_, hfault⟩
  show (Head.read? RequestLine.ofText store source).1.map _ = _
  rw [show (Head.read? RequestLine.ofText store source).1 = _ from hreads]
  rfl

/-- A stream whose pieces show no head has no request. -/
theorem Request.read?_of_none
    (h : requestShown source.failure (source.bytes.splitOn 10) = .ok none) :
    (Request.read? store source).1 = .ok none ∧ (Request.read? store source).2.bytes = [] := by
  have hfresh := CharBuffer.packed_empty store.chunkSize store.chunkSize_pos
  have hpieces := readPieces_start store source.failure #[] (source.bytes.splitOn 10) hfresh rfl
  have hreads := Head.reads_pieces RequestLine.ofText store source
  rw [h] at hpieces
  rw [show HeadState.readPieces _ _ _ _ _ = _ from hpieces] at hreads
  refine ⟨?_, hreads.2⟩
  show (Head.read? RequestLine.ofText store source).1.map _ = _
  rw [hreads.1]
  rfl

/-- A request whose head the pieces of a stream show. -/
theorem Request.read?_of_some {shown : RequestText} {left : List (List UInt8)}
    (h : requestShown source.failure (source.bytes.splitOn 10) = .ok (some (shown, left))) :
    ∃ r, (Request.read? store source).1 = .ok (some r) ∧
      r.text = shown ∧
      (∀ m name, m.knownName = some name → (r.method = m ↔ shown.method = name.toList)) ∧
      (∀ name, (r.header? name).map TextView.toText =
        (shown.headers.find? fun e => e.1.eqFold name).map Prod.snd) ∧
      (Request.read? store source).2.bytes = [10].intercalate left ∧
      (Request.read? store source).2.failure = source.failure := by
  have hfresh := CharBuffer.packed_empty store.chunkSize store.chunkSize_pos
  have hpieces := readPieces_start store source.failure #[] (source.bytes.splitOn 10) hfresh rfl
  have hreads := Head.reads_pieces RequestLine.ofText store source
  rw [h] at hpieces
  obtain ⟨head, hhead, hs⟩ := hpieces
  rw [hhead] at hreads
  refine ⟨.ofHead head, ?_, hs.text_eq, ?_, ?_, hreads.2⟩
  · show (Head.read? RequestLine.ofText store source).1.map _ = _
    rw [hreads.1]
    rfl
  · intro m name hm
    show head.line.method = m ↔ _
    rw [hs.method_eq]
    exact methodNamed_eq_iff hm _
  · intro name
    exact Headers.get?_of_shows hs.headers name

end Requests

/-- **Reading a request** from a stream, wherever its segments are cut: the pieces between its line
    feeds say whether there is a head, which texts are its method, target, version, headers and
    lookups, and which bytes are left behind it, or else the first fault. -/
theorem Request.read?_eq (store : Store) (source : Source) :
    match requestShown source.failure (source.bytes.splitOn 10) with
    | .error f => ∃ e, (Request.read? store source).1 = .error e ∧ e.headFault? = some f
    | .ok none =>
      (Request.read? store source).1 = .ok none ∧ (Request.read? store source).2.bytes = []
    | .ok (some (shown, left)) => ∃ r, (Request.read? store source).1 = .ok (some r) ∧
      r.text = shown ∧
      (∀ m name, m.knownName = some name → (r.method = m ↔ shown.method = name.toList)) ∧
      (∀ name, (r.header? name).map TextView.toText =
        (shown.headers.find? fun e => e.1.eqFold name).map Prod.snd) ∧
      (Request.read? store source).2.bytes = [10].intercalate left ∧
      (Request.read? store source).2.failure = source.failure := by
  cases hshown : requestShown source.failure (source.bytes.splitOn 10) with
  | error f => exact Request.read?_of_error store hshown
  | ok o =>
    cases o with
    | none => exact Request.read?_of_none store hshown
    | some r => exact Request.read?_of_some store hshown

end Sluice.Http
