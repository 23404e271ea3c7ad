/-
  File:      Sluice/Proofs/Head/Lookup.lean
  Subject:   Looking up headers is looking through the header lines.

  * `headerLines`: the names and values that the lines behind the start line show;
  * `Head.shows_of_read?`: a head that is read has an index of just these, whatever its array held
    before;
  * `Headers.Answers`: what every question about headers is answered;
  * **`lookup_of_read?`**: the headers of a request or a response that was read answer like its lines.
-/
import Sluice.Proofs.Head.Reading
import Sluice.Proofs.Head.Rendering

namespace Sluice.Http

open Sluice.Wire

/-! ## 1. Behind the start line -/

/-- A line that does not count before a start line. -/
def isBlank (line : List UInt8) : Bool := line = [] ∨ line = [13]

theorem isBlank_eq_true {line : List UInt8} : isBlank line = true ↔ line = [] ∨ line = [13] :=
  decide_eq_true_iff

/-- The headers that the lines of a stream show behind the first one that is not empty, and the pieces
    behind them. -/
def headerLines (source : Source) :
    Except HeadFault (List (Text × Text) × List (List UInt8)) :=
  headersShown source.failure 0 ((source.bytes.splitOn 10).dropWhile isBlank).tail

/-- **What a head shows** was shown by a start line and by the header lines behind it. -/
theorem lines_of_headShown {α φ : Type} {ofHead : HeadFault → φ} {start : Text → Except φ α}
    {failure : Option Failure} {pieces : List (List UInt8)} {a : α} {headers : List (Text × Text)}
    {left : List (List UInt8)}
    (h : headShown ofHead start failure pieces = .ok (some (a, headers, left))) :
    (∃ t, start t = .ok a) ∧
      headersShown failure 0 (pieces.dropWhile isBlank).tail = .ok (headers, left) := by
  induction pieces with
  | nil =>
    rw [headShown] at h
    split at h <;> cases h
  | cons line rest ih =>
    cases rest with
    | nil =>
      rw [headShown] at h
      split at h <;> cases h
    | cons next pieces =>
      by_cases hblank : line = [] ∨ line = [13]
      · rw [headShown_blank hblank] at h
        rw [List.dropWhile_cons_of_pos (isBlank_eq_true.mpr hblank)]
        exact ih h
      · rw [List.dropWhile_cons_of_neg (mt isBlank_eq_true.mp hblank), List.tail_cons]
        cases hl : lineShown 8192 line with
        | error f =>
          rw [headShown_error hblank hl] at h
          cases h
        | ok t =>
          cases hs : start t with
          | error f =>
            rw [headShown_fault hblank hl hs] at h
            cases h
          | ok shown =>
            rw [headShown_start hblank hl hs] at h
            split at h
            · cases h
            · cases h
              exact ⟨⟨t, hs⟩, ‹_›⟩

/-- Every reader of start lines reads what it reads, and its faults are of the kinds that they are. -/
theorem readsStart_self {β : Type} (startLine : Text → Except MessageError β) :
    ReadsStart (fun e => some e.headFault?) some startLine
      (fun t => (startLine t).mapError MessageError.headFault?) fun parsed _ a => parsed = a where
  head e f h := congrArg some h
  fault t f h := by
    cases hp : startLine t with
    | error e =>
      rw [hp] at h
      obtain rfl := Except.error.inj h
      exact ⟨e, rfl, rfl⟩
    | ok parsed =>
      rw [hp] at h
      cases h
  line t a h := by
    cases hp : startLine t with
    | error e =>
      rw [hp] at h
      cases h
    | ok parsed =>
      rw [hp] at h
      exact ⟨parsed, rfl, Except.ok.inj h⟩

/-- **A head that is read** has the headers that the lines of its stream show, whatever the array of
    its index held before, and a start line that its parser gave. -/
theorem Head.shows_of_read? {β : Type} {startLine : Text → Except MessageError β} {store : Store}
    {source : Source} {head : Head β}
    (h : (Head.read? startLine store source).1 = .ok (some head)) :
    (∃ shown left, headerLines source = .ok (shown, left) ∧
      Headers.Shows ⟨head.table, head.buffer⟩ shown) ∧ ∃ t, startLine t = .ok head.line := by
  have hread := Head.read?_shown (readsStart_self startLine) store source
  cases hshown : headShown some (fun t => (startLine t).mapError MessageError.headFault?)
      source.failure (source.bytes.splitOn 10) with
  | error f =>
    rw [hshown] at hread
    obtain ⟨e, he, -⟩ := hread
    cases h.symm.trans he
  | ok o =>
    rw [hshown] at hread
    cases o with
    | none => cases h.symm.trans hread.1
    | some r =>
      obtain ⟨a, headers, left⟩ := r
      obtain ⟨head', hhead, hsays, -⟩ := hread
      cases h.symm.trans hhead
      obtain ⟨⟨t, ht⟩, hlines⟩ := lines_of_headShown hshown
      obtain ⟨_, _, _, rfl⟩ := hsays.line
      refine ⟨⟨headers, left, hlines, hsays.headers⟩, t, ?_⟩
      cases hp : startLine t with
      | error e =>
        rw [hp] at ht
        cases ht
      | ok parsed =>
        rw [hp] at ht
        exact congrArg _ (Except.ok.inj ht)

/-! ## 2. Questions -/

/-- A header goes by a name, up to the case of ASCII letters. -/
def goesBy (wanted : Text) (header : Text × Text) : Bool :=
  header.1.map Char.toLower = wanted.map Char.toLower

/-- **What headers are asked** is answered from these names and values, in their order, as if there
    were no hashes. -/
structure Headers.Answers (h : Headers) (shown : List (Text × Text)) : Prop where
  size : h.size = shown.length
  entries : h.entries.map (fun e => (e.1.toText, e.2.toText)) = shown
  get? : ∀ wanted, (h.get? wanted).map TextView.toText =
    (shown.find? (goesBy wanted)).map Prod.snd
  getAll : ∀ wanted, (h.getAll wanted).map TextView.toText =
    (shown.filter (goesBy wanted)).map Prod.snd
  contains : ∀ wanted, h.contains wanted = true ↔ ∃ header ∈ shown, goesBy wanted header = true
  valueHash? : ∀ i, h.valueHash? i = shown[i]?.map fun header => header.2.hashLower

namespace Headers

variable {h : Headers} {shown : List (Text × Text)}

theorem eqFold_eq_goesBy (wanted : Text) :
    (fun e : Text × Text => e.1.eqFold wanted) = goesBy wanted := by
  funext e
  rw [goesBy, Bool.eq_iff_iff, Text.eqFold_iff, decide_eq_true_iff]

/-- All headers of a name, found by hashes and texts. -/
theorem getAll_of_shows (hs : Shows h shown) (wanted : Text) :
    (h.getAll wanted).map TextView.toText = (shown.filter (goesBy wanted)).map Prod.snd := by
  have hfilter : (List.range h.size).filter (h.isNamed wanted) =
      (List.range h.size).filter
        (goesBy wanted ∘ fun i => ((h.name i).toText, (h.value i).toText)) := by
    refine List.filter_congr fun i hi => ?_
    rw [List.mem_range, Headers.size, hs.size_eq] at hi
    rw [hs.isNamed_eq hi wanted, ← eqFold_eq_goesBy]
    rfl
  rw [Headers.getAll, hfilter, List.map_map, ← hs.range_map, List.filter_map, List.map_map]
  rfl

theorem valueHash?_of_shows (hs : Shows h shown) (i : Nat) :
    h.valueHash? i = shown[i]?.map fun header => header.2.hashLower := by
  rw [Headers.valueHash?, Headers.size, hs.size_eq]
  rcases Nat.lt_or_ge i shown.length with hlt | hge
  · obtain ⟨⟨name, value⟩, hi⟩ : ∃ e, shown[i]? = some e := ⟨_, List.getElem?_eq_getElem hlt⟩
    obtain ⟨-, -, -, hhash⟩ := hs.header hi
    rw [if_pos hlt, hi, hhash]
    rfl
  · rw [if_neg (Nat.not_lt_of_le hge), List.getElem?_eq_none hge]
    rfl

/-- **An index that shows headers** answers from them. -/
theorem answers_of_shows (hs : Shows h shown) : h.Answers shown := by
  have hget : ∀ wanted, (h.get? wanted).map TextView.toText =
      (shown.find? (goesBy wanted)).map Prod.snd := by
    intro wanted
    rw [← eqFold_eq_goesBy]
    exact get?_of_shows hs wanted
  refine ⟨hs.size_eq, hs.entries_eq, hget, getAll_of_shows hs, fun wanted => ?_,
    valueHash?_of_shows hs⟩
  rw [Headers.contains, ← Option.isSome_map (f := TextView.toText), hget, Option.isSome_map,
    List.find?_isSome]

end Headers

/-! ## 3. Heads that were read -/

theorem Head.answers_of_read? {β : Type} {startLine : Text → Except MessageError β} {store : Store}
    {source : Source} {head : Head β}
    (h : (Head.read? startLine store source).1 = .ok (some head)) :
    ∃ shown left, headerLines source = .ok (shown, left) ∧
      Headers.Answers ⟨head.table, head.buffer⟩ shown := by
  obtain ⟨⟨shown, left, hlines, hshows⟩, -⟩ := Head.shows_of_read? h
  exact ⟨shown, left, hlines, Headers.answers_of_shows hshows⟩

/-- A message that was read has a head that was read. -/
theorem exists_head_of_map {β μ : Type} {message : Head β → μ}
    {read : Except MessageError (Option (Head β))} {r : μ}
    (h : read.map (·.map message) = .ok (some r)) :
    ∃ head, read = .ok (some head) ∧ message head = r := by
  cases read with
  | error e => cases h
  | ok o =>
    obtain ⟨head, rfl, hr⟩ := Option.map_eq_some_iff.mp (Except.ok.inj h)
    exact ⟨head, rfl, hr⟩

/-- **The headers of a head that was read**, request or response, answer every question from the names
    and values that its lines show: a lookup finds the first header of the name, or all of them in
    order, up to the case of ASCII letters, and no hash makes it find fewer or others. What the array
    of the index held before does not matter. -/
theorem lookup_of_read? (store : Store) (source : Source) :
    (∀ r, (Request.read? store source).1 = .ok (some r) →
      ∃ shown left, headerLines source = .ok (shown, left) ∧ r.headers.Answers shown) ∧
    ∀ r, (Response.read? store source).1 = .ok (some r) →
      ∃ shown left, headerLines source = .ok (shown, left) ∧ r.headers.Answers shown := by
  refine ⟨fun r hr => ?_, fun r hr => ?_⟩
  · obtain ⟨head, hhead, rfl⟩ := exists_head_of_map hr
    exact Head.answers_of_read? hhead
  · obtain ⟨head, hhead, rfl⟩ := exists_head_of_map hr
    exact Head.answers_of_read? hhead

/-- A store whose index array was used before. -/
def Store.used : Store := ⟨4, Nat.succ_pos 3, Array.replicate headerArraySize 7, Array.size_replicate⟩

/-- A request, in two segments, with a header whose name has the hash of `az`, and two of this name in
    different cases. -/
def colliding : Source :=
  .ofSegments [Utf8.encode "GET / HTTP/1.1\r\nb[: 1\r\nAZ: 2\r\na".toList,
    Utf8.encode "Z :3\r\n\r\n".toList] none

/-- The headers of the name are found, and the one of the same hash is not. -/
theorem lookup_of_read?_colliding : Text.hashLower "b[".toList = Text.hashLower "az".toList ∧
    ∃ r, (Request.read? .used colliding).1 = .ok (some r) ∧
      (r.headers.get? "az".toList).map TextView.toText = some "2".toList ∧
      (r.headers.getAll "Az".toList).map TextView.toText = ["2".toList, "3".toList] := by
  have hshown : requestShown colliding.failure (colliding.bytes.splitOn 10) =
      .ok (some (⟨"GET".toList, "/".toList, "HTTP/1.1".toList,
        [("b[".toList, "1".toList), ("AZ".toList, "2".toList), ("aZ".toList, "3".toList)]⟩,
        [[]])) := by
    decide +kernel
  have hlines : headerLines colliding =
      .ok ([("b[".toList, "1".toList), ("AZ".toList, "2".toList), ("aZ".toList, "3".toList)],
        [[]]) := by
    decide +kernel
  obtain ⟨r, hr, -⟩ := Request.read?_of_some .used hshown
  obtain ⟨shown, left, hshown', hanswers⟩ := (lookup_of_read? .used colliding).1 r hr
  cases hlines.symm.trans hshown'
  refine ⟨by decide, r, hr, ?_, ?_⟩
  · rw [hanswers.get?]
    decide
  · rw [hanswers.getAll]
    decide

end Sluice.Http
