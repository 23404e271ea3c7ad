/-
  File:      Sluice/Proofs/Head/Responses.lean
  Subject:   The reader of response heads accepts exactly the status lines.

  * `read_of_refused`, `Head.read?_of_refused`: a start line that is refused is taken from the stream,
    and what stands behind it is not touched;
  * **`Response.read?_headShown`**: reading a response from a stream gives what the pieces of its bytes
    show, or the first fault.
-/
import Sluice.Proofs.Head.Lookup
import Sluice.Proofs.Head.StatusLine

namespace Sluice.Http

open Sluice.Wire

/-! ## 1. Start lines that are refused -/

section Refused

variable {β : Type} {startLine : Text → Except MessageError β} {store : Store}

/-- Nothing but empty lines was read so far. -/
structure HeadState.AtStart (s : HeadState β) : Prop where
  phase : s.phase = .start
  packed : s.buffer.Packed
  empty : s.buffer.toText = []

namespace HeadState.AtStart

variable {s : HeadState β} {line : List UInt8} {t : Text}

theorem limit_eq (h : s.AtStart) : s.limit = 8192 := by
  rw [HeadState.limit, h.phase]
  rfl

/-- An empty line changes nothing. -/
theorem addLine_blank (startLine : Text → Except MessageError β) (store : Store) (h : s.AtStart) :
    (s.addLine startLine store []).2 = .more ∧ (s.addLine startLine store []).1.AtStart := by
  have hsize : (s.buffer.append []).size = 0 := by
    show s.buffer.size = 0
    rw [h.packed.2, h.empty]
    rfl
  unfold HeadState.addLine
  rw [h.phase]
  dsimp only
  rw [if_pos hsize]
  exact ⟨rfl, rfl, h.packed, h.empty⟩

/-- A start line is at fault where its parser is. -/
theorem addLine_refused (h : s.AtStart) (hblank : ¬ (line = [] ∨ line = [13]))
    (hread : lineText 8192 line = .ok t) {e : MessageError} (he : startLine t = .error e) :
    (s.addLine startLine store t).2 = .fault e := by
  unfold HeadState.addLine
  rw [h.phase]
  dsimp only
  rw [if_neg (size_append_ne h.packed h.empty hblank hread), he]

end HeadState.AtStart

/-- What is gathered of a line is at the front of its piece. -/
theorem splitOn_of_gathered {long : List UInt8} (h : (10 : UInt8) ∉ long) (rest : List UInt8) :
    ∃ more pieces, (long ++ rest).splitOn 10 = (long ++ more) :: pieces := by
  cases hr : splitLine rest with
  | none =>
    have hmem : (10 : UInt8) ∉ long ++ rest := by
      rw [List.mem_append, not_or]
      exact ⟨h, splitLine_eq_none hr⟩
    exact ⟨rest, [], List.splitOn_eq_singleton hmem⟩
  | some line =>
    obtain ⟨later, rfl, hline⟩ := splitLine_eq_some hr
    have hmem : (10 : UInt8) ∉ long ++ line := by
      rw [List.mem_append, not_or]
      exact ⟨h, hline⟩
    obtain ⟨next, pieces, -, hp⟩ := splitOn_line later hmem
    exact ⟨line, next :: pieces, by rw [← List.append_assoc, hp]⟩

/-- A piece that is too long for a line is neither an empty line nor a start line. -/
theorem not_long_of_pieces {blanks pieces : List (List UInt8)} {line first : List UInt8} {t : Text}
    {rest : List (List UInt8)} (hpieces : first :: rest = blanks ++ line :: pieces)
    (hblanks : ∀ b ∈ blanks, b = [] ∨ b = [13]) (hread : lineText 8192 line = .ok t) :
    first.length ≤ 8192 + 1 := by
  cases blanks with
  | nil =>
    obtain ⟨rfl, -⟩ := List.cons.inj hpieces
    by_contra hlong
    rw [lineText_of_long (Nat.lt_of_not_le hlong)] at hread
    cases hread
  | cons b blanks =>
    obtain ⟨rfl, -⟩ := List.cons.inj hpieces
    rcases hblanks first List.mem_cons_self with rfl | rfl <;> decide

/-- **A step towards a start line that is refused**: the start line is refused, or the machine goes on
    behind an empty line or more of a line. -/
theorem step_of_refused (store : Store) {s : HeadState β} {source : Source} {b : UInt8}
    {bs : List UInt8} {blanks : List (List UInt8)} {line next : List UInt8}
    {pieces : List (List UInt8)} {t : Text} {e : MessageError} (hs : s.Gathers) (hstart : s.AtStart)
    (ha : source.available = .ok (b :: bs))
    (hpieces : (s.gathered.toList ++ source.bytes).splitOn 10 = blanks ++ line :: next :: pieces)
    (hblanks : ∀ b ∈ blanks, b = [] ∨ b = [13]) (hblank : ¬ (line = [] ∨ line = [13]))
    (hread : lineText 8192 line = .ok t) (he : startLine t = .error e) :
    let step := (headFeeder startLine store).feed s (b :: bs)
    let left := (source.consume step.consumed).bytes
    step.verdict = .fault e ∧ left.splitOn 10 = next :: pieces ∨
      step.verdict = .more ∧ step.next.AtStart ∧ ∃ blanks' : List (List UInt8),
        (∀ b ∈ blanks', b = [] ∨ b = [13]) ∧
        (step.next.gathered.toList ++ left).splitOn 10 = blanks' ++ line :: next :: pieces := by
  obtain ⟨later, -, hb⟩ := Source.bytes_of_available ha
  rw [hb] at hpieces
  dsimp only
  rw [Source.bytes_consume_append ha hb (consumed_feed_le s (b :: bs))]
  generalize b :: bs = bytes at hpieces ⊢
  generalize later.flatten = later at hpieces ⊢
  cases hsplit : splitLine bytes with
  | none =>
    have hmem : (10 : UInt8) ∉ s.gathered.toList ++ bytes := by
      rw [List.mem_append, not_or]
      exact ⟨hs.1, splitLine_eq_none hsplit⟩
    obtain ⟨more, rest, hp⟩ := splitOn_of_gathered hmem later
    rw [← List.append_assoc, hp] at hpieces
    have hshort := not_long_of_pieces hpieces hblanks hread
    rw [List.length_append, List.length_append, Array.length_toList] at hshort
    rw [feed_more hsplit, hstart.limit_eq, if_neg (by omega)]
    refine .inr ⟨rfl, ⟨hstart.phase, hstart.packed, hstart.empty⟩, blanks, hblanks, ?_⟩
    dsimp only
    rw [Array.toList_appendList, List.drop_length, List.nil_append, hp]
    exact hpieces
  | some found =>
    rw [feed_line hsplit, hstart.limit_eq]
    obtain ⟨rest, rfl, hfound⟩ := splitLine_eq_some hsplit
    have hmem : (10 : UInt8) ∉ s.gathered.toList ++ found := by
      rw [List.mem_append, not_or]
      exact ⟨hs.1, hfound⟩
    have hdrop : (found ++ 10 :: rest).drop (found.length + 1) = rest := by
      rw [List.drop_append, Nat.add_sub_cancel_left, List.drop_eq_nil_of_le (Nat.le_succ _)]
      rfl
    have hall : s.gathered.toList ++ (found ++ 10 :: rest ++ later) =
        s.gathered.toList ++ found ++ 10 :: (rest ++ later) := by
      simp only [List.append_assoc, List.cons_append]
    obtain ⟨first, others, hrest, hp⟩ := splitOn_line (rest ++ later) hmem
    rw [hall, hp] at hpieces
    cases blanks with
    | nil =>
      obtain rfl := (List.cons.inj hpieces).1
      rw [hread]
      dsimp only
      rw [hdrop, hrest]
      exact .inl ⟨hstart.addLine_refused hblank hread he, (List.cons.inj hpieces).2⟩
    | cons b blanks =>
      obtain rfl := (List.cons.inj hpieces).1
      have hempty : lineText 8192 (s.gathered.toList ++ found) = .ok [] :=
        lineText_eq_nil.mpr (hblanks _ List.mem_cons_self)
      obtain ⟨hmore, hnext⟩ := hstart.addLine_blank startLine store
      rw [hempty]
      dsimp only
      rw [hdrop, gathered_addLine]
      refine .inr ⟨hmore, hnext, blanks, fun b hb => hblanks b (List.mem_cons_of_mem _ hb), ?_⟩
      exact hrest.trans (List.cons.inj hpieces).2

/-- **A start line that is refused**, behind empty lines, is taken from the stream together with them,
    and nothing else is. -/
theorem read_of_refused {s : HeadState β} {source : Source} {blanks : List (List UInt8)}
    {line next : List UInt8} {pieces : List (List UInt8)} {t : Text} {e : MessageError}
    (hs : s.Gathers) (hstart : s.AtStart)
    (hpieces : (s.gathered.toList ++ source.bytes).splitOn 10 = blanks ++ line :: next :: pieces)
    (hblanks : ∀ b ∈ blanks, b = [] ∨ b = [13]) (hblank : ¬ (line = [] ∨ line = [13]))
    (hread : lineText 8192 line = .ok t) (he : startLine t = .error e) :
    ((headFeeder startLine store).read s source).1 = .error e ∧
      ((headFeeder startLine store).read s source).2.bytes = [10].intercalate (next :: pieces) := by
  -- without a byte at hand there is no line feed, and so no start line
  have hnone : ∀ {s : HeadState β} {blanks : List (List UInt8)}, s.Gathers →
      (s.gathered.toList ++ []).splitOn 10 ≠ blanks ++ line :: next :: pieces := by
    intro s blanks hs hpieces
    rw [List.append_nil, List.splitOn_eq_singleton hs.1] at hpieces
    have hlength := congrArg List.length hpieces
    simp only [List.length_append, List.length_cons, List.length_nil] at hlength
    omega
  fun_induction Feeder.read (headFeeder startLine store) s source generalizing blanks with
  | case1 s source f ha =>
    rw [(Source.bytes_of_available_error ha).1] at hpieces
    exact absurd hpieces (hnone hs)
  | case2 s source ha =>
    rw [(Source.bytes_of_available_nil ha).1] at hpieces
    exact absurd hpieces (hnone hs)
  | case3 s source b bs ha step f =>
    rename_i hv
    rcases step_of_refused store hs hstart ha hpieces hblanks hblank hread he with
      ⟨hfault, hleft⟩ | ⟨hmore, -⟩
    · cases hv.symm.trans hfault
      refine ⟨rfl, ?_⟩
      rw [← hleft]
      exact (List.intercalate_splitOn 10).symm
    · cases hv.symm.trans hmore
  | case4 s source b bs ha step r =>
    rename_i hv
    rcases step_of_refused store hs hstart ha hpieces hblanks hblank hread he with
      ⟨hfault, -⟩ | ⟨hmore, -⟩
    · cases hv.symm.trans hfault
    · cases hv.symm.trans hmore
  | case5 s source b bs ha step hv =>
    rename_i ih
    rcases step_of_refused store hs hstart ha hpieces hblanks hblank hread he with
      ⟨hfault, -⟩ | ⟨-, hnext, blanks', hblanks', hleft⟩
    · cases hv.symm.trans hfault
    · exact ih (gathers_feed hs hv) hnext hleft hblanks'

/-- **A head whose start line is refused** is at fault there, and the bytes behind that line are
    left. -/
theorem Head.read?_of_refused (store : Store) {source : Source} {blanks : List (List UInt8)}
    {line next : List UInt8} {pieces : List (List UInt8)} {t : Text} {e : MessageError}
    (hpieces : source.bytes.splitOn 10 = blanks ++ line :: next :: pieces)
    (hblanks : ∀ b ∈ blanks, b = [] ∨ b = [13]) (hblank : ¬ (line = [] ∨ line = [13]))
    (hread : lineText 8192 line = .ok t) (he : startLine t = .error e) :
    (Head.read? startLine store source).1 = .error e ∧
      (Head.read? startLine store source).2.bytes = [10].intercalate (next :: pieces) :=
  read_of_refused (gathers_fresh store)
    ⟨rfl, CharBuffer.packed_empty store.chunkSize store.chunkSize_pos, rfl⟩ hpieces hblanks hblank
    hread he

end Refused

/-! ## 2. Responses -/

/-- A code that a status line shows stands for less than a thousand. -/
theorem value_lt_of_statusLineShown {line version code reason : Text}
    (h : statusLineShown line = .ok (version, code, reason)) :
    Radix.value 10 code = Nat.ofDigitChars 10 code 0 ∧ Nat.ofDigitChars 10 code 0 < 1000 := by
  unfold statusLineShown at h
  dsimp only at h
  split at h
  · cases h
  · split at h
    · rename_i hcode
      cases h
      have hvalue := Radix.value_eq_ofDigitChars (List.all_eq_true.mp hcode.2.2)
      refine ⟨hvalue, ?_⟩
      rw [← hvalue]
      refine Nat.lt_of_lt_of_le (Radix.value_lt (by decide) _) ?_
      exact Nat.pow_le_pow_right (by decide) hcode.2.1
    · cases h

/-- **Reading a response** from a stream, wherever its segments are cut: the pieces between its line
    feeds say whether there is a head, which texts are its version, status code and reason, its headers
    and lookups, and which bytes are left behind it, or else the first fault. All but the status line
    is as with requests (`requestShown_eq_headShown`). The code has one to three ASCII digits and is
    taken in decimal, and a status line at fault is reported before anything behind it is read. -/
theorem Response.read?_headShown (store : Store) (source : Source) :
    (match headShown ResponseFault.head statusLineShown source.failure
        (source.bytes.splitOn 10) with
    | .error f => ∃ e, (Response.read? store source).1 = .error e ∧ e.responseFault? = some f
    | .ok none =>
      (Response.read? store source).1 = .ok none ∧ (Response.read? store source).2.bytes = []
    | .ok (some ((version, code, reason), headers, left)) => ∃ r,
      (Response.read? store source).1 = .ok (some r) ∧
      r.version.toText = version ∧ r.statusText.toText = reason ∧
      r.status = Nat.ofDigitChars 10 code 0 ∧ r.status < 1000 ∧
      (r.headers.entries.map fun e => (e.1.toText, e.2.toText)) = headers ∧
      (∀ name, (r.header? name).map TextView.toText =
        (headers.find? fun e => e.1.eqFold name).map Prod.snd) ∧
      (Response.read? store source).2.bytes = [10].intercalate left ∧
      (Response.read? store source).2.failure = source.failure) ∧
    ∀ blanks line pieces t f, source.bytes.splitOn 10 = blanks ++ line :: pieces → pieces ≠ [] →
      (∀ b ∈ blanks, b = [] ∨ b = [13]) → ¬ (line = [] ∨ line = [13]) →
      lineShown 8192 line = .ok t → statusLineShown t = .error f →
      (∃ e, (Response.read? store source).1 = .error e ∧ e.responseFault? = some f) ∧
        (Response.read? store source).2.bytes = [10].intercalate pieces := by
  have hmap : (Response.read? store source).1 =
      (Head.read? StatusLine.ofText store source).1.map (·.map .ofHead) := rfl
  have hleft : (Response.read? store source).2 = (Head.read? StatusLine.ofText store source).2 := rfl
  rw [hmap, hleft]
  refine ⟨?_, ?_⟩
  · have hread := Head.read?_shown StatusLine.readsStart store source
    cases hshown : headShown ResponseFault.head statusLineShown source.failure
        (source.bytes.splitOn 10) with
    | error f =>
      rw [hshown] at hread
      obtain ⟨e, he, hkind⟩ := hread
      rw [he]
      exact ⟨e, rfl, hkind⟩
    | ok o =>
      rw [hshown] at hread
      cases o with
      | none =>
        rw [hread.1]
        exact ⟨rfl, hread.2⟩
      | some r =>
        obtain ⟨⟨version, code, reason⟩, headers, left⟩ := r
        obtain ⟨head, hhead, hsays, hbytes, hfailure⟩ := hread
        obtain ⟨line, hline⟩ := (lines_of_headShown hshown).1
        obtain ⟨hvalue, hlt⟩ := value_lt_of_statusLineShown hline
        have hparts := hsays.showsLine
        have hstatus := hparts.status.trans hvalue
        rw [hhead]
        exact ⟨_, rfl, hparts.version, hparts.statusText, hstatus, hstatus ▸ hlt,
          hsays.headers.entries_eq, Headers.get?_of_shows hsays.headers, hbytes, hfailure⟩
  · intro blanks line pieces t f hpieces hne hblanks hblank hl hf
    obtain ⟨next, pieces, rfl⟩ := List.exists_cons_of_ne_nil hne
    obtain ⟨e, he, hkind⟩ := StatusLine.readsStart.fault t f hf
    obtain ⟨hread, hbytes⟩ := Head.read?_of_refused store hpieces hblanks hblank
      (lineText_of_shown hl) he
    rw [hread]
    exact ⟨⟨e, rfl, hkind⟩, hbytes⟩

/-- A status line whose code has four digits, behind an empty line, cut inside the code, and a line
    behind it that is no header. -/
def fourDigits : Source :=
  .ofSegments [Utf8.encode "\r\nHTTP/1.1 20".toList, Utf8.encode "00 OK\r\nno header\n\n".toList] none

/-- The code is at fault, and the line behind it is left. -/
theorem Response.read?_headShown_fourDigits :
    (∃ e, (Response.read? (.ofChunkSize 4 (Nat.succ_pos 3)) fourDigits).1 = .error e ∧
      e.responseFault? = some .statusCode) ∧
    (Response.read? (.ofChunkSize 4 (Nat.succ_pos 3)) fourDigits).2.bytes =
      Utf8.encode "no header\n\n".toList := by
  have hpieces : fourDigits.bytes.splitOn 10 =
      [[13]] ++ Utf8.encode "HTTP/1.1 2000 OK\r".toList ::
        [Utf8.encode "no header".toList, [], []] := by
    decide +kernel
  exact (Response.read?_headShown (.ofChunkSize 4 (Nat.succ_pos 3)) fourDigits).2 [[13]]
    (Utf8.encode "HTTP/1.1 2000 OK\r".toList) _ "HTTP/1.1 2000 OK".toList .statusCode hpieces
    (by decide) (by decide) (by decide) (by decide +kernel) (by decide)

/-- A reason keeps the spaces at its end, and no digit of another script is one. -/
example : statusLineShown "  HTTP/1.1   099  Not  Known ".toList =
    .ok ("HTTP/1.1".toList, "099".toList, "Not  Known ".toList) ∧
  statusLineShown "HTTP/1.1 ٢٠٠ OK".toList = .error .statusCode := by
  decide

end Sluice.Http
