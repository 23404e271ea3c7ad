/-
  File:      Sluice/Proofs/Head/Ranges.lean
  Subject:   The ranges of a message that was read are valid, in order and apart.

  * `InOrder`: spans that lie one behind the other between two positions;
  * `RequestLine.inOrder`, `StatusLine.inOrder`: the parts of a start line;
  * `placed_of_headerOfLine`, `spans_put`: the parts of a header line, and the index with them;
  * `LaidOut`: the ranges of a message, all of them; `fits_addLine` is the step of reading that keeps
    them so, `fits_readPieces` its run;
  * `lines_of_unsupported`: which heads are not served;
  * **`ranges_of_read?`**: all of it, for every message that is read.
-/
import Sluice.Proofs.Head.Checked
import Sluice.Proofs.Head.Lookup
import Sluice.Proofs.Head.StatusLine

namespace Sluice.Http

open Sluice.Wire

/-! ## 1. Spans in order -/

/-- The spans lie between two positions, none before the end of one in front of it. -/
structure InOrder (lo hi : Nat) (spans : List Span) : Prop where
  apart : spans.Pairwise fun a b => a.stop ≤ b.start
  inside : ∀ s ∈ spans, lo ≤ s.start ∧ s.start ≤ s.stop ∧ s.stop ≤ hi

namespace InOrder

variable {lo mid hi : Nat} {front spans : List Span}

theorem nil (lo hi : Nat) : InOrder lo hi [] :=
  ⟨.nil, fun _ hs => absurd hs List.not_mem_nil⟩

theorem single {s : Span} (hlo : lo ≤ s.start) (hle : s.start ≤ s.stop) (hhi : s.stop ≤ hi) :
    InOrder lo hi [s] := by
  refine ⟨List.pairwise_singleton .., fun x hx => ?_⟩
  rw [List.mem_singleton.mp hx]
  exact ⟨hlo, hle, hhi⟩

theorem mono {lo' hi' : Nat} (h : InOrder lo hi spans) (hlo : lo' ≤ lo) (hhi : hi ≤ hi') :
    InOrder lo' hi' spans := by
  refine ⟨h.apart, fun s hs => ?_⟩
  obtain ⟨h₁, h₂, h₃⟩ := h.inside s hs
  exact ⟨Nat.le_trans hlo h₁, h₂, Nat.le_trans h₃ hhi⟩

/-- Spans behind others. -/
theorem append (h : InOrder lo mid front) (h' : InOrder mid hi spans) (hlo : lo ≤ mid)
    (hhi : mid ≤ hi) : InOrder lo hi (front ++ spans) := by
  refine ⟨List.pairwise_append.mpr ⟨h.apart, h'.apart, fun a ha b hb => ?_⟩, fun s hs => ?_⟩
  · exact Nat.le_trans (h.inside a ha).2.2 (h'.inside b hb).1
  · rcases List.mem_append.mp hs with hs | hs
    · exact (h.mono (Nat.le_refl lo) hhi).inside s hs
    · exact (h'.mono hlo (Nat.le_refl hi)).inside s hs

end InOrder

/-! ## 2. Start lines -/

/-- The span of a part that is no literal. -/
def TextRef.spans : TextRef → List Span
  | .literal _ => []
  | .span s => [s]

/-- The spans of a request line. -/
def RequestLine.spans (r : RequestLine) : List Span :=
  r.methodText.spans ++ (r.uri.spans ++ r.version.spans)

/-- The spans of a status line. -/
def StatusLine.spans (s : StatusLine) : List Span := s.version.spans ++ s.statusText.spans

/-- A part was read on the way from one cursor to another, and a span of it is not empty. -/
structure Cursor.Passes (c : Cursor) (ref : TextRef) (after : Cursor) : Prop where
  le : c.pos ≤ after.pos
  inOrder : InOrder c.pos after.pos ref.spans
  lt : ∀ s ∈ ref.spans, s.start < s.stop

section Readers

variable {t : Text} {c after : Cursor} {ref : TextRef}

/-- A cursor with less of a text before it stands further on. -/
theorem Cursor.At.pos_le (h : c.At t) (h' : after.At t) (hrest : after.rest.length ≤ c.rest.length) :
    c.pos ≤ after.pos := by
  have hlen := h.length
  have hlen' := h'.length
  omega

theorem length_afterWord_le (t : Text) : (afterWord t).length ≤ t.length :=
  Nat.le_trans (List.length_dropWhile_le ..) (List.length_dropWhile_le ..)

theorem Cursor.passes_literal (h : c.pos ≤ after.pos) (word : Text) :
    c.Passes (.literal word) after :=
  ⟨h, .nil .., fun _ hs => absurd hs List.not_mem_nil⟩

theorem Cursor.passes_word (h : c.skipSpaces.word.1.start < c.skipSpaces.word.1.stop) :
    c.Passes (.span c.skipSpaces.word.1) c.skipSpaces.word.2 := by
  have hskip : c.pos ≤ c.skipSpaces.word.1.start := Nat.le_add_right ..
  have hstop : c.skipSpaces.word.1.stop = c.skipSpaces.word.2.pos := rfl
  refine ⟨by omega, .single hskip (Nat.le_of_lt h) (Nat.le_of_eq hstop), fun s hs => ?_⟩
  rw [List.mem_singleton.mp hs]
  exact h

theorem readMethod_passes {m : Method} (h : readMethod c = .ok (m, ref, after)) :
    c.Passes ref after := by
  unfold readMethod at h
  dsimp only at h
  split at h
  · cases h
    exact Cursor.passes_literal (Nat.le_trans (Nat.le_add_right ..) (Nat.le_add_right ..)) _
  · split at h
    · cases h
      exact Cursor.passes_word ‹_›
    · cases h

theorem readTarget_passes (h : readTarget c = .ok (ref, after)) : c.Passes ref after := by
  unfold readTarget at h
  dsimp only at h
  split at h
  · split at h
    · cases h
      exact Cursor.passes_literal (Nat.le_trans (Nat.le_add_right ..) (Nat.le_add_right ..)) _
    · cases h
      exact Cursor.passes_word ‹_›
  · cases h

theorem readVersion_passes (h : readVersion c = .ok (ref, after)) : c.Passes ref after := by
  unfold readVersion at h
  dsimp only at h
  split at h
  · cases h
    exact Cursor.passes_literal (Nat.le_trans (Nat.le_add_right ..) (Nat.le_add_right ..)) _
  · split at h
    · cases h
      exact Cursor.passes_word ‹_›
    · cases h

theorem Cursor.At.readMethod (h : c.At t) {m : Method} (hread : readMethod c = .ok (m, ref, after)) :
    after.At t := by
  have heq := readMethod_eq h
  split at heq
  · cases hread.symm.trans heq
  · obtain ⟨ref', after', heq, -, -, hafter, -⟩ := heq
    cases hread.symm.trans heq
    exact hafter

theorem Cursor.At.readTarget (h : c.At t) (hread : readTarget c = .ok (ref, after)) :
    after.At t := by
  have heq := readTarget_eq h
  split at heq
  · cases hread.symm.trans heq
  · obtain ⟨ref', after', heq, -, -, hafter, -⟩ := heq
    cases hread.symm.trans heq
    exact hafter

theorem Cursor.At.readVersion (h : c.At t) (hread : readVersion c = .ok (ref, after)) :
    after.At t := by
  have heq := readVersion_eq h
  split at heq
  · cases hread.symm.trans heq
  · obtain ⟨ref', after', heq, -, -, hafter, -⟩ := heq
    cases hread.symm.trans heq
    exact hafter

/-- A status code is read on the way from one cursor to another. -/
theorem Cursor.At.readStatus (h : c.At t) {status : Nat}
    (hread : readStatus c = .ok (status, after)) : after.At t ∧ c.pos ≤ after.pos := by
  have heq := readStatus_eq h
  split at heq
  · obtain ⟨after', heq, hafter, hrest⟩ := heq
    cases hread.symm.trans heq
    exact ⟨hafter, h.pos_le hafter (hrest ▸ length_afterWord_le _)⟩
  · obtain ⟨fault, heq⟩ := heq
    cases hread.symm.trans heq

end Readers

section Lines

variable {line : Text}

/-- **The parts of a request line** lie in order in the line, and none of them is empty. -/
theorem RequestLine.inOrder {r : RequestLine} (h : RequestLine.ofText line = .ok r) :
    InOrder 0 line.length r.spans ∧ ∀ s ∈ r.spans, s.start < s.stop := by
  have hstart : Cursor.At line ⟨0, line⟩ := ⟨Nat.zero_le _, rfl⟩
  unfold RequestLine.ofText at h
  cases hmethod : readMethod ⟨0, line⟩ with
  | error e =>
    rw [hmethod] at h
    cases h
  | ok p =>
    obtain ⟨m, methodText, c₁⟩ := p
    have hpass₁ := readMethod_passes hmethod
    have hat₁ := hstart.readMethod hmethod
    simp only [bind, Except.bind, hmethod] at h
    cases htarget : readTarget c₁ with
    | error e =>
      rw [htarget] at h
      cases h
    | ok p =>
      obtain ⟨uri, c₂⟩ := p
      have hpass₂ := readTarget_passes htarget
      have hat₂ := hat₁.readTarget htarget
      simp only [htarget] at h
      cases hversion : readVersion c₂ with
      | error e =>
        rw [hversion] at h
        cases h
      | ok p =>
        obtain ⟨version, c₃⟩ := p
        have hpass₃ := readVersion_passes hversion
        have hat₃ := hat₂.readVersion hversion
        simp only [hversion] at h
        split at h
        · cases h
          have hend : c₃.pos ≤ line.length := hat₃.1
          have hlater := hpass₂.inOrder.append hpass₃.inOrder hpass₂.le hpass₃.le
          have hall := hpass₁.inOrder.append hlater hpass₁.le (Nat.le_trans hpass₂.le hpass₃.le)
          refine ⟨hall.mono (Nat.zero_le _) hend, fun s hs => ?_⟩
          rcases List.mem_append.mp hs with hs | hs
          · exact hpass₁.lt s hs
          · rcases List.mem_append.mp hs with hs | hs
            · exact hpass₂.lt s hs
            · exact hpass₃.lt s hs
        · cases h

/-- **The parts of a status line** lie in order in the line, and its version is not empty. -/
theorem StatusLine.inOrder {s : StatusLine} (h : StatusLine.ofText line = .ok s) :
    InOrder 0 line.length s.spans ∧ ∀ span ∈ s.version.spans, span.start < span.stop := by
  have hstart : Cursor.At line ⟨0, line⟩ := ⟨Nat.zero_le _, rfl⟩
  unfold StatusLine.ofText at h
  cases hversion : readVersion ⟨0, line⟩ with
  | error e =>
    rw [hversion] at h
    cases h
  | ok p =>
    obtain ⟨version, c₁⟩ := p
    have hpass := readVersion_passes hversion
    have hat₁ := hstart.readVersion hversion
    simp only [bind, Except.bind, hversion] at h
    cases hstatus : readStatus c₁ with
    | error e =>
      rw [hstatus] at h
      cases h
    | ok p =>
      obtain ⟨status, c₂⟩ := p
      obtain ⟨hat₂, hle⟩ := hat₁.readStatus hstatus
      obtain ⟨hat₃, -⟩ := hat₂.skipSpaces
      have hskip : c₂.pos ≤ c₂.skipSpaces.pos := Nat.le_add_right ..
      simp only [hstatus] at h
      cases h
      have hreason : InOrder c₁.pos line.length
          (TextRef.span ⟨c₂.skipSpaces.pos, c₂.skipSpaces.pos + c₂.skipSpaces.rest.length⟩).spans :=
        .single (Nat.le_trans hle hskip) (Nat.le_add_right ..) (Nat.le_of_eq hat₃.length)
      have hall := hpass.inOrder.append hreason hpass.le hat₁.1
      exact ⟨hall.mono (Nat.zero_le _) (Nat.le_refl _), hpass.lt⟩

end Lines

/-! ## 3. Header lines -/

/-- A header line puts its name, a gap, and its value between its own ends, and none of them is
    empty. -/
structure HeaderEntry.Placed (e : HeaderEntry) (lo hi : Nat) : Prop where
  lo_le : lo ≤ e.name.start
  name_lt : e.name.start < e.name.stop
  gap_lt : e.name.stop < e.value.start
  value_lt : e.value.start < e.value.stop
  le_hi : e.value.stop ≤ hi

theorem HeaderEntry.Placed.inOrder {e : HeaderEntry} {lo hi : Nat} (h : e.Placed lo hi) :
    InOrder lo hi [e.name, e.value] := by
  have hname : InOrder lo e.value.start [e.name] :=
    .single h.lo_le (Nat.le_of_lt h.name_lt) (Nat.le_of_lt h.gap_lt)
  have hvalue : InOrder e.value.start hi [e.value] :=
    .single (Nat.le_refl _) (Nat.le_of_lt h.value_lt) h.le_hi
  have hlo := h.lo_le
  have hlt := h.name_lt
  have hgap := h.gap_lt
  have hvlt := h.value_lt
  have hhi := h.le_hi
  exact hname.append hvalue (by omega) (by omega)

/-- The parts of a line make up the line, but for spaces at its end. -/
theorem length_parts (t : Text) :
    (nameOf t).length + (gapOf t).length + (restOf t).length = t.length ∧
      (valueOf t).length ≤ (restOf t).length := by
  refine ⟨?_, (List.rdropWhile_prefix (· == ' ') (restOf t)).length_le⟩
  have hname := Cursor.length_takeWhile_le (fun c => c != ' ' && c != ':') t
  have hsplit := congrArg List.length
    (List.takeWhile_append_dropWhile (p := isGap) (l := t.drop (nameOf t).length))
  rw [List.length_append, List.length_drop] at hsplit
  change (nameOf t).length ≤ t.length at hname
  change (gapOf t).length + (restOf t).length = _ at hsplit
  omega

/-- **The entry of a header line** lies inside the line. -/
theorem placed_of_headerOfLine {base : Nat} {line : Text} {e : HeaderEntry}
    (h : headerOfLine base line = .ok (some e)) : e.Placed base (base + line.length) := by
  have hat : Cursor.At (List.replicate base ' ' ++ line) ⟨base, line⟩ := by
    refine ⟨?_, ?_⟩
    · rw [List.length_append, List.length_replicate]
      exact Nat.le_add_right ..
    · rw [List.drop_left' List.length_replicate]
  obtain ⟨hskip, -⟩ := hat.skipSpaces
  have hlength := hskip.length
  have hbase : base ≤ (⟨base, line⟩ : Cursor).skipSpaces.pos := Nat.le_add_right ..
  rw [List.length_append, List.length_replicate] at hlength
  rw [headerOfLine_eq_header] at h
  generalize (⟨base, line⟩ : Cursor).skipSpaces = c at h hlength hbase
  obtain ⟨hparts, hvalue⟩ := length_parts c.rest
  unfold Cursor.header at h
  dsimp only at h
  split at h
  · cases h
  · split at h
    · cases h
    · rename_i hname
      split at h
      · cases h
      · rename_i hcolon
        split at h
        · cases h
        · split at h
          · cases h
          · rename_i hvalueNe
            cases h
            have hnamePos := List.length_pos_iff.mpr hname
            have hvaluePos := List.length_pos_iff.mpr hvalueNe
            have hgap : 0 < (gapOf c.rest).length :=
              Nat.lt_of_lt_of_le (Nat.pos_of_ne_zero hcolon) List.count_le_length
            constructor <;> dsimp only <;> omega

namespace HeaderTable

variable {t t' : HeaderTable} {e : HeaderEntry} {i : Nat}

/-- What the index has of a header. -/
def entryAt (t : HeaderTable) (i : Nat) : HeaderEntry where
  nameHash := t.cell i .nameHash
  valueHash := t.cell i .valueHash
  name := ⟨(t.cell i .nameStart).toNat, (t.cell i .nameStop).toNat⟩
  value := ⟨(t.cell i .valueStart).toNat, (t.cell i .valueStop).toNat⟩

/-- The spans of the index, the name and the value of each header. -/
def spans (t : HeaderTable) : List Span :=
  (List.range t.size).flatMap fun i => [(t.entryAt i).name, (t.entryAt i).value]

theorem holds_entryAt (t : HeaderTable) (i : Nat) : t.Holds i (t.entryAt i) :=
  ⟨rfl, rfl, rfl, rfl, rfl, rfl⟩

theorem Holds.entryAt_eq (h : t.Holds i e) : t.entryAt i = e := by
  obtain ⟨nameHash, valueHash, ⟨nameStart, nameStop⟩, ⟨valueStart, valueStop⟩⟩ := e
  unfold entryAt
  rw [h.nameHash, h.valueHash, h.nameStart, h.nameStop, h.valueStart, h.valueStop]

/-- **One header more** puts its spans behind the others. -/
theorem spans_put (hsize : t.size < maxHeaders) (ht : t.cells.size = headerArraySize) {lo hi : Nat}
    (he : e.Placed lo hi) (hhi : hi < UInt32.size) :
    ∃ t', t.put e = .ok t' ∧ t'.size = t.size + 1 ∧ t'.cells.size = headerArraySize ∧
      t'.entryAt t.size = e ∧ (∀ i < t.size, t'.entryAt i = t.entryAt i) ∧
      t'.spans = t.spans ++ [e.name, e.value] := by
  have hname := he.name_lt
  have hgap := he.gap_lt
  have hvalue := he.value_lt
  have hle := he.le_hi
  obtain ⟨t', hput, hsize', hcells', hnew, hold⟩ :=
    put_eq (e := e) hsize ht ⟨by omega, by omega⟩ ⟨by omega, by omega⟩
  have hsame : ∀ i < t.size, t'.entryAt i = t.entryAt i :=
    fun i hi => (hold i hi _ (holds_entryAt t i)).entryAt_eq
  refine ⟨t', hput, hsize', hcells', hnew.entryAt_eq, hsame, ?_⟩
  rw [spans, hsize', List.range_succ, List.flatMap_append, List.flatMap_singleton,
    hnew.entryAt_eq]
  refine congrArg (· ++ _) (List.flatMap_congr fun i hi => ?_)
  rw [hsame i (List.mem_range.mp hi)]

end HeaderTable

/-! ## 4. Heads -/

/-- **The ranges of a message**, those of its start line and those of its index: they lie in order
    inside of the text, none reaches into another, every name ends before its value begins, and all of
    them end below a bound that the words of the index can hold. -/
structure LaidOut (line : List Span) (h : Headers) : Prop where
  packed : h.buffer.Packed
  cells_size : h.table.cells.size = headerArraySize
  count : h.table.size ≤ maxHeaders
  inOrder : InOrder 0 h.buffer.size (line ++ h.table.spans)
  headers : ∀ i < h.table.size, (h.table.entryAt i).Placed 0 h.buffer.size
  below : ∀ s ∈ line ++ h.table.spans, s.stop < 8192 + 33 * 4096

namespace LaidOut

variable {line : List Span} {table : HeaderTable} {buffer : CharBuffer} {t : Text}

/-- A start line without headers. -/
theorem start {cells : Array UInt32} (hb : buffer.Packed) (hc : cells.size = headerArraySize)
    (hline : InOrder 0 buffer.size line) (hsmall : buffer.size ≤ 8192) :
    LaidOut line ⟨.ofCells cells, buffer⟩ := by
  have hspans : line ++ (HeaderTable.ofCells cells).spans = line := List.append_nil line
  refine ⟨hb, hc, Nat.zero_le _, ?_, fun i hi => absurd hi (Nat.not_lt_zero i), fun s hs => ?_⟩
  · show InOrder 0 buffer.size (line ++ (HeaderTable.ofCells cells).spans)
    rw [hspans]
    exact hline
  · change s ∈ line ++ (HeaderTable.ofCells cells).spans at hs
    rw [hspans] at hs
    obtain ⟨-, -, hle⟩ := hline.inside s hs
    omega

/-- More text behind it changes nothing. -/
theorem append (h : LaidOut line ⟨table, buffer⟩) (t : Text) :
    LaidOut line ⟨table, buffer.append t⟩ := by
  have hle : buffer.size ≤ (buffer.append t).size := by
    rw [CharBuffer.size_append h.packed]
    exact Nat.le_add_right ..
  refine ⟨CharBuffer.packed_append h.packed t, h.cells_size, h.count,
    h.inOrder.mono (Nat.le_refl 0) hle, fun i hi => ?_, h.below⟩
  obtain ⟨h₁, h₂, h₃, h₄, h₅⟩ := h.headers i hi
  exact ⟨h₁, h₂, h₃, h₄, Nat.le_trans h₅ hle⟩

/-- **One header line more.** -/
theorem put (h : LaidOut line ⟨table, buffer⟩) (hsize : buffer.size ≤ 8192 + 4096 * table.size)
    (hlt : table.size < maxHeaders) (ht : t.length ≤ 4096) {e : HeaderEntry}
    (he : headerOfLine buffer.size t = .ok (some e)) :
    ∃ table', table.put e = .ok table' ∧ table'.size = table.size + 1 ∧
      LaidOut line ⟨table', buffer.append t⟩ := by
  have hb : buffer.Packed := h.packed
  have hinOrder : InOrder 0 buffer.size (line ++ table.spans) := h.inOrder
  have hplaced := placed_of_headerOfLine he
  have hgrown := CharBuffer.size_append hb t
  rw [← hgrown] at hplaced
  have hroom : table.size < 32 := hlt
  have hbound : (buffer.append t).size ≤ 8192 + 4096 * 32 := by omega
  obtain ⟨table', hput, hsize', hcells', hnew, hold, hspans⟩ :=
    HeaderTable.spans_put hlt h.cells_size hplaced (by rw [UInt32.size]; omega)
  have hmore := h.append t
  have hall : line ++ table'.spans = line ++ table.spans ++ [e.name, e.value] := by
    rw [hspans, List.append_assoc]
  refine ⟨table', hput, hsize', hmore.packed, hcells', hsize' ▸ hlt, ?_, fun i hi => ?_,
    fun s hs => ?_⟩
  · show InOrder 0 (buffer.append t).size (line ++ table'.spans)
    rw [hall]
    exact hinOrder.append hplaced.inOrder (Nat.zero_le _) (by omega)
  · show (table'.entryAt i).Placed 0 (buffer.append t).size
    change i < table'.size at hi
    rw [hsize'] at hi
    rcases Nat.lt_succ_iff_lt_or_eq.mp hi with hi | rfl
    · rw [hold i hi]
      exact hmore.headers i hi
    · rw [hnew]
      exact { hplaced with lo_le := Nat.zero_le _ }
  · change s ∈ line ++ table'.spans at hs
    rw [hall] at hs
    rcases List.mem_append.mp hs with hs | hs
    · exact h.below s hs
    · obtain ⟨-, -, hle⟩ := hplaced.inOrder.inside s hs
      omega

/-- **Headers that are laid out** are asked without an index outside their array or the chunks. -/
theorem safe {h : Headers} (hh : LaidOut line h) : h.Safe := by
  have hwords : h.size * headerWords ≤ h.table.cells.size := by
    rw [hh.cells_size]
    exact Nat.mul_le_mul_right _ hh.count
  refine Headers.Inside.safe ⟨hh.packed, hwords, fun i hi => ?_, fun i hi => ?_, fun i hi => ?_,
    fun i hi => ?_⟩
  all_goals
    obtain ⟨-, hname, hgap, hvalue, hle⟩ := hh.headers i hi
    simp only [HeaderTable.entryAt] at hname hgap hvalue hle
    omega

/-- A part of the start line is read without an index outside the chunks. -/
theorem safe_view {h : Headers} (hh : LaidOut line h) {ref : TextRef}
    (href : ∀ s ∈ ref.spans, s ∈ line) : (ref.view h.buffer).Safe := by
  cases ref with
  | literal word => exact ⟨rfl, rfl⟩
  | span s =>
    obtain ⟨-, hle, hstop⟩ := hh.inOrder.inside s
      (List.mem_append_left _ (href s (List.mem_singleton.mpr rfl)))
    exact TextView.safe_range hh.packed hle hstop

end LaidOut

/-! ## 5. Reading -/

/-- A fault that is that of a header too many, if it is one of what is not served. -/
def MessageError.TooMany (e : MessageError) : Prop :=
  e.headFault? = some .unsupported → e = .unsupported (.tooManyHeaders maxHeaders)

/-- A line without a text is served, whatever is wrong with it. -/
theorem served_of_lineText {limit : Nat} {line : List UInt8} {e : MessageError}
    (h : lineText limit line = .error e) : e.headFault? ≠ some .unsupported := by
  unfold lineText at h
  dsimp only at h
  split at h
  · cases h
    nofun
  · split at h
    · cases h
    · cases h
      nofun

theorem missingLine_ne (limit : Nat) (failure : Option Failure) (tail : List UInt8) :
    missingLine limit failure tail ≠ .unsupported := by
  unfold missingLine
  split
  · nofun
  · split <;> nofun

theorem headerShown_ne {t : Text} {f : HeadFault} (h : headerShown t = .error f) :
    f ≠ .unsupported := by
  rintro rfl
  unfold headerShown at h
  dsimp only at h
  repeat' split at h
  all_goals cases h

/-- A header line is served, whatever is wrong with it. -/
theorem served_of_headerOfLine (before : Text) {t : Text} {e : MessageError}
    (h : headerOfLine before.length t = .error e) : e.headFault? ≠ some .unsupported := by
  have hshown := headerOfLine_eq before t
  cases hs : headerShown t with
  | error f =>
    rw [hs] at hshown
    obtain ⟨e', he', hfault⟩ := hshown
    cases h.symm.trans he'
    rw [hfault]
    exact mt Option.some.inj (headerShown_ne hs)
  | ok o =>
    rw [hs] at hshown
    cases o with
    | none => cases h.symm.trans hshown
    | some header =>
      obtain ⟨entry, hentry, -⟩ := hshown
      cases h.symm.trans hentry

/-- **The end of the input** ends no head, and is no fault of what is not served. -/
theorem served_of_finish {β : Type} (failure : Option Failure) (s : HeadState β)
    (tail : List UInt8) :
    match s.finish failure tail with
    | .ok r => r = none
    | .error e => e.headFault? ≠ some .unsupported := by
  cases hs : s.phase with
  | start =>
    have hfinish := finish_start failure hs tail
    split at hfinish
    · rw [hfinish]
    · obtain ⟨e, he, hfault⟩ := hfinish
      rw [he]
      dsimp only
      rw [hfault]
      exact mt Option.some.inj (missingLine_ne _ failure tail)
  | headers parsed table =>
    obtain ⟨e, he, hfault⟩ := finish_headers failure hs tail
    rw [he]
    dsimp only
    rw [hfault]
    exact mt Option.some.inj (missingLine_ne _ failure tail)

/-- Start lines whose parts lie in order, and which are never refused as not served. -/
structure StartsInOrder {β : Type} (startLine : Text → Except MessageError β)
    (spansOf : β → List Span) : Prop where
  inOrder : ∀ t parsed, startLine t = .ok parsed → InOrder 0 t.length (spansOf parsed)
  served : ∀ t e, startLine t = .error e → e.headFault? ≠ some .unsupported

/-- What start lines show is served, so their faults are. -/
theorem ReadsStart.served {α β φ : Type} {kind : MessageError → Option φ} {ofHead : HeadFault → φ}
    {startLine : Text → Except MessageError β} {start : Text → Except φ α}
    {tells : β → Text → α → Prop} (h : ReadsStart kind ofHead startLine start tells)
    (hstart : ∀ t f, start t = .error f → f ≠ ofHead .unsupported) {t : Text} {e : MessageError}
    (he : startLine t = .error e) : e.headFault? ≠ some .unsupported := by
  intro hfault
  have hkind := h.head e _ hfault
  cases hs : start t with
  | error f =>
    obtain ⟨e', he', hkind'⟩ := h.fault t f hs
    cases he.symm.trans he'
    exact hstart t f hs (Option.some.inj (hkind'.symm.trans hkind))
  | ok a =>
    obtain ⟨parsed, hp, -⟩ := h.line t a hs
    cases he.symm.trans hp

theorem RequestLine.startsInOrder : StartsInOrder RequestLine.ofText RequestLine.spans where
  inOrder _ _ h := (RequestLine.inOrder h).1
  served _ _ h := by
    refine RequestLine.readsStart.served (fun t f hf => ?_) h
    unfold requestLineShown at hf
    split at hf
    · cases hf
    · cases hf
      nofun

theorem StatusLine.startsInOrder : StartsInOrder StatusLine.ofText StatusLine.spans where
  inOrder _ _ h := (StatusLine.inOrder h).1
  served _ _ h := by
    refine StatusLine.readsStart.served (fun t f hf => ?_) h
    unfold statusLineShown at hf
    dsimp only at hf
    split at hf
    · cases hf
      nofun
    · split at hf
      · cases hf
      · cases hf
        nofun

section Reading

variable {β : Type} {startLine : Text → Except MessageError β} {spansOf : β → List Span}
  {store : Store} {failure : Option Failure} {s : HeadState β} {t : Text}

/-- What is read of a head is laid out so far. -/
def HeadState.Fits (spansOf : β → List Span) (s : HeadState β) : Prop :=
  match s.phase with
  | .start => s.buffer.Packed ∧ s.buffer.size = 0
  | .headers parsed table => LaidOut (spansOf parsed) ⟨table, s.buffer⟩ ∧
      s.buffer.size ≤ 8192 + 4096 * table.size

/-- **A line** keeps what is read of a head laid out, ends a head that is, or is at fault. -/
theorem fits_addLine (h : StartsInOrder startLine spansOf) (store : Store)
    (hs : s.Fits spansOf) (ht : t.length ≤ s.limit) :
    match (s.addLine startLine store t).2 with
    | .more => (s.addLine startLine store t).1.Fits spansOf
    | .done r => ∀ head ∈ r, LaidOut (spansOf head.line) ⟨head.table, head.buffer⟩
    | .fault e => e.TooMany := by
  obtain ⟨phase, buffer, gathered⟩ := s
  cases phase with
  | start =>
    obtain ⟨hb, hempty⟩ : buffer.Packed ∧ buffer.size = 0 := hs
    change t.length ≤ 8192 at ht
    have hgrown := CharBuffer.size_append hb t
    unfold HeadState.addLine
    dsimp only
    by_cases hblank : (buffer.append t).size = 0
    · rw [if_pos hblank]
      exact ⟨CharBuffer.packed_append hb t, hblank⟩
    · rw [if_neg hblank]
      cases hp : startLine t with
      | error e => exact fun hfault => absurd hfault (h.served t e hp)
      | ok parsed =>
        have hline : InOrder 0 (buffer.append t).size (spansOf parsed) :=
          (h.inOrder t parsed hp).mono (Nat.le_refl 0) (by omega)
        have hsmall : (buffer.append t).size ≤ 8192 := by omega
        exact ⟨.start (CharBuffer.packed_append hb t) store.cells_size hline hsmall, hsmall⟩
  | headers parsed table =>
    obtain ⟨hlaid, hsize⟩ :
      LaidOut (spansOf parsed) ⟨table, buffer⟩ ∧ buffer.size ≤ 8192 + 4096 * table.size := hs
    have hb : buffer.Packed := hlaid.packed
    have hgrown := CharBuffer.size_append hb t
    change t.length ≤ 4096 at ht
    unfold HeadState.addLine
    dsimp only
    cases hheader : headerOfLine buffer.size t with
    | error e =>
      have hserved : e.headFault? ≠ some .unsupported :=
        served_of_headerOfLine buffer.toText (hb.2 ▸ hheader)
      exact fun hfault => absurd hfault hserved
    | ok o =>
      cases o with
      | none =>
        intro head hhead
        obtain rfl := Option.some.inj hhead
        exact hlaid.append t
      | some entry =>
        dsimp only
        by_cases hlt : table.size < maxHeaders
        · obtain ⟨table', hput, hsize', hlaid'⟩ := hlaid.put hsize hlt ht hheader
          rw [hput]
          exact ⟨hlaid', by dsimp only; omega⟩
        · rw [HeaderTable.put, if_neg hlt]
          exact fun _ => rfl

/-- **Reading** gives heads that are laid out, or a fault that is that of a header too many, if it is
    one of what is not served. -/
theorem fits_readPieces (h : StartsInOrder startLine spansOf) (store : Store)
    (failure : Option Failure) (hs : s.Fits spansOf) (pieces : List (List UInt8)) :
    match s.readPieces startLine store failure pieces with
    | .ok r => ∀ p ∈ r, LaidOut (spansOf p.1.line) ⟨p.1.table, p.1.buffer⟩
    | .error e => e.TooMany := by
  -- where a line is missing, there is no head, and what is wrong is not that something is not served
  have hend : ∀ (s : HeadState β) (tail : List UInt8),
      match (s.finish failure tail).map (·.map (·, ([] : List (List UInt8)))) with
      | .ok r => ∀ p ∈ r, LaidOut (spansOf p.1.line) ⟨p.1.table, p.1.buffer⟩
      | .error e => e.TooMany := by
    intro s tail
    have hfinish := served_of_finish failure s tail
    cases hf : s.finish failure tail with
    | error e =>
      rw [hf] at hfinish
      exact fun hfault => absurd hfault hfinish
    | ok r =>
      rw [hf] at hfinish
      obtain rfl : r = none := hfinish
      nofun
  fun_induction HeadState.readPieces startLine store failure s pieces with
  | case1 s => exact hend s []
  | case2 s tail => exact hend s tail
  | case3 s line next pieces e he => exact fun hfault => absurd hfault (served_of_lineText he)
  | case4 s line next pieces t ht hv ih =>
    have hadd := fits_addLine h store hs (length_lineText_le ht).1
    rw [hv] at hadd
    exact ih hadd
  | case5 s line next pieces t ht r hv =>
    have hadd := fits_addLine h store hs (length_lineText_le ht).1
    rw [hv] at hadd
    intro p hp
    obtain ⟨head, hhead, rfl⟩ := Option.map_eq_some_iff.mp hp
    exact hadd head hhead
  | case6 s line next pieces t ht e hv =>
    have hadd := fits_addLine h store hs (length_lineText_le ht).1
    rw [hv] at hadd
    exact hadd

/-- **Reading a head** of a stream gives one that is laid out, or a fault that is that of a header too
    many, if it is one of what is not served. -/
theorem Head.fits_read? (h : StartsInOrder startLine spansOf) (store : Store) (source : Source) :
    match (Head.read? startLine store source).1 with
    | .ok r => ∀ head ∈ r, LaidOut (spansOf head.line) ⟨head.table, head.buffer⟩
    | .error e => e.TooMany := by
  have hfresh : HeadState.Fits spansOf ⟨.start, .empty store.chunkSize store.chunkSize_pos, #[]⟩ :=
    ⟨CharBuffer.packed_empty store.chunkSize store.chunkSize_pos, rfl⟩
  have hpieces := fits_readPieces h store source.failure hfresh (source.bytes.splitOn 10)
  have hreads := Head.reads_pieces startLine store source
  generalize HeadState.readPieces startLine store source.failure _ _ = flat at hpieces hreads
  generalize Head.read? startLine store source = out at hreads
  cases flat with
  | error e =>
    rw [show out.1 = .error e from hreads]
    exact hpieces
  | ok o =>
    cases o with
    | none =>
      rw [hreads.1]
      nofun
    | some p =>
      rw [hreads.1]
      rintro head ⟨⟩
      exact hpieces p rfl

/-- **A head that is read** is laid out. -/
theorem Head.laidOut_of_read? {source : Source} {head : Head β}
    (h : StartsInOrder startLine spansOf)
    (hread : (Head.read? startLine store source).1 = .ok (some head)) :
    LaidOut (spansOf head.line) ⟨head.table, head.buffer⟩ := by
  have hfits := Head.fits_read? h store source
  rw [hread] at hfits
  exact hfits head rfl

end Reading

/-! ## 6. Heads that are not served -/

/-- A line that shows a header. -/
def ShowsHeader (line : List UInt8) : Prop :=
  ∃ t header, lineShown 4096 line = .ok t ∧ headerShown t = .ok (some header)

theorem lineShown_ne {limit : Nat} {line : List UInt8} {f : HeadFault}
    (h : lineShown limit line = .error f) : f ≠ .unsupported := by
  rintro rfl
  unfold lineShown at h
  dsimp only at h
  repeat' split at h
  all_goals cases h

/-- **Header lines that are not served** are one more than there may be. -/
theorem lines_of_unsupported {failure : Option Failure} {count : Nat} (hcount : count ≤ 32)
    {pieces : List (List UInt8)}
    (h : headersShown failure count pieces = .error .unsupported) :
    ∃ lines rest, pieces = lines ++ rest ∧ rest ≠ [] ∧ count + lines.length = 33 ∧
      ∀ line ∈ lines, ShowsHeader line := by
  induction pieces generalizing count with
  | nil => exact absurd (Except.error.inj h) (missingLine_ne _ _ _)
  | cons line rest ih =>
    cases rest with
    | nil => exact absurd (Except.error.inj h) (missingLine_ne _ _ _)
    | cons next pieces =>
      cases hl : lineShown 4096 line with
      | error f =>
        rw [headersShown_error hl] at h
        exact absurd (Except.error.inj h) (lineShown_ne hl)
      | ok t =>
        cases ht : headerShown t with
        | error f =>
          rw [headersShown_fault hl ht] at h
          exact absurd (Except.error.inj h) (headerShown_ne ht)
        | ok o =>
          cases o with
          | none =>
            rw [headersShown_end hl ht] at h
            cases h
          | some header =>
            have hshows : ShowsHeader line := ⟨t, header, hl, ht⟩
            rw [headersShown_header hl ht] at h
            by_cases hlt : count < 32
            · rw [if_pos hlt] at h
              cases hlater : headersShown failure (count + 1) (next :: pieces) with
              | ok r =>
                rw [hlater] at h
                cases h
              | error f =>
                rw [hlater] at h
                cases h
                obtain ⟨lines, rest, hpieces, hrest, hlength, hall⟩ := ih hlt hlater
                refine ⟨line :: lines, rest, by rw [hpieces]; rfl, hrest, ?_,
                  List.forall_mem_cons.mpr ⟨hshows, hall⟩⟩
                rw [List.length_cons]
                omega
            · refine ⟨[line], next :: pieces, rfl, List.cons_ne_nil _ _, ?_,
                List.forall_mem_singleton.mpr hshows⟩
              rw [List.length_singleton]
              omega

/-- **A head that is not served** has one header line more than there may be, where no start line is
    at fault for that. -/
theorem lines_of_headShown_unsupported {α : Type} {start : Text → Except (Option HeadFault) α}
    (hstart : ∀ t f, start t = .error f → f ≠ some .unsupported) {failure : Option Failure}
    {pieces : List (List UInt8)}
    (h : headShown some start failure pieces = .error (some .unsupported)) :
    ∃ lines rest, (pieces.dropWhile isBlank).tail = lines ++ rest ∧ rest ≠ [] ∧
      lines.length = 33 ∧ ∀ line ∈ lines, ShowsHeader line := by
  induction pieces with
  | nil =>
    rw [headShown] at h
    split at h
    · cases h
    · exact absurd (Option.some.inj (Except.error.inj h)) (missingLine_ne _ _ _)
  | cons line rest ih =>
    cases rest with
    | nil =>
      rw [headShown] at h
      split at h
      · cases h
      · exact absurd (Option.some.inj (Except.error.inj h)) (missingLine_ne _ _ _)
    | cons next pieces =>
      by_cases hblank : line = [] ∨ line = [13]
      · rw [headShown_blank hblank] at h
        rw [List.dropWhile_cons_of_pos (isBlank_eq_true.mpr hblank)]
        exact ih h
      · rw [List.dropWhile_cons_of_neg (mt isBlank_eq_true.mp hblank), List.tail_cons]
        cases hl : lineShown 8192 line with
        | error f =>
          rw [headShown_error hblank hl] at h
          exact absurd (Option.some.inj (Except.error.inj h)) (lineShown_ne hl)
        | ok t =>
          cases hs : start t with
          | error f =>
            rw [headShown_fault hblank hl hs] at h
            exact absurd (Except.error.inj h) (hstart t f hs)
          | ok shown =>
            rw [headShown_start hblank hl hs] at h
            cases hlater : headersShown failure 0 (next :: pieces) with
            | ok r =>
              rw [hlater] at h
              cases h
            | error f =>
              rw [hlater] at h
              cases h
              obtain ⟨lines, rest, hpieces, hrest, hlength, hall⟩ :=
                lines_of_unsupported (Nat.zero_le 32) hlater
              exact ⟨lines, rest, hpieces, hrest, by omega, hall⟩

/-- **A stream that is not served** has one header line more than there may be behind the first line
    that is not empty. -/
theorem Head.lines_of_unserved {β : Type} {startLine : Text → Except MessageError β}
    {spansOf : β → List Span} (h : StartsInOrder startLine spansOf) {store : Store}
    {source : Source} {u : Unsupported}
    (hread : (Head.read? startLine store source).1 = .error (.unsupported u)) :
    u = .tooManyHeaders maxHeaders ∧
      ∃ lines rest, ((source.bytes.splitOn 10).dropWhile isBlank).tail = lines ++ rest ∧
        rest ≠ [] ∧ lines.length = 33 ∧ ∀ line ∈ lines, ShowsHeader line := by
  have hfits := Head.fits_read? h store source
  have hshown := Head.read?_shown (readsStart_self startLine) store source
  rw [hread] at hfits
  refine ⟨MessageError.unsupported.inj (hfits rfl), ?_⟩
  cases hs : headShown some (fun t => (startLine t).mapError MessageError.headFault?)
      source.failure (source.bytes.splitOn 10) with
  | error f =>
    rw [hs] at hshown
    obtain ⟨e, he, hkind⟩ := hshown
    cases hread.symm.trans he
    cases hkind
    refine lines_of_headShown_unsupported (fun t f hf => ?_) hs
    cases hp : startLine t with
    | error e =>
      rw [hp] at hf
      cases hf
      exact h.served t e hp
    | ok parsed =>
      rw [hp] at hf
      cases hf
  | ok o =>
    rw [hs] at hshown
    cases o with
    | none => cases hread.symm.trans hshown.1
    | some r =>
      obtain ⟨head, hhead, -⟩ := hshown
      cases hread.symm.trans hhead

/-! ## 7. Messages -/

/-- A message at fault has a head at fault. -/
theorem error_of_map {β μ : Type} {message : Head β → μ}
    {read : Except MessageError (Option (Head β))} {e : MessageError}
    (h : read.map (·.map message) = .error e) : read = .error e := by
  cases read with
  | error e' => exact congrArg _ (Except.error.inj h)
  | ok o => cases h

/-- **The ranges of a message that was read**, request or response, whatever the size of its chunks and
    whatever the array of its index held before. They lie in order inside of the text, those of the
    start line in front, and none reaches into another; only a reason may be empty. Every place is
    below `8192 + 33 * 4096`, and what the words of the index say is where the names and values of the
    header lines are. So no question about the message and no diagnostics reads outside the chunks or
    the array. A stream is not served only for one header line more than there may be, never for a
    place that a word does not hold. -/
theorem ranges_of_read? (store : Store) (source : Source) :
    (∀ r, (Request.read? store source).1 = .ok (some r) →
      LaidOut r.line.spans r.headers ∧ (∀ s ∈ r.line.spans, s.start < s.stop) ∧
      (∃ shown left, headerLines source = .ok (shown, left) ∧ Headers.Shows r.headers shown) ∧
      r.methodName.Safe ∧ r.uri.Safe ∧ r.version.Safe ∧ r.headers.Safe ∧
      r.quoted? = some r.quoted) ∧
    (∀ r, (Response.read? store source).1 = .ok (some r) →
      LaidOut r.line.spans r.headers ∧ (∀ s ∈ r.line.version.spans, s.start < s.stop) ∧
      (∃ shown left, headerLines source = .ok (shown, left) ∧ Headers.Shows r.headers shown) ∧
      r.version.Safe ∧ r.statusText.Safe ∧ r.headers.Safe ∧ r.quoted? = some r.quoted) ∧
    ∀ u, (Request.read? store source).1 = .error (.unsupported u) ∨
        (Response.read? store source).1 = .error (.unsupported u) →
      u = .tooManyHeaders maxHeaders ∧
        ∃ lines rest, ((source.bytes.splitOn 10).dropWhile isBlank).tail = lines ++ rest ∧
          rest ≠ [] ∧ lines.length = 33 ∧ ∀ line ∈ lines, ShowsHeader line := by
  refine ⟨fun r hr => ?_, fun r hr => ?_, fun u hu => ?_⟩
  · obtain ⟨head, hhead, rfl⟩ := exists_head_of_map hr
    have hline := Head.laidOut_of_read? RequestLine.startsInOrder hhead
    obtain ⟨hshows, t, ht⟩ := Head.shows_of_read? hhead
    have hmethod : (head.line.methodText.view head.buffer).Safe :=
      hline.safe_view fun s hs => List.mem_append_left _ hs
    have huri : (head.line.uri.view head.buffer).Safe :=
      hline.safe_view fun s hs => List.mem_append_right _ (List.mem_append_left _ hs)
    have hversion : (head.line.version.view head.buffer).Safe :=
      hline.safe_view fun s hs => List.mem_append_right _ (List.mem_append_right _ hs)
    exact ⟨hline, (RequestLine.inOrder ht).2, hshows, hmethod, huri, hversion, hline.safe,
      Request.quoted?_eq hmethod huri hversion hline.safe⟩
  · obtain ⟨head, hhead, rfl⟩ := exists_head_of_map hr
    have hline := Head.laidOut_of_read? StatusLine.startsInOrder hhead
    obtain ⟨hshows, t, ht⟩ := Head.shows_of_read? hhead
    have hversion : (head.line.version.view head.buffer).Safe :=
      hline.safe_view fun s hs => List.mem_append_left _ hs
    have hreason : (head.line.statusText.view head.buffer).Safe :=
      hline.safe_view fun s hs => List.mem_append_right _ hs
    exact ⟨hline, (StatusLine.inOrder ht).2, hshows, hversion, hreason, hline.safe,
      Response.quoted?_eq hversion hreason hline.safe⟩
  · rcases hu with hu | hu
    · exact Head.lines_of_unserved RequestLine.startsInOrder (error_of_map hu)
    · exact Head.lines_of_unserved StatusLine.startsInOrder (error_of_map hu)

/-- A request with a header more than there may be. -/
def overfull : Source :=
  .ofSegments [Utf8.encode ("GET / HTTP/1.1\n".toList ++
    (List.replicate 33 "a:1\n".toList).flatten ++ "\n".toList)] none

/-- A request in two segments has its ranges in order, though its array was used before, and one with a
    header too many is refused for that. -/
theorem ranges_of_read?_colliding :
    (∃ r, (Request.read? .used colliding).1 = .ok (some r) ∧ LaidOut r.line.spans r.headers ∧
      r.headers.size = 3 ∧ r.quoted? = some r.quoted) ∧
    (Request.read? .used overfull).1 = .error (.unsupported (.tooManyHeaders 32)) := by
  refine ⟨?_, ?_⟩
  · have hshown : requestShown colliding.failure (colliding.bytes.splitOn 10) =
        .ok (some (⟨"GET".toList, "/".toList, "HTTP/1.1".toList,
          [("b[".toList, "1".toList), ("AZ".toList, "2".toList), ("aZ".toList, "3".toList)]⟩,
          [[]])) := by
      decide +kernel
    have hlines : headerLines colliding =
        .ok ([("b[".toList, "1".toList), ("AZ".toList, "2".toList), ("aZ".toList, "3".toList)],
          [[]]) := by
      decide +kernel
    obtain ⟨r, hr, -⟩ := Request.read?_of_some .used hshown
    obtain ⟨hlaid, -, ⟨shown, left, hshown', hshows⟩, -, -, -, -, hquoted⟩ :=
      (ranges_of_read? .used colliding).1 r hr
    cases hlines.symm.trans hshown'
    exact ⟨r, hr, hlaid, hshows.size_eq, hquoted⟩
  · have hshown : requestShown overfull.failure (overfull.bytes.splitOn 10) =
        .error .unsupported := by
      decide +kernel
    obtain ⟨e, hrequest, hfault⟩ := Request.read?_of_error .used hshown
    cases e <;> cases hfault
    rename_i u
    obtain ⟨rfl, -⟩ := (ranges_of_read? .used overfull).2.2 u (.inl hrequest)
    exact hrequest

end Sluice.Http
