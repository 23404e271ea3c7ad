/-
  File:      Sluice/Proofs/Head/Table.lean
  Subject:   The header index says what the header lines say.

  * `cell_setCell`: writing one word of the index leaves the others;
  * `Holds`: the words of one header in the index;
  * `put_eq`: one header more, and the others as they were;
  * `Headers.Shows`: index and buffer together show these names and values;
  * **`get?_of_shows`**: a lookup finds the first header of a name, up to case.
-/
import Mathlib.Data.List.Find
import Sluice.Proofs.Head.Words
import Sluice.Proofs.Text.Buffer

namespace Sluice.Http

namespace HeaderTable

/-! ## 1. Words of the index -/

variable {t : HeaderTable} {i j : Nat} {v : UInt32} {e : HeaderEntry}

/-- The places of two words of the index differ, unless header and word are the same. -/
theorem place_inj {w w' : HeaderWord}
    (h : i * headerWords + w.place = j * headerWords + w'.place) : i = j ∧ w = w' := by
  have hw : w.place < 6 := by cases w <;> decide
  have hw' : w'.place < 6 := by cases w' <;> decide
  have hij : i = j := by
    simp only [headerWords] at h
    omega
  subst hij
  have hplace : w.place = w'.place := Nat.add_left_cancel h
  exact ⟨rfl, by cases w <;> cases w' <;> first | rfl | cases hplace⟩

@[simp] theorem size_cells_setCell (w : HeaderWord) :
    (t.setCell i w v).cells.size = t.cells.size := Array.size_setIfInBounds

theorem size_cells_resize (n : Nat) : ({ t with size := n } : HeaderTable).cells.size = t.cells.size :=
  rfl

/-- **One word written**, and the others as they were. -/
theorem cell_setCell (hi : i < maxHeaders) (ht : t.cells.size = headerArraySize)
    (w w' : HeaderWord) :
    (t.setCell i w v).cell j w' = if i = j ∧ w = w' then v else t.cell j w' := by
  have hplace : w.place < 6 := by cases w <;> decide
  have hlt : i * headerWords + w.place < t.cells.size := by
    rw [ht]
    simp only [headerWords, headerArraySize, maxHeaders] at hi ⊢
    omega
  unfold cell setCell
  dsimp only
  rw [Array.getElem?_setIfInBounds]
  by_cases h : i = j ∧ w = w'
  · obtain ⟨rfl, rfl⟩ := h
    rw [if_pos rfl, if_pos hlt, if_pos ⟨rfl, rfl⟩]
    rfl
  · rw [if_neg (fun he => h (place_inj he)), if_neg h]

/-- The words of one header. -/
structure Holds (t : HeaderTable) (i : Nat) (e : HeaderEntry) : Prop where
  nameHash : t.cell i .nameHash = e.nameHash
  valueHash : t.cell i .valueHash = e.valueHash
  nameStart : (t.cell i .nameStart).toNat = e.name.start
  nameStop : (t.cell i .nameStop).toNat = e.name.stop
  valueStart : (t.cell i .valueStart).toNat = e.value.start
  valueStop : (t.cell i .valueStop).toNat = e.value.stop

theorem offset?_eq {n : Nat} (h : n < UInt32.size) : offset? n = .ok (UInt32.ofNat n) := by
  rw [offset?, if_pos h]

/-- What the index keeps of a header. -/
def wordOf (e : HeaderEntry) : HeaderWord → UInt32
  | .nameHash => e.nameHash
  | .valueHash => e.valueHash
  | .nameStart => UInt32.ofNat e.name.start
  | .nameStop => UInt32.ofNat e.name.stop
  | .valueStart => UInt32.ofNat e.value.start
  | .valueStop => UInt32.ofNat e.value.stop

/-- The index with the words of one header written behind the others. -/
def fill (t : HeaderTable) (e : HeaderEntry) : HeaderTable :=
  ((((((t.setCell t.size .nameHash e.nameHash).setCell t.size .valueHash e.valueHash
    ).setCell t.size .nameStart (wordOf e .nameStart)).setCell t.size .nameStop (wordOf e .nameStop)
    ).setCell t.size .valueStart (wordOf e .valueStart)
    ).setCell t.size .valueStop (wordOf e .valueStop))

theorem cell_fill (hi : t.size < maxHeaders) (ht : t.cells.size = headerArraySize)
    (w : HeaderWord) : (t.fill e).cell j w = if t.size = j then wordOf e w else t.cell j w := by
  unfold fill
  iterate 6 rw [cell_setCell hi (by simpa only [size_cells_setCell] using ht)]
  by_cases hj : t.size = j
  · cases w <;> simp [hj, wordOf]
  · simp [hj]

/-- The number of headers is no word of the index. -/
theorem cell_resize (n : Nat) (w : HeaderWord) :
    ({ t with size := n } : HeaderTable).cell j w = t.cell j w := rfl

/-- **One header more**: its words are in the index, those of the others are as they were. -/
theorem put_eq (hsize : t.size < maxHeaders) (ht : t.cells.size = headerArraySize)
    (hname : e.name.start < UInt32.size ∧ e.name.stop < UInt32.size)
    (hvalue : e.value.start < UInt32.size ∧ e.value.stop < UInt32.size) :
    ∃ t', t.put e = .ok t' ∧ t'.size = t.size + 1 ∧ t'.cells.size = headerArraySize ∧
      t'.Holds t.size e ∧ ∀ i < t.size, ∀ e', t.Holds i e' → t'.Holds i e' := by
  have hput : t.put e = .ok { t.fill e with size := t.size + 1 } := by
    rw [put, if_pos hsize, offset?_eq hname.1, offset?_eq hname.2, offset?_eq hvalue.1,
      offset?_eq hvalue.2]
    rfl
  have hcell : ∀ j w, ({ t.fill e with size := t.size + 1 } : HeaderTable).cell j w =
      if t.size = j then wordOf e w else t.cell j w := by
    intro j w
    rw [cell_resize]
    exact cell_fill hsize ht w
  have hcells : ({ t.fill e with size := t.size + 1 } : HeaderTable).cells.size =
      headerArraySize := by
    rw [size_cells_resize]
    simpa only [fill, size_cells_setCell] using ht
  refine ⟨{ t.fill e with size := t.size + 1 }, hput, ?_, hcells, ⟨?_, ?_, ?_, ?_, ?_, ?_⟩,
    ?_⟩
  · rfl
  · rw [hcell, if_pos rfl]
    rfl
  · rw [hcell, if_pos rfl]
    rfl
  · rw [hcell, if_pos rfl]
    exact UInt32.toNat_ofNat_of_lt' hname.1
  · rw [hcell, if_pos rfl]
    exact UInt32.toNat_ofNat_of_lt' hname.2
  · rw [hcell, if_pos rfl]
    exact UInt32.toNat_ofNat_of_lt' hvalue.1
  · rw [hcell, if_pos rfl]
    exact UInt32.toNat_ofNat_of_lt' hvalue.2
  · intro i hi e' h
    have hne : ¬ t.size = i := Nat.ne_of_gt hi
    have hsame : ∀ w, ({ t.fill e with size := t.size + 1 } : HeaderTable).cell i w = t.cell i w :=
      fun w => by rw [hcell, if_neg hne]
    constructor <;> rw [hsame]
    exacts [h.nameHash, h.valueHash, h.nameStart, h.nameStop, h.valueStart, h.valueStop]

end HeaderTable

/-! ## 2. Index and text -/

namespace Headers

/-- The index and the buffer show these names and values. -/
structure Shows (h : Headers) (shown : List (Text × Text)) : Prop where
  packed : h.buffer.Packed
  size_eq : h.table.size = shown.length
  cells_size : h.table.cells.size = headerArraySize
  entry : ∀ i name value, shown[i]? = some (name, value) →
    ∃ e : HeaderEntry, h.table.Holds i e ∧ e.Says h.buffer.toText name value

variable {h : Headers} {shown : List (Text × Text)}

/-- No header is there yet. -/
theorem shows_nil {cells : Array UInt32} {buffer : CharBuffer} (hb : buffer.Packed)
    (hc : cells.size = headerArraySize) : Shows ⟨.ofCells cells, buffer⟩ [] :=
  ⟨hb, rfl, hc, fun i _ _ h => by cases h⟩

/-- **One header more** behind the others, its line put behind the text. -/
theorem shows_concat {table : HeaderTable} {buffer : CharBuffer}
    (h : Shows ⟨table, buffer⟩ shown) {line name value : Text} {e : HeaderEntry}
    (he : e.Says (buffer.toText ++ line) name value) (hlt : shown.length < maxHeaders)
    (hsmall : (buffer.toText ++ line).length < UInt32.size) :
    ∃ table', table.put e = .ok table' ∧
      Shows ⟨table', buffer.append line⟩ (shown ++ [(name, value)]) := by
  have htext : (buffer.append line).toText = buffer.toText ++ line :=
    CharBuffer.toText_append h.packed line
  have hname := he.name_within
  have hvalue := he.value_within
  have hname' := he.name_le
  have hvalue' := he.value_le
  unfold Span.Within at hname hvalue
  have hsize : table.size = shown.length := h.size_eq
  obtain ⟨table', hput, hsize', hcells', hnew, hold⟩ := HeaderTable.put_eq (e := e) (t := table)
    (by rw [hsize]; exact hlt) h.cells_size ⟨by omega, by omega⟩ ⟨by omega, by omega⟩
  refine ⟨table', hput, CharBuffer.packed_append h.packed line, ?_, hcells', ?_⟩
  · rw [List.length_append, ← hsize]
    exact hsize'
  · intro i name' value' hi
    show ∃ e : HeaderEntry, table'.Holds i e ∧ e.Says (buffer.append line).toText name' value'
    rw [htext]
    rcases Nat.lt_trichotomy i shown.length with hlt' | heq | hgt
    · rw [List.getElem?_append_left hlt'] at hi
      obtain ⟨e', hholds, hsays⟩ := h.entry i name' value' hi
      exact ⟨e', hold i (by rw [hsize]; exact hlt') e' hholds, hsays.append line⟩
    · rw [heq, List.getElem?_concat_length] at hi
      cases hi
      exact ⟨e, by rw [heq, ← hsize]; exact hnew, he⟩
    · rw [List.getElem?_eq_none (by rw [List.length_append]; exact hgt)] at hi
      cases hi

/-- The line that ends a head changes nothing. -/
theorem Shows.append {table : HeaderTable} {buffer : CharBuffer}
    (h : Shows ⟨table, buffer⟩ shown) (line : Text) : Shows ⟨table, buffer.append line⟩ shown where
  packed := CharBuffer.packed_append h.packed line
  size_eq := h.size_eq
  cells_size := h.cells_size
  entry i name value hi := by
    obtain ⟨e, hholds, hsays⟩ := h.entry i name value hi
    refine ⟨e, hholds, ?_⟩
    show e.Says (buffer.append line).toText name value
    rw [CharBuffer.toText_append h.packed]
    exact hsays.append line

/-! ## 3. What the headers say -/

section Reading

variable (hs : Shows h shown) {i : Nat} {name value : Text}

include hs

/-- The texts of a header, and the hash of its name. -/
theorem Shows.header (hi : shown[i]? = some (name, value)) :
    (h.name i).toText = name ∧ (h.value i).toText = value ∧
      h.table.cell i .nameHash = name.hashLower ∧ h.table.cell i .valueHash = value.hashLower := by
  obtain ⟨e, hholds, hsays⟩ := hs.entry i name value hi
  refine ⟨?_, ?_, ?_, ?_⟩
  · rw [Headers.name, CharBuffer.toText_range hs.packed, hholds.nameStart, hholds.nameStop]
    exact hsays.name_text
  · rw [Headers.value, CharBuffer.toText_range hs.packed, hholds.valueStart, hholds.valueStop]
    exact hsays.value_text
  · rw [hholds.nameHash, hsays.nameHash_eq]
  · rw [hholds.valueHash, hsays.valueHash_eq]

/-- The names and values, in the order of their lines. -/
theorem Shows.range_map :
    (List.range h.size).map (fun i => ((h.name i).toText, (h.value i).toText)) = shown := by
  refine List.ext_getElem? ?_
  intro i
  rw [List.getElem?_map]
  rcases Nat.lt_or_ge i shown.length with hlt | hge
  · obtain ⟨⟨name, value⟩, hi⟩ : ∃ e, shown[i]? = some e := ⟨_, List.getElem?_eq_getElem hlt⟩
    obtain ⟨hname, hvalue, _⟩ := hs.header hi
    rw [List.getElem?_range (by rw [Headers.size, hs.size_eq]; exact hlt), hi, Option.map_some,
      hname, hvalue]
  · rw [List.getElem?_eq_none hge, List.getElem?_eq_none]
    · rfl
    · rw [List.length_range, Headers.size, hs.size_eq]
      exact hge

theorem Shows.entries_eq :
    h.entries.map (fun e => (e.1.toText, e.2.toText)) = shown := by
  rw [Headers.entries, List.map_map]
  exact hs.range_map

/-- The stored hashes decide nothing that the texts would decide otherwise. -/
theorem Shows.isNamed_eq (hi : i < shown.length) (wanted : Text) :
    h.isNamed wanted i = (h.name i).toText.eqFold wanted := by
  obtain ⟨⟨name, value⟩, hi⟩ : ∃ e, shown[i]? = some e := ⟨_, List.getElem?_eq_getElem hi⟩
  obtain ⟨hname, _, hhash, _⟩ := hs.header hi
  rw [Headers.isNamed, TextView.eqFold, hname, hhash]
  cases heq : Text.eqFold name wanted with
  | false => rw [Bool.and_false]
  | true => rw [Bool.and_true, Text.hashLower_eq_of_eqFold heq, beq_self_eq_true]

/-- **A lookup** finds the value of the first header of this name, up to case. -/
theorem get?_of_shows (wanted : Text) :
    (h.get? wanted).map TextView.toText =
      (shown.find? fun e => e.1.eqFold wanted).map Prod.snd := by
  have hmap := hs.range_map
  rw [Headers.get?, Option.map_map]
  conv_rhs => rw [← hmap, List.find?_map, Option.map_map]
  have hfind : (List.range h.size).find? (h.isNamed wanted) =
      (List.range h.size).find? ((fun e : Text × Text => e.1.eqFold wanted) ∘
        fun i => ((h.name i).toText, (h.value i).toText)) := by
    refine List.find?_congr ?_
    intro i hi
    rw [List.mem_range, Headers.size, hs.size_eq] at hi
    exact hs.isNamed_eq hi wanted
  rw [hfind]
  rfl

end Reading

end Headers

end Sluice.Http
