/-
  File:      Sluice/Proofs/Head/Checked.lean
  Subject:   Reading a message with every index checked.

  * `CharBuffer.copyFrom?`, `TextView.chars?`, `TextView.quoted?`: the characters of a view and its
    copy, nothing if an index is outside a chunk or the chunks;
  * `HeaderTable.cell?`, `Headers.lookup?`, `lookupAll?`, `valueHashOf?`, `entries?`, `quoted?`: the
    questions about headers, nothing if an index is outside the array or a view cannot be read;
  * `Request.quoted?`, `Response.quoted?`: the diagnostics;
  * **`safe_range`**, **`Headers.Inside.safe`**: where the ranges lie inside the buffer and the headers
    inside the array, nothing is read outside, and the answers are those of the functions without
    checks.
-/
import Sluice.Http.Message
import Sluice.Proofs.Text.Buffer

namespace Sluice

/-! ## 1. Lists in which nothing is missing -/

section Lists

variable {α β : Type} {f : α → Option β} {g : α → β} {l : List α}

theorem mapM_eq_some (h : ∀ a ∈ l, f a = some (g a)) : l.mapM f = some (l.map g) := by
  induction l with
  | nil => rfl
  | cons a l ih =>
    rw [List.mapM_cons, h a List.mem_cons_self, ih fun a ha => h a (List.mem_cons_of_mem _ ha)]
    rfl

theorem mapM_eq_filterMap (h : ∀ a ∈ l, ∃ b, f a = some b) : l.mapM f = some (l.filterMap f) := by
  induction l with
  | nil => rfl
  | cons a l ih =>
    obtain ⟨b, hb⟩ := h a List.mem_cons_self
    rw [List.mapM_cons, hb, ih fun a ha => h a (List.mem_cons_of_mem _ ha),
      List.filterMap_cons_some hb]
    rfl

theorem findM?_eq_some {p : α → Option Bool} {q : α → Bool} (h : ∀ a ∈ l, p a = some (q a)) :
    l.findM? p = some (l.find? q) := by
  induction l with
  | nil => rfl
  | cons a l ih =>
    rw [List.findM?, List.find?_cons, h a List.mem_cons_self]
    cases q a with
    | true => rfl
    | false => exact ih fun a ha => h a (List.mem_cons_of_mem _ ha)

end Lists

/-! ## 2. Views -/

/-- What the chunks from the one that starts at `base` hold of the range, nothing if one of them is
    missing or ends before the range does. -/
def CharBuffer.copyFrom? (b : CharBuffer) (start stop base : Nat) : Option Text :=
  if base < stop then
    match b.chunks[base / b.chunkSize]? with
    | none => none
    | some chunk =>
      let first := start - base
      let last := min (stop - base) b.chunkSize
      if first ≤ last ∧ last ≤ chunk.size then
        (b.copyFrom? start stop (base + b.chunkSize)).map
          ((chunk.toList.drop first).take (last - first) ++ ·)
      else none
  else some []
termination_by stop - base
decreasing_by
  have := b.chunkSize_pos
  omega

namespace TextView

/-- The characters of a view, one after the other. -/
def chars? : TextView → Option Text
  | .literal t => some t
  | .range b start stop => (List.range' start (stop - start)).mapM b.charAt?

/-- The copy of a view between double quotes; the range may not be inverted. -/
def quoted? : TextView → Option Text
  | .literal t => some (Text.quote t)
  | .range b start stop =>
    if start ≤ stop then
      (b.copyFrom? start stop (start - start % b.chunkSize)).map Text.quote
    else none

/-- A view is read without an index outside the chunks. -/
structure Safe (v : TextView) : Prop where
  chars : v.chars? = some v.toText
  quoted : v.quoted? = some v.quoted

end TextView

section Ranges

variable {b : CharBuffer} {start stop : Nat}

/-- The characters up to the end are there. -/
theorem CharBuffer.exists_charAt? (hb : b.Packed) {i : Nat} (hi : i < b.size) :
    ∃ c, b.charAt? i = some c := by
  rw [CharBuffer.charAt?_eq hb]
  exact ⟨_, List.getElem?_eq_getElem (hb.2 ▸ hi)⟩

/-- A chunk that starts before the end of the text is there, and holds the text up to its end or up to
    the end of the text. -/
theorem CharBuffer.chunk_of_lt (hb : b.Packed) {base n : Nat} (hbase : base % b.chunkSize = 0)
    (hpos : 0 < n) (hn : n ≤ b.chunkSize) (hsize : base + n ≤ b.size) :
    ∃ chunk, b.chunks[base / b.chunkSize]? = some chunk ∧ n ≤ chunk.size := by
  obtain ⟨c, hlast⟩ := CharBuffer.exists_charAt? hb (i := base + (n - 1)) (by omega)
  obtain ⟨k, rfl⟩ := Nat.dvd_of_mod_eq_zero hbase
  have hdiv : (b.chunkSize * k + (n - 1)) / b.chunkSize = k := by
    rw [Nat.mul_add_div b.chunkSize_pos, Nat.div_eq_of_lt (by omega), Nat.add_zero]
  have hmod : (b.chunkSize * k + (n - 1)) % b.chunkSize = n - 1 := by
    rw [Nat.mul_add_mod, Nat.mod_eq_of_lt (by omega)]
  rw [CharBuffer.charAt?, hdiv, hmod] at hlast
  rw [Nat.mul_div_cancel_left k b.chunkSize_pos]
  cases hchunk : b.chunks[k]? with
  | none =>
    rw [hchunk] at hlast
    cases hlast
  | some chunk =>
    rw [hchunk] at hlast
    obtain ⟨hlt, -⟩ := Array.getElem?_eq_some_iff.mp hlast
    exact ⟨chunk, rfl, by omega⟩

/-- **A copy** meets only chunks that are there. -/
theorem CharBuffer.copyFrom?_eq (hb : b.Packed) (hle : start ≤ stop) (hstop : stop ≤ b.size)
    {base : Nat} (hbase : base % b.chunkSize = 0) (hstart : start < base + b.chunkSize) :
    b.copyFrom? start stop base = some (b.copyFrom start stop base) := by
  fun_induction CharBuffer.copyFrom b start stop base with
  | case1 base hlt chunk first last ih =>
    obtain ⟨found, hfound, hsize⟩ := CharBuffer.chunk_of_lt hb (n := last) hbase
      (Nat.lt_min.mpr ⟨Nat.sub_pos_of_lt hlt, b.chunkSize_pos⟩) (Nat.min_le_right ..) (by omega)
    have hchunk : chunk = found := by
      show (b.chunks[base / b.chunkSize]?).getD #[] = found
      rw [hfound]
      rfl
    rw [CharBuffer.copyFrom?, if_pos hlt, hfound]
    dsimp only
    rw [if_pos ⟨by omega, hsize⟩, ih (by rw [Nat.add_mod_right, hbase]) (by omega), hchunk]
    rfl
  | case2 base hge => rw [CharBuffer.copyFrom?, if_neg hge]

/-- **A range inside a buffer** is read without an index outside the chunks. -/
theorem TextView.safe_range (hb : b.Packed) (hle : start ≤ stop) (hstop : stop ≤ b.size) :
    (TextView.range b start stop).Safe := by
  refine ⟨?_, ?_⟩
  · refine mapM_eq_filterMap fun i hi => CharBuffer.exists_charAt? hb ?_
    obtain ⟨-, hlt⟩ := List.mem_range'_1.mp hi
    omega
  · have hmod := Nat.mod_lt start b.chunkSize_pos
    have hdiv := Nat.mod_add_div start b.chunkSize
    have hbase : start - start % b.chunkSize = b.chunkSize * (start / b.chunkSize) := by omega
    rw [TextView.quoted?, if_pos hle, CharBuffer.copyFrom?_eq hb hle hstop
      (by rw [hbase, Nat.mul_mod_right]) (by omega)]
    rfl

end Ranges

namespace Http

/-! ## 3. Headers -/

/-- One word of one header. -/
def HeaderTable.cell? (t : HeaderTable) (entry : Nat) (word : HeaderWord) : Option UInt32 :=
  t.cells[entry * headerWords + word.place]?

namespace Headers

/-- The view between two words of a header. -/
def view? (h : Headers) (i : Nat) (start stop : HeaderWord) : Option TextView := do
  some (.range h.buffer (← h.table.cell? i start).toNat (← h.table.cell? i stop).toNat)

/-- The name of a header. -/
def name? (h : Headers) (i : Nat) : Option TextView := h.view? i .nameStart .nameStop

/-- The value of a header. -/
def value? (h : Headers) (i : Nat) : Option TextView := h.view? i .valueStart .valueStop

/-- Header `i` has the given name, up to case; the name is read only if its hash is that of the given
    one. -/
def isNamed? (h : Headers) (wanted : Text) (i : Nat) : Option Bool := do
  if (← h.table.cell? i .nameHash) == wanted.hashLower then
    let name ← h.name? i
    some ((← name.chars?).eqFold wanted)
  else some false

/-- The value of the first header of a name. -/
def lookup? (h : Headers) (wanted : Text) : Option (Option TextView) := do
  match ← (List.range h.size).findM? (h.isNamed? wanted) with
  | none => some none
  | some i => (h.value? i).map some

/-- The values of all headers of a name, in the order of their lines. -/
def lookupAll? (h : Headers) (wanted : Text) : Option (List TextView) := do
  let named ← (List.range h.size).mapM fun i => (h.isNamed? wanted i).map (i, ·)
  (named.filter Prod.snd).mapM fun e => h.value? e.1

/-- The stored hash of a value. -/
def valueHashOf? (h : Headers) (i : Nat) : Option (Option UInt32) :=
  if i < h.size then (h.table.cell? i .valueHash).map some else some none

/-- All names and values, in the order of the header lines. -/
def entries? (h : Headers) : Option (List (TextView × TextView)) :=
  (List.range h.size).mapM fun i => do some (← h.name? i, ← h.value? i)

/-- The headers for diagnostics. -/
def quoted? (h : Headers) : Option Text := do
  let items ← (← h.entries?).mapM fun e => do
    some ((← e.1.quoted?) ++ ": ".toList ++ (← e.2.quoted?))
  some (['\x7b'] ++ (", ".toList).intercalate items ++ ['\x7d'])

/-- **No question about headers** reads outside the array of the index or outside the chunks, and none
    is answered with a view that does. -/
structure Safe (h : Headers) : Prop where
  lookup : ∀ wanted, h.lookup? wanted = some (h.get? wanted)
  lookupAll : ∀ wanted, h.lookupAll? wanted = some (h.getAll wanted)
  valueHash : ∀ i, h.valueHashOf? i = some (h.valueHash? i)
  entries : h.entries? = some h.entries
  quoted : h.quoted? = some h.quoted
  views : ∀ e ∈ h.entries, e.1.Safe ∧ e.2.Safe
  found : ∀ wanted, ∀ v ∈ h.get? wanted, v.Safe
  foundAll : ∀ wanted, ∀ v ∈ h.getAll wanted, v.Safe

/-- The words of all headers are inside the array, and their ranges inside the buffer. -/
structure Inside (h : Headers) : Prop where
  packed : h.buffer.Packed
  cells : h.size * headerWords ≤ h.table.cells.size
  name_le : ∀ i < h.size, (h.table.cell i .nameStart).toNat ≤ (h.table.cell i .nameStop).toNat
  name_within : ∀ i < h.size, (h.table.cell i .nameStop).toNat ≤ h.buffer.size
  value_le : ∀ i < h.size, (h.table.cell i .valueStart).toNat ≤ (h.table.cell i .valueStop).toNat
  value_within : ∀ i < h.size, (h.table.cell i .valueStop).toNat ≤ h.buffer.size

namespace Inside

variable {h : Headers} {i : Nat}

/-- The words of a header are there. -/
theorem cell?_eq (hh : h.Inside) (hi : i < h.size) (word : HeaderWord) :
    h.table.cell? i word = some (h.table.cell i word) := by
  have hplace : word.place < headerWords := by cases word <;> decide
  have hlt : i * headerWords + word.place < h.table.cells.size := by
    have hnext : (i + 1) * headerWords ≤ h.size * headerWords := Nat.mul_le_mul_right _ hi
    rw [Nat.add_mul, Nat.one_mul] at hnext
    have := hh.cells
    omega
  rw [HeaderTable.cell?, HeaderTable.cell, Array.getElem?_eq_getElem hlt]
  rfl

theorem name?_eq (hh : h.Inside) (hi : i < h.size) : h.name? i = some (h.name i) := by
  rw [name?, view?, hh.cell?_eq hi, hh.cell?_eq hi]
  rfl

theorem value?_eq (hh : h.Inside) (hi : i < h.size) : h.value? i = some (h.value i) := by
  rw [value?, view?, hh.cell?_eq hi, hh.cell?_eq hi]
  rfl

theorem safe_name (hh : h.Inside) (hi : i < h.size) : (h.name i).Safe :=
  TextView.safe_range hh.packed (hh.name_le i hi) (hh.name_within i hi)

theorem safe_value (hh : h.Inside) (hi : i < h.size) : (h.value i).Safe :=
  TextView.safe_range hh.packed (hh.value_le i hi) (hh.value_within i hi)

theorem isNamed?_eq (hh : h.Inside) (hi : i < h.size) (wanted : Text) :
    h.isNamed? wanted i = some (h.isNamed wanted i) := by
  rw [isNamed?, isNamed, hh.cell?_eq hi]
  dsimp only [Option.bind_eq_bind, Option.bind_some]
  cases h.table.cell i .nameHash == wanted.hashLower with
  | false => rfl
  | true =>
    rw [if_pos rfl, hh.name?_eq hi]
    dsimp only [Option.bind_some]
    rw [(hh.safe_name hi).chars]
    rfl

theorem entries?_eq (hh : h.Inside) : h.entries? = some h.entries := by
  refine mapM_eq_some fun i hi => ?_
  have hlt := List.mem_range.mp hi
  rw [hh.name?_eq hlt, hh.value?_eq hlt]
  rfl

theorem safe_of_mem_entries (hh : h.Inside) {e : TextView × TextView} (he : e ∈ h.entries) :
    e.1.Safe ∧ e.2.Safe := by
  obtain ⟨i, hi, rfl⟩ := List.mem_map.mp he
  have hlt := List.mem_range.mp hi
  exact ⟨hh.safe_name hlt, hh.safe_value hlt⟩

/-- **Headers inside their array and their buffer** are asked without an index outside of them. -/
theorem safe (hh : h.Inside) : h.Safe where
  lookup wanted := by
    have hfind : (List.range h.size).findM? (h.isNamed? wanted) =
        some ((List.range h.size).find? (h.isNamed wanted)) :=
      findM?_eq_some fun i hi => hh.isNamed?_eq (List.mem_range.mp hi) wanted
    rw [lookup?, hfind, get?]
    dsimp only [Option.bind_eq_bind, Option.bind_some]
    cases hfound : (List.range h.size).find? (h.isNamed wanted) with
    | none => rfl
    | some i =>
      have hlt := List.mem_range.mp (List.mem_of_find?_eq_some hfound)
      dsimp only
      rw [hh.value?_eq hlt]
      rfl
  lookupAll wanted := by
    have hnamed : ((List.range h.size).mapM fun i => (h.isNamed? wanted i).map (i, ·)) =
        some ((List.range h.size).map fun i => (i, h.isNamed wanted i)) := by
      refine mapM_eq_some fun i hi => ?_
      rw [hh.isNamed?_eq (List.mem_range.mp hi)]
      rfl
    have hvalues : (((List.range h.size).map fun i => (i, h.isNamed wanted i)).filter
        Prod.snd).mapM (fun e => h.value? e.1) = some ((((List.range h.size).map
          fun i => (i, h.isNamed wanted i)).filter Prod.snd).map fun e => h.value e.1) := by
      refine mapM_eq_some fun e he => ?_
      obtain ⟨i, hi, rfl⟩ := List.mem_map.mp (List.mem_filter.mp he).1
      exact hh.value?_eq (List.mem_range.mp hi)
    rw [lookupAll?, hnamed]
    dsimp only [Option.bind_eq_bind, Option.bind_some]
    rw [hvalues, List.filter_map, List.map_map]
    rfl
  valueHash i := by
    rw [valueHashOf?, valueHash?]
    by_cases hi : i < h.size
    · rw [if_pos hi, if_pos hi, hh.cell?_eq hi]
      rfl
    · rw [if_neg hi, if_neg hi]
  entries := hh.entries?_eq
  quoted := by
    have hitems : (h.entries.mapM fun e => do
        some ((← e.1.quoted?) ++ ": ".toList ++ (← e.2.quoted?))) =
        some (h.entries.map fun e => e.1.quoted ++ ": ".toList ++ e.2.quoted) := by
      refine mapM_eq_some fun e he => ?_
      obtain ⟨hname, hvalue⟩ := hh.safe_of_mem_entries he
      rw [hname.quoted, hvalue.quoted]
      rfl
    rw [quoted?, hh.entries?_eq]
    dsimp only [Option.bind_eq_bind, Option.bind_some] at hitems ⊢
    rw [hitems]
    rfl
  views e he := hh.safe_of_mem_entries he
  found wanted v hv := by
    obtain ⟨i, hi, rfl⟩ := Option.map_eq_some_iff.mp hv
    exact hh.safe_value (List.mem_range.mp (List.mem_of_find?_eq_some hi))
  foundAll wanted v hv := by
    obtain ⟨i, hi, rfl⟩ := List.mem_map.mp hv
    exact hh.safe_value (List.mem_range.mp (List.mem_filter.mp hi).1)

end Inside

end Headers

/-! ## 4. Messages -/

/-- The request for diagnostics. -/
def Request.quoted? (r : Request) : Option Text := do
  some ("Request \x7b method: ".toList ++ (← r.methodName.quoted?) ++ ", uri: ".toList ++
    (← r.uri.quoted?) ++ ", version: ".toList ++ (← r.version.quoted?) ++ ", headers: ".toList ++
    (← r.headers.quoted?) ++ " \x7d".toList)

/-- The response for diagnostics. -/
def Response.quoted? (r : Response) : Option Text := do
  some ("Response \x7b version: ".toList ++ (← r.version.quoted?) ++ ", status: ".toList ++
    (toString r.status).toList ++ ", status_text: ".toList ++ (← r.statusText.quoted?) ++
    ", headers: ".toList ++ (← r.headers.quoted?) ++ " \x7d".toList)

theorem Request.quoted?_eq {r : Request} (hmethod : r.methodName.Safe) (huri : r.uri.Safe)
    (hversion : r.version.Safe) (hheaders : r.headers.Safe) : r.quoted? = some r.quoted := by
  rw [quoted?, hmethod.quoted, huri.quoted, hversion.quoted, hheaders.quoted]
  rfl

theorem Response.quoted?_eq {r : Response} (hversion : r.version.Safe)
    (hstatus : r.statusText.Safe) (hheaders : r.headers.Safe) : r.quoted? = some r.quoted := by
  rw [quoted?, hversion.quoted, hstatus.quoted, hheaders.quoted]
  rfl

end Http

end Sluice
