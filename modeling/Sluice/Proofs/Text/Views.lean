/-
  File:      Sluice/Proofs/Text/Views.lean
  Subject:   A literal and a range of a buffer answer alike.

  A literal is cut between its bytes, a range by adding up bounds. Both are said here by one slice of
  one list of characters.

  * `Text.narrow`, `TextView.narrow`: cuts one after the other, of a text and of a view;
  * `IsView`: literals, whole buffers, and parts of views; `literal_or_range` says what they are;
  * `Answers`: a view answers every query as a text does; `answers_of_isView`;
  * `isView_narrow`: what is cut from a view is a view of what is cut from its text;
  * **`narrow_answers`**: a literal and a builder with the same text answer alike after the same cuts,
    whatever was done with the builder before.
-/
import Sluice.Proofs.Text.Builders
import Sluice.Proofs.Text.Digits
import Sluice.Proofs.Text.Utf8

namespace Sluice

/-! ## 1. Texts -/

namespace Text

/-- A text after cuts, the bounds of each counted in the text before it. A cut outside of it changes
    nothing. -/
def narrow (t : Text) : List (Nat × Nat) → Text
  | [] => t
  | (start, stop) :: cuts =>
    match CharBuffer.slice t start stop with
    | .ok u => narrow u cuts
    | .error _ => narrow t cuts

theorem startsWithFold_iff (s t : Text) :
    startsWithFold s t = true ↔ t.map Char.toLower <+: s.map Char.toLower := by
  induction t generalizing s with
  | nil => simp [startsWithFold]
  | cons d t ih =>
    cases s with
    | nil => simp [startsWithFold]
    | cons c s =>
      rw [startsWithFold, Bool.and_eq_true, beq_iff_eq, ih, List.map_cons, List.map_cons,
        List.cons_prefix_cons, eq_comm]

end Text

namespace TextView

open CharBuffer (slice)

variable {v w : TextView} {t u : Text} {start stop : Nat}

/-! ## 2. Views -/

/-- **A view of a text**: a literal, all of a buffer, or a part of a view. -/
inductive IsView : TextView → Text → Prop where
  | literal (t : Text) : IsView (.literal t) t
  | whole {b : CharBuffer} (hb : b.Packed) : IsView b.whole b.toText
  | part {v w : TextView} {t : Text} {start stop : Nat} (hv : IsView v t)
      (hw : v.sub start stop = .ok w) : IsView w ((t.drop start).take (stop - start))

/-- A range of a buffer, within its bounds, and the text that lies there. -/
structure InBuffer (b : CharBuffer) (start stop : Nat) (t : Text) : Prop where
  packed : b.Packed
  start_le : start ≤ stop
  stop_le : stop ≤ b.size
  text_eq : t = (b.toText.drop start).take (stop - start)

theorem InBuffer.length_eq {b : CharBuffer} (h : InBuffer b start stop t) :
    t.length = stop - start := by
  have hstop := h.stop_le
  rw [h.packed.2] at hstop
  rw [h.text_eq, List.length_take_of_le]
  rw [List.length_drop]
  exact Nat.sub_le_sub_right hstop start

/-- A part of a range lies in the buffer at the bounds added up. -/
theorem InBuffer.part {b : CharBuffer} {first last : Nat} (h : InBuffer b start stop t)
    (hle : first ≤ last) (hlast : last ≤ stop - start) :
    InBuffer b (start + first) (start + last) ((t.drop first).take (last - first)) := by
  have hstart := h.start_le
  have hstop := h.stop_le
  refine ⟨h.packed, Nat.add_le_add_left hle start, by omega, ?_⟩
  rw [h.text_eq, List.drop_take, List.drop_drop, List.take_take,
    Nat.min_eq_left (Nat.sub_le_sub_right hlast first), Nat.add_sub_add_left]

/-- **What views are**: the literal of the text, or a range where the text lies in a buffer. -/
theorem literal_or_range (h : IsView v t) :
    v = .literal t ∨ ∃ b start stop, v = .range b start stop ∧ InBuffer b start stop t := by
  induction h with
  | literal t => exact .inl rfl
  | @whole b hb =>
    refine .inr ⟨b, 0, b.size, rfl, hb, Nat.zero_le _, Nat.le_refl _, ?_⟩
    rw [hb.2, List.drop_zero, Nat.sub_zero, List.take_length]
  | @part v w t start stop _ hw ih =>
    rcases ih with rfl | ⟨b, base, last, rfl, hin⟩ <;> unfold sub at hw
    · by_cases hvalid : start ≤ stop ∧ stop ≤ (literal t).length
      · rw [if_pos hvalid] at hw
        obtain rfl := Except.ok.inj hw
        exact .inl (congrArg literal (Utf8.cut_offset t hvalid.1))
      · rw [if_neg hvalid] at hw
        cases hw
    · by_cases hvalid : start ≤ stop ∧ stop ≤ (range b base last).length
      · rw [if_pos hvalid] at hw
        obtain rfl := Except.ok.inj hw
        exact .inr ⟨b, _, _, rfl, hin.part hvalid.1 hvalid.2⟩
      · rw [if_neg hvalid] at hw
        cases hw

theorem toText_of_isView (h : IsView v t) : v.toText = t := by
  rcases literal_or_range h with rfl | ⟨b, start, stop, rfl, hin⟩
  · rfl
  · rw [CharBuffer.toText_range hin.packed, hin.text_eq]

theorem length_of_isView (h : IsView v t) : v.length = t.length := by
  rcases literal_or_range h with rfl | ⟨b, start, stop, rfl, hin⟩
  · rfl
  · exact hin.length_eq.symm

theorem isEmpty_of_isView (h : IsView v t) : v.isEmpty = t.isEmpty := by
  rcases literal_or_range h with rfl | ⟨b, start, stop, rfl, hin⟩
  · rfl
  · have hstart := hin.start_le
    rw [isEmpty, Bool.eq_iff_iff, beq_iff_eq, List.isEmpty_iff_length_eq_zero, hin.length_eq]
    omega

/-- The character at a position, or the bound that it breaks. -/
theorem get_of_isView (h : IsView v t) (i : Nat) :
    v.get i = (t[i]?).elim (.error (.indexOutOfBounds i t.length)) .ok := by
  have hlength := length_of_isView h
  rcases literal_or_range h with rfl | ⟨b, start, stop, rfl, hin⟩
  · unfold get
    dsimp only
    cases t[i]? <;> rfl
  · have ht : t[i]? = if i < stop - start then b.toText[start + i]? else none := by
      rw [hin.text_eq, List.getElem?_take, List.getElem?_drop]
    unfold get
    dsimp only
    rw [hlength, CharBuffer.charAt?_eq hin.packed, ht]
    by_cases hi : i < stop - start
    · rw [if_pos hi, if_pos hi]
      cases b.toText[start + i]? <;> rfl
    · rw [if_neg hi, if_neg hi]
      rfl

/-- A part of a view, or the bounds that it breaks. -/
theorem sub_of_isView (h : IsView v t) (start stop : Nat) :
    (v.sub start stop).map toText = slice t start stop := by
  have hlength := length_of_isView h
  unfold slice
  rw [← hlength]
  by_cases hvalid : start ≤ stop ∧ stop ≤ v.length
  · obtain ⟨w, hw⟩ : ∃ w, v.sub start stop = .ok w := by
      unfold sub
      rw [if_pos hvalid]
      cases v with
      | literal t => exact ⟨_, rfl⟩
      | range b base last => exact ⟨_, rfl⟩
    rw [if_pos hvalid, hw, Except.map, toText_of_isView (.part h hw)]
  · unfold sub
    rw [if_neg hvalid, if_neg hvalid]
    rfl

theorem ownText_of_isView (h : IsView v t) : v.ownText.2 = t := by
  rcases literal_or_range h with rfl | ⟨b, start, stop, rfl, hin⟩
  · rfl
  · exact (CharBuffer.copyRange_eq hin.packed start stop).trans hin.text_eq.symm

/-! ## 3. Queries -/

/-- **A view answers as a text does**, whatever it is asked. -/
structure Answers (v : TextView) (t : Text) : Prop where
  length : v.length = t.length
  isEmpty : v.isEmpty = t.isEmpty
  get : ∀ i, v.get i = (t[i]?).elim (.error (.indexOutOfBounds i t.length)) .ok
  sub : ∀ start stop, (v.sub start stop).map toText = slice t start stop
  chars : v.toText = t
  startsWith : ∀ u : Text, v.startsWith u = true ↔ u <+: t
  startsWithFold : ∀ u : Text,
    v.startsWithFold u = true ↔ u.map Char.toLower <+: t.map Char.toLower
  eqFold : ∀ u : Text, v.eqFold u = true ↔ t.map Char.toLower = u.map Char.toLower
  eqText : ∀ u : Text, v.eqText u = true ↔ t = u
  same : ∀ w u, IsView w u → (v.same w = true ↔ t = u)
  hash : v.hashLower = t.hashLower
  decimal? : v.decimal? = Radix.decimal? t
  hex? : v.hex? = Radix.hex? t
  quoted : v.quoted = Text.quote t
  ownText : v.ownText.2 = t

/-- Two views are the same if their texts are. -/
theorem same_iff (hv : IsView v t) (hw : IsView w u) : v.same w = true ↔ t = u := by
  rw [same, length_of_isView hv, length_of_isView hw, toText_of_isView hv, toText_of_isView hw,
    Bool.and_eq_true, beq_iff_eq, beq_iff_eq]
  exact ⟨And.right, fun h => ⟨congrArg List.length h, h⟩⟩

/-- **Every view answers as its text does.** -/
theorem answers_of_isView (h : IsView v t) : v.Answers t where
  length := length_of_isView h
  isEmpty := isEmpty_of_isView h
  get := get_of_isView h
  sub := sub_of_isView h
  chars := toText_of_isView h
  startsWith u := by
    rw [TextView.startsWith, toText_of_isView h, Text.startsWith_iff]
    exact exists_congr fun _ => eq_comm
  startsWithFold u := by rw [TextView.startsWithFold, toText_of_isView h, Text.startsWithFold_iff]
  eqFold u := by rw [TextView.eqFold, toText_of_isView h, Text.eqFold_iff]
  eqText u := by rw [TextView.eqText, toText_of_isView h, beq_iff_eq]
  same _ _ hw := same_iff h hw
  hash := by rw [hashLower, toText_of_isView h]
  decimal? := by rw [decimal?_eq, toText_of_isView h]
  hex? := by rw [hex?_eq, toText_of_isView h]
  quoted := by rw [TextView.quoted, ownText_of_isView h]
  ownText := ownText_of_isView h

/-! ## 4. Narrowing -/

/-- A view after cuts, the bounds of each counted in the view before it. A cut that fails changes
    nothing. -/
def narrow (v : TextView) : List (Nat × Nat) → TextView
  | [] => v
  | (start, stop) :: cuts =>
    match v.sub start stop with
    | .ok w => w.narrow cuts
    | .error _ => v.narrow cuts

/-- What is cut from a view is a view of what is cut from its text. -/
theorem isView_narrow (h : IsView v t) (cuts : List (Nat × Nat)) :
    IsView (v.narrow cuts) (t.narrow cuts) := by
  induction cuts generalizing v t with
  | nil => exact h
  | cons cut cuts ih =>
    obtain ⟨start, stop⟩ := cut
    have hsub := sub_of_isView h start stop
    unfold narrow Text.narrow
    rw [← hsub]
    cases hw : v.sub start stop with
    | error e => exact ih h
    | ok w =>
      have hpart := IsView.part h hw
      rw [← toText_of_isView hpart] at hpart
      exact ih hpart

/-- **Literals and ranges answer alike.** A builder is used in any way, along with others over its
    pool, until it holds a text. Then the whole of its buffer and the literal with this text answer
    every query as the text does, and so do the views that any cuts leave of them. -/
theorem narrow_answers {size capacity n i : Nat} {pool : CharPool} (hsize : 0 < size)
    (hpool : Pool.ofCapacity capacity (.chunks size) = .ok pool) (place : Nat → UInt64)
    {uses : List (Nat × Bench.Use)} {answers : List Bench.Answer} {texts : List Text}
    (hscript : Bench.Script size (List.replicate n []) uses answers texts)
    (hi : texts[i]? = some t) :
    ∃ given s b, (Bench.ofPool place pool n size hsize).run uses = some (given, s) ∧
      s.builders[i]? = some b ∧ ∀ cuts,
        ((literal t).narrow cuts).Answers (t.narrow cuts) ∧
        (b.buffer.whole.narrow cuts).Answers (t.narrow cuts) := by
  obtain ⟨given, s, hrun, _, hshows⟩ :=
    Bench.shows_run (Bench.shows_ofPool hsize hpool place n) hscript
  obtain ⟨hlt, rfl⟩ := List.getElem?_eq_some_iff.mp hi
  have hlt' : i < s.builders.toList.length := hshows.holds.length_eq ▸ hlt
  have hholds := hshows.holds.get hlt' hlt
  refine ⟨given, s, s.builders.toList[i], hrun, ?_, fun cuts => ⟨?_, ?_⟩⟩
  · rw [← Array.getElem?_toList, List.getElem?_eq_getElem hlt']
  · exact answers_of_isView (isView_narrow (.literal _) cuts)
  · have hwhole := IsView.whole hholds.packed
    rw [hholds.text] at hwhole
    exact answers_of_isView (isView_narrow hwhole cuts)

/-- A word whose second letter takes two bytes. -/
def accented : Text := ['h', 'é', 'l', 'l', 'o']

/-- Two letters are cut out of the word, across two chunks, and then nothing, as the second cut lies
    outside of what the first one left. -/
theorem narrow_answers_accented : 0 < 2 ∧ Pool.ofCapacity 1 (.chunks 2) = .ok Bench.small ∧
    Bench.Script 2 (List.replicate 1 []) [(0, .append accented)] [Bench.described 2 accented]
      [accented] ∧
    [accented][0]? = some accented ∧
    ∃ given s b, (Bench.ofPool (16 * UInt64.ofNat ·) Bench.small 1 2 Nat.two_pos).run
        [(0, .append accented)] = some (given, s) ∧
      s.builders[0]? = some b ∧
      ((literal accented).narrow [(1, 3), (1, 4)]).Answers ['é', 'l'] ∧
      (b.buffer.whole.narrow [(1, 3), (1, 4)]).Answers ['é', 'l'] := by
  have hsmall : Pool.ofCapacity 1 (.chunks 2) = .ok Bench.small := rfl
  have hscript : Bench.Script 2 (List.replicate 1 []) [(0, .append accented)] _ [accented] :=
    .use rfl trivial (.done _)
  obtain ⟨given, s, b, hrun, hb, hanswers⟩ :=
    narrow_answers Nat.two_pos hsmall (16 * UInt64.ofNat ·) hscript (i := 0) rfl
  exact ⟨Nat.two_pos, hsmall, hscript, rfl, given, s, b, hrun, hb, hanswers [(1, 3), (1, 4)]⟩

end TextView

end Sluice
