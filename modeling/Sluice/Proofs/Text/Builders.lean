/-
  File:      Sluice/Proofs/Text/Builders.lean
  Subject:   Builders over one pool are lists of characters.

  Chunks travel from one builder to another through the pool, with what was written into them. What
  keeps texts apart is that the pool clears a chunk before it lends it again.

  * `CharPool.Sound`: so many chunks are lent, the others are idle or destroyed;
  * `Lends`, `lends_supply`: borrowed chunks are empty, and each one has a lease;
  * `Builder.Holds`: a builder whose text is a list of characters; `holds_push`, `holds_append`,
    `holds_release`, `holds_render`: it is so after each operation;
  * `Use.after`, `Use.answer`: what a list of characters is after a use, and what it answers;
  * `Script`: uses of several lists, one after the other, and all answers;
  * **`run_of_script`**: builders over one pool answer the same.
-/
import Mathlib.Data.List.Forall2
import Sluice.Buffer.Builder
import Sluice.Connection.Measure
import Sluice.Proofs.Pool.Idle
import Sluice.Proofs.Text.Buffer

namespace Sluice

/-! ## 1. The pool -/

namespace CharPool

/-- A pool of chunks for `size` characters, `out` of them lent. -/
structure Sound (size out : Nat) (pool : CharPool) : Prop where
  policy_eq : pool.policy = .chunks size
  table : pool.table.Sound
  balance : pool.tally.produced = out + pool.idle.length + pool.tally.destroyed

variable {size out capacity : Nat} {pool : CharPool}

theorem sound_ofCapacity (h : Pool.ofCapacity capacity (.chunks size) = .ok pool) :
    Sound size 0 pool := by
  obtain ⟨⟨htable, hpolicy, htally, hidle⟩, _⟩ := Pool.sound_ofCapacity h
  refine ⟨hpolicy, htable, ?_⟩
  rw [htally, hidle]
  rfl

/-- A chunk that is lent is empty. -/
theorem sound_borrow (h : Sound size out pool) (address : UInt64) :
    (pool.borrow address).1.value.elements = [] ∧ Sound size (out + 1) (pool.borrow address).2 := by
  have hbalance := h.balance
  rcases Pool.borrow_cases h.table address with ⟨_, hb⟩ | ⟨a, t, hidle, htable, _, hb⟩ <;>
    rw [hb, h.policy_eq]
  · refine ⟨rfl, rfl, h.table, ?_⟩
    show pool.tally.produced + 1 = out + 1 + pool.idle.length + pool.tally.destroyed
    omega
  · refine ⟨rfl, rfl, htable, ?_⟩
    rw [hidle, List.length_cons] at hbalance
    show pool.tally.produced = out + 1 + t.idle.length + pool.tally.destroyed
    omega

/-- A chunk that is given back is idle, or destroyed. -/
theorem sound_recycle (h : Sound size (out + 1) pool) (a : Pool.Placed (Pool.Chunk Char)) :
    Sound size out (pool.recycle a) := by
  have hbalance := h.balance
  rcases Pool.recycle_cases h.table a with ⟨_, hp⟩ | ⟨t, _, hp, htable, _, hidle⟩ <;> rw [hp]
  · refine ⟨h.policy_eq, h.table, ?_⟩
    show pool.tally.produced = out + pool.idle.length + (pool.tally.destroyed + 1)
    omega
  · refine ⟨h.policy_eq, htable, ?_⟩
    rw [Pool.idle_mk, hidle, List.length_cons]
    show pool.tally.produced = out + (pool.idle.length + 1) + pool.tally.destroyed
    omega

theorem sound_recycleAll (l : List (Pool.Placed (Pool.Chunk Char)))
    (h : Sound size (out + l.length) pool) : Sound size out (l.foldl Pool.recycle pool) := by
  induction l generalizing pool with
  | nil => exact h
  | cons a l ih => exact ih (sound_recycle h a)

/-- What a builder takes its chunks from: the pool, of which the other builders have `others`
    chunks, and the leases of the `n` chunks it has. -/
def Lends (size others n : Nat) (s : CharPool × Array Lease) : Prop :=
  Sound size (others + n) s.1 ∧ s.2.size = n

/-- **Borrowed chunks** are empty, and each one has a lease. -/
theorem lends_supply (place : Nat → UInt64) (size others : Nat) :
    (supply place).Supplies (Lends size others) := by
  rintro n s ⟨hsound, hleases⟩
  obtain ⟨hempty, hsound'⟩ := sound_borrow hsound (place (s.1.tally.produced + 1))
  refine ⟨?_, hsound', ?_⟩
  · show (s.1.borrow (place (s.1.tally.produced + 1))).1.value.elements.toArray = #[]
    rw [hempty]
  · exact (Array.size_push _).trans (congrArg (· + 1) hleases)

end CharPool

/-! ## 2. One builder -/

namespace Builder

/-- The number of chunks for `size` characters that a text takes. -/
def chunksFor (size : Nat) (t : Text) : Nat := (t.length + size - 1) / size

/-- A builder with chunks for `size` characters whose text is `t`: it has a lease of each chunk,
    and what it rendered before is its text. -/
structure Holds (size : Nat) (b : Builder) (t : Text) : Prop where
  packed : b.buffer.Packed
  text : b.buffer.toText = t
  chunkSize : b.buffer.chunkSize = size
  leased : b.leases.size = b.buffer.chunks.size
  rendered : ∀ r ∈ b.rendered, r = t

variable {size others : Nat} {pool : CharPool} {b : Builder} {t : Text}

theorem Holds.size_eq (hb : b.Holds size t) : b.buffer.size = t.length := by
  rw [hb.packed.2, hb.text]

theorem Holds.chunks_eq (hb : b.Holds size t) : b.buffer.chunks.size = chunksFor size t := by
  rw [CharBuffer.size_chunks hb.packed, hb.size_eq, hb.chunkSize]
  rfl

/-- A builder whose text is `t`: its chunks are full but the last, and as many as the text needs. -/
structure Refines (size : Nat) (b : Builder) (t : Text) : Prop where
  text : b.buffer.toText = t
  length : b.buffer.size = t.length
  full : ∀ c ∈ b.buffer.chunks.toList.dropLast, c.size = size
  count : b.buffer.chunks.size = chunksFor size t

theorem refines_of_holds (hb : b.Holds size t) : b.Refines size t :=
  ⟨hb.text, hb.size_eq,
    fun _ hc => (CharBuffer.size_of_mem_dropLast hb.packed hc).trans hb.chunkSize, hb.chunks_eq⟩

theorem holds_empty {n : Nat} (h : 0 < n) (hn : n = size) : (empty n h).Holds size [] :=
  ⟨CharBuffer.packed_empty n h, rfl, hn, rfl, nofun⟩

/-- A builder whose buffer has grown. -/
theorem holds_grown {u : Text} {buffer : CharBuffer} {pool : CharPool} {leases : Array Lease}
    (hb : b.Holds size t)
    (h : CharBuffer.Grown (CharPool.Lends size others) b.buffer u (buffer, pool, leases)) :
    (⟨buffer, leases, none⟩ : Builder).Holds size (t ++ u) ∧
      CharPool.Sound size (others + buffer.chunks.size) pool :=
  ⟨⟨h.packed, h.text.trans (congrArg (· ++ u) hb.text), h.chunkSize.trans hb.chunkSize,
    h.supplied.2, nofun⟩, h.supplied.1⟩

/-- **A character more.** -/
theorem holds_push (place : Nat → UInt64) (hb : b.Holds size t)
    (hp : CharPool.Sound size (others + b.buffer.chunks.size) pool) (c : Char) :
    (b.push place pool c).1.Holds size (t ++ [c]) ∧
      CharPool.Sound size (others + (b.push place pool c).1.buffer.chunks.size)
        (b.push place pool c).2 :=
  holds_grown hb (CharBuffer.grown_push (CharPool.lends_supply place size others) ⟨hp, hb.leased⟩
    hb.packed c)

/-- **A text more.** -/
theorem holds_append (place : Nat → UInt64) (hb : b.Holds size t)
    (hp : CharPool.Sound size (others + b.buffer.chunks.size) pool) (u : Text) :
    (b.append place pool u).1.Holds size (t ++ u) ∧
      CharPool.Sound size (others + (b.append place pool u).1.buffer.chunks.size)
        (b.append place pool u).2 :=
  holds_grown hb (CharBuffer.grown_fillFrom (CharPool.lends_supply place size others)
    ⟨hp, hb.leased⟩ hb.packed u)

/-- **Nothing is left** of a builder that was released, and it has no chunk. -/
theorem holds_release (hb : b.Holds size t)
    (hp : CharPool.Sound size (others + b.buffer.chunks.size) pool) :
    (b.release pool).1.Holds size [] ∧
      CharPool.Sound size (others + (b.release pool).1.buffer.chunks.size) (b.release pool).2 := by
  have hlength : b.instances.length = b.buffer.chunks.size := by
    rw [instances, List.length_map, List.length_zip, Array.length_toList, Array.length_toList,
      hb.leased, Nat.min_self]
  rw [← hlength] at hp
  exact ⟨holds_empty _ hb.chunkSize, CharPool.sound_recycleAll _ hp⟩

/-- **The text is rendered** as it is now, even if it was rendered before. -/
theorem holds_render (hb : b.Holds size t) :
    b.render.1 = t ∧ b.render.2.Holds size t ∧ b.render.2.buffer = b.buffer := by
  have hcopy : b.buffer.copyRange 0 b.buffer.size = t := by
    rw [CharBuffer.copyRange_eq hb.packed, List.drop_zero, hb.packed.2, Nat.sub_zero,
      List.take_length, hb.text]
  unfold render
  cases hr : b.rendered with
  | none =>
    refine ⟨hcopy, ⟨hb.packed, hb.text, hb.chunkSize, hb.leased, ?_⟩, rfl⟩
    intro r hr
    rw [← Option.some.inj hr]
    exact hcopy
  | some r => exact ⟨hb.rendered r hr, hb, rfl⟩

end Builder

/-! ## 3. Lists of characters -/

namespace Bench

open Builder (chunksFor)
open Connection (total total_cons total_replicate total_split)

/-- The answer of a use after which the text is `t`. -/
def described (size : Nat) (t : Text) : Answer :=
  .changed t.length
    s!"CharBufferBuilder \x7b len: {t.length}, chunks: {chunksFor size t}, .. \x7d"

/-- A list of characters after a use. -/
def Use.after (t : Text) : Use → Text
  | .push c => t ++ [c]
  | .append u => t ++ u
  | .release | .renew => []
  | _ => t

/-- What a list of characters answers. -/
def Use.answer (size : Nat) (t : Text) : Use → Answer
  | .push c => described size (t ++ [c])
  | .append u => described size (t ++ u)
  | .release | .renew => described size []
  | .info => .info t.length (t.length == 0) size
  | .render => .text t
  | .get i => .char ((t[i]?).elim (.error (.indexOutOfBounds i t.length)) .ok)
  | .sub start stop => .view ((CharBuffer.slice t start stop).map .literal)
  | .copy start stop => .text ((t.drop start).take (stop - start))
  | .hash start stop => .hash ((CharBuffer.slice t start stop).map Text.hashLower)
  | .eqFold start stop u => .truth ((CharBuffer.slice t start stop).map (Text.eqFold · u))

/-- A use that is allowed: only a valid range is copied. -/
def Use.Valid (t : Text) : Use → Prop
  | .copy start stop => start ≤ stop ∧ stop ≤ t.length
  | _ => True

/-- An answer, with the text that a view shows in place of the view. -/
def Answer.shown : Answer → Answer
  | .view v => .view (v.map fun v => .literal v.toText)
  | a => a

/-- **Uses of lists of characters**, one after the other: the lists before, the uses, what is
    answered, and the lists after. -/
inductive Script (size : Nat) : List Text → List (Nat × Use) → List Answer → List Text → Prop where
  | done (texts : List Text) : Script size texts [] [] texts
  | use {texts texts' : List Text} {i : Nat} {t : Text} {u : Use} {uses : List (Nat × Use)}
      {answers : List Answer} (found : texts[i]? = some t) (valid : u.Valid t)
      (rest : Script size (texts.set i (u.after t)) uses answers texts') :
      Script size texts ((i, u) :: uses) (u.answer size t :: answers) texts'

/-- Uses of builders, one after the other: all answers, and the bench after them. -/
def run (s : Bench) : List (Nat × Use) → Option (List Answer × Bench)
  | [] => some ([], s)
  | (i, u) :: uses =>
    match s.step i u with
    | none => none
    | some (a, s) => (s.run uses).map fun r => (a :: r.1, r.2)

variable {size others capacity n : Nat} {pool : CharPool} {b : Builder} {t : Text}

/-- A builder that holds a text, described. -/
theorem changed_eq (hb : b.Holds size t) : changed b = described size t := by
  unfold changed described Builder.summary
  rw [hb.size_eq, hb.chunks_eq]

/-- **One use of one builder** is that use of its text. -/
theorem apply_eq (place : Nat → UInt64) (hb : b.Holds size t)
    (hp : CharPool.Sound size (others + b.buffer.chunks.size) pool) (u : Use) (hvalid : u.Valid t) :
    let r := apply place pool b u
    r.1.Holds size (u.after t) ∧ CharPool.Sound size (others + r.1.buffer.chunks.size) r.2.1 ∧
      r.2.2.shown = u.answer size t := by
  cases u with
  | push c =>
    obtain ⟨hb', hp'⟩ := Builder.holds_push place hb hp c
    exact ⟨hb', hp', changed_eq hb'⟩
  | append u =>
    obtain ⟨hb', hp'⟩ := Builder.holds_append place hb hp u
    exact ⟨hb', hp', changed_eq hb'⟩
  | release =>
    obtain ⟨hb', hp'⟩ := Builder.holds_release hb hp
    exact ⟨hb', hp', changed_eq hb'⟩
  | renew =>
    obtain ⟨hb', hp'⟩ := Builder.holds_release hb hp
    exact ⟨hb', hp', changed_eq hb'⟩
  | info =>
    refine ⟨hb, hp, ?_⟩
    show Answer.info b.buffer.size (b.buffer.size == 0) b.buffer.chunkSize = _
    rw [hb.size_eq, hb.chunkSize]
    rfl
  | render =>
    obtain ⟨htext, hb', hbuffer⟩ := Builder.holds_render hb
    refine ⟨hb', ?_, congrArg Answer.text htext⟩
    show CharPool.Sound size (others + b.render.2.buffer.chunks.size) pool
    rw [hbuffer]
    exact hp
  | get i =>
    refine ⟨hb, hp, ?_⟩
    show Answer.char (b.buffer.get i) = _
    rw [CharBuffer.get_eq hb.packed, hb.text]
    rfl
  | sub start stop =>
    refine ⟨hb, hp, ?_⟩
    show Answer.view ((b.buffer.sub start stop).map fun v => .literal v.toText) = _
    rw [CharBuffer.map_sub hb.packed, hb.text]
    rfl
  | copy start stop =>
    refine ⟨hb, hp, ?_⟩
    show Answer.text (b.buffer.copyRange start stop) = _
    rw [CharBuffer.copyRange_eq hb.packed, hb.text]
    rfl
  | hash start stop =>
    refine ⟨hb, hp, ?_⟩
    show Answer.hash ((b.buffer.sub start stop).map fun v => Text.hashLower v.toText) = _
    rw [CharBuffer.map_sub hb.packed, hb.text]
    rfl
  | eqFold start stop u =>
    refine ⟨hb, hp, ?_⟩
    show Answer.truth ((b.buffer.sub start stop).map fun v => Text.eqFold v.toText u) = _
    rw [CharBuffer.map_sub hb.packed (Text.eqFold · u), hb.text]
    rfl

/-! ## 4. Several builders -/

/-- Builders over one pool whose texts are these. All chunks that are lent are in builders. -/
structure Shows (size : Nat) (s : Bench) (texts : List Text) : Prop where
  holds : List.Forall₂ (Builder.Holds size) s.builders.toList texts
  pool : CharPool.Sound size (total (·.buffer.chunks.size) s.builders.toList) s.pool

theorem forall₂_set {α β : Type} {r : α → β → Prop} {l : List α} {m : List β} {x : α} {y : β}
    (h : List.Forall₂ r l m) (hxy : r x y) (i : Nat) : List.Forall₂ r (l.set i x) (m.set i y) := by
  induction h generalizing i with
  | nil => exact .nil
  | cons hab _ ih =>
    cases i with
    | zero => exact .cons hxy ‹_›
    | succ i => exact .cons hab (ih i)

/-- **One use** of a builder is that use of its text, and no other text changes. -/
theorem shows_step {s : Bench} {texts : List Text} {i : Nat} (h : s.Shows size texts)
    (ht : texts[i]? = some t) (u : Use) (hvalid : u.Valid t) :
    ∃ a s', s.step i u = some (a, s') ∧ a.shown = u.answer size t ∧
      s'.Shows size (texts.set i (u.after t)) := by
  obtain ⟨hlt, rfl⟩ := List.getElem?_eq_some_iff.mp ht
  have hlt' : i < s.builders.toList.length := h.holds.length_eq ▸ hlt
  have hb := h.holds.get hlt' hlt
  have hi : s.builders.toList[i]? = some s.builders.toList[i] := List.getElem?_eq_getElem hlt'
  obtain ⟨others, hpool, hset⟩ := total_split (f := (·.buffer.chunks.size)) hi
  have hp := h.pool
  rw [hpool] at hp
  obtain ⟨hb', hp', hanswer⟩ := apply_eq s.place hb hp u hvalid
  rw [step, ← Array.getElem?_toList, hi]
  refine ⟨_, _, rfl, hanswer, ?_, ?_⟩ <;> dsimp only <;> rw [Array.toList_setIfInBounds]
  · exact forall₂_set h.holds hb' i
  · rw [hset]
    exact hp'

/-- **Builders answer like lists of characters**, use by use. -/
theorem shows_run {s : Bench} {texts texts' : List Text} {uses : List (Nat × Use)}
    {answers : List Answer} (h : s.Shows size texts)
    (hscript : Script size texts uses answers texts') :
    ∃ given s', s.run uses = some (given, s') ∧ given.map Answer.shown = answers ∧
      s'.Shows size texts' := by
  induction hscript generalizing s with
  | done texts => exact ⟨[], s, rfl, rfl, h⟩
  | use found valid _ ih =>
    obtain ⟨a, s₁, hstep, ha, h₁⟩ := shows_step h found _ valid
    obtain ⟨given, s', hrun, hgiven, h'⟩ := ih h₁
    refine ⟨a :: given, s', ?_, ?_, h'⟩
    · rw [run, hstep]
      dsimp only
      rw [hrun]
      rfl
    · rw [List.map_cons, ha, hgiven]

theorem shows_ofPool (hsize : 0 < size) (hpool : Pool.ofCapacity capacity (.chunks size) = .ok pool)
    (place : Nat → UInt64) (n : Nat) :
    (ofPool place pool n size hsize).Shows size (List.replicate n []) := by
  have hempty := Builder.holds_empty hsize rfl
  have hholds : List.Forall₂ (Builder.Holds size) (List.replicate n (.empty size hsize))
      (List.replicate n []) := by
    induction n with
    | zero => exact .nil
    | succ n ih => exact .cons hempty ih
  refine ⟨?_, ?_⟩ <;> rw [ofPool, Array.toList_replicate]
  · exact hholds
  · rw [total_replicate]
    exact CharPool.sound_ofCapacity hpool

/-- The chunks that are lent are those the texts need. -/
theorem total_chunks {l : List Builder} {texts : List Text}
    (h : List.Forall₂ (Builder.Holds size) l texts) :
    total (·.buffer.chunks.size) l = total (chunksFor size) texts := by
  induction h with
  | nil => rfl
  | cons hb _ ih => rw [total_cons, total_cons, hb.chunks_eq, ih]

/-- **Builders over one pool are lists of characters**, whatever the capacity of the pool and the
    addresses of its chunks, however many builders there are, and however their uses interleave.
    They answer what the lists answer, each of them refines its list, and the chunks that are neither
    idle nor destroyed are those the lists need. -/
theorem run_of_script (hsize : 0 < size)
    (hpool : Pool.ofCapacity capacity (.chunks size) = .ok pool) (place : Nat → UInt64)
    {uses : List (Nat × Use)} {answers : List Answer} {texts : List Text}
    (hscript : Script size (List.replicate n []) uses answers texts) :
    ∃ given s, (ofPool place pool n size hsize).run uses = some (given, s) ∧
      given.map Answer.shown = answers ∧ List.Forall₂ (Builder.Refines size) s.builders.toList texts ∧
      s.pool.tally.produced =
        total (chunksFor size) texts + s.pool.idle.length + s.pool.tally.destroyed := by
  obtain ⟨given, s, hrun, hgiven, hs⟩ := shows_run (shows_ofPool hsize hpool place n) hscript
  refine ⟨given, s, hrun, hgiven, hs.holds.imp fun _ _ => Builder.refines_of_holds, ?_⟩
  rw [← total_chunks hs.holds]
  exact hs.pool.balance

/-- A builder is rendered, written to and released, and its chunks go to another one. -/
def errands : List (Nat × Use) :=
  [(0, .append ['G', 'E', 'T']), (0, .render), (0, .push '!'), (0, .render), (0, .get 4),
    (0, .release), (1, .append ['a', 'b', 'c']), (1, .copy 1 3), (1, .sub 2 1), (0, .render)]

/-- A pool for one chunk, of two characters. -/
def small : CharPool := ⟨.chunks 2, .empty ⟨1, 4, 30⟩, ⟨0, 0, 0⟩⟩

theorem run_errands : Pool.ofCapacity 1 (.chunks 2) = .ok small ∧
    ∃ answers, Script 2 (List.replicate 2 []) errands answers [[], ['a', 'b', 'c']] ∧
      ∃ given s, (ofPool (16 * UInt64.ofNat ·) small 2 2 Nat.two_pos).run errands = some (given, s) ∧
        given.map Answer.shown = answers ∧
        List.Forall₂ (Builder.Refines 2) s.builders.toList [[], ['a', 'b', 'c']] ∧
        s.pool.tally.produced = 2 + s.pool.idle.length + s.pool.tally.destroyed := by
  have hsmall : Pool.ofCapacity 1 (.chunks 2) = .ok small := rfl
  have hscript : Script 2 (List.replicate 2 []) errands _ [[], ['a', 'b', 'c']] :=
    .use rfl trivial <| .use rfl trivial <| .use rfl trivial <| .use rfl trivial <|
      .use rfl trivial <| .use rfl trivial <| .use rfl trivial <|
      .use rfl ⟨by decide, by decide⟩ <| .use rfl trivial <| .use rfl trivial <| .done _
  exact ⟨hsmall, _, hscript, run_of_script Nat.two_pos hsmall _ hscript⟩

end Bench

end Sluice
