/-
  File:      Sluice/Proofs/Head/Lines.lean
  Subject:   A head is read from the bytes of a stream, not from its segments.

  * `splitLine_eq_some`, `splitLine_eq_none`: the next line among some bytes;
  * `feedLine_line`, `feedLine_more`: what is at hand, behind what is gathered of a line;
  * `readPieces`: a head read from the pieces between the line feeds;
  * `readBytes_feed`: what a step of the machine leaves to read;
  * **`read_headFeeder`**: a head fed from a stream is the head of the pieces of all its bytes.
-/
import Sluice.Http.Message
import Sluice.Proofs.Feeding

namespace Sluice.Http

open Sluice.Wire

/-! ## 1. One line -/

section Lines

variable {bytes line : List UInt8} {limit : Nat} {gathered : Array UInt8}

theorem splitLine_eq_some (h : splitLine bytes = some line) :
    ∃ rest, bytes = line ++ 10 :: rest ∧ (10 : UInt8) ∉ line := by
  induction bytes generalizing line with
  | nil => cases h
  | cons b bs ih =>
    rw [splitLine] at h
    by_cases hb : b = 10
    · rw [if_pos hb] at h
      cases h
      exact ⟨bs, by rw [hb]; rfl, List.not_mem_nil⟩
    · rw [if_neg hb] at h
      obtain ⟨tail, htail, rfl⟩ := Option.map_eq_some_iff.mp h
      obtain ⟨rest, rfl, hmem⟩ := ih htail
      refine ⟨rest, rfl, ?_⟩
      rw [List.mem_cons, not_or]
      exact ⟨Ne.symm hb, hmem⟩

theorem splitLine_eq_none (h : splitLine bytes = none) : (10 : UInt8) ∉ bytes := by
  induction bytes with
  | nil => exact List.not_mem_nil
  | cons b bs ih =>
    rw [splitLine] at h
    by_cases hb : b = 10
    · rw [if_pos hb] at h
      cases h
    · rw [if_neg hb, Option.map_eq_none_iff] at h
      rw [List.mem_cons, not_or]
      exact ⟨Ne.symm hb, ih h⟩

theorem length_dropReturn_ge (line : List UInt8) : line.length ≤ (dropReturn line).length + 1 := by
  rw [dropReturn]
  split
  · rw [List.length_dropLast]
    omega
  · exact Nat.le_succ _

/-- One byte beyond the limit may be the carriage return, two are too many. -/
theorem lineText_of_long (h : limit + 1 < line.length) :
    lineText limit line = .error (.lineTooLong limit) := by
  have := length_dropReturn_ge line
  rw [lineText, if_pos (by omega)]

/-- **A line that ends at hand** is read with what is gathered of it. -/
theorem feedLine_line (h : splitLine bytes = some line) :
    feedLine limit gathered bytes =
      match lineText limit (gathered.toList ++ line) with
      | .ok t => .line t (line.length + 1)
      | .error e => .fault e := by
  rw [feedLine, h]
  dsimp only
  by_cases hg : gathered.isEmpty = true
  · have : gathered = #[] := by simpa using hg
    subst this
    rfl
  · rw [if_neg hg]
    by_cases hlong : limit + 1 < gathered.size + line.length
    · rw [if_pos hlong, lineText_of_long (by simpa using hlong)]
    · exact if_neg hlong

theorem feedLine_more (h : splitLine bytes = none) :
    feedLine limit gathered bytes =
      if limit + 1 < gathered.size + bytes.length then .fault (.lineTooLong limit)
      else .more (gathered ++ bytes) bytes.length := by
  rw [feedLine, h]

end Lines

/-! ## 2. Heads -/

section Heads

variable {β : Type} (startLine : Text → Except MessageError β) (store : Store)
  (failure : Option Failure)

/-- What is left when the last line feed is behind: too much of a line, or the end of the input. -/
def HeadState.finish (s : HeadState β) (tail : List UInt8) :
    Except MessageError (Option (Head β)) :=
  if s.limit + 1 < tail.length then .error (.lineTooLong s.limit)
  else
    match failure with
    | some f => .error (.transport f)
    | none => HeadState.atEnd { s with gathered := tail.toArray }

/-- A head read from the pieces between the line feeds, the last of which is no line: the head, and
    the pieces behind it. -/
def HeadState.readPieces (s : HeadState β) :
    List (List UInt8) → Except MessageError (Option (Head β × List (List UInt8)))
  | [] => (s.finish failure []).map (·.map (·, []))
  | [tail] => (s.finish failure tail).map (·.map (·, []))
  | line :: next :: pieces =>
    match lineText s.limit line with
    | .error e => .error e
    | .ok t =>
      match (s.addLine startLine store t).2 with
      | .more => (s.addLine startLine store t).1.readPieces (next :: pieces)
      | .done r => .ok (r.map (·, next :: pieces))
      | .fault e => .error e

variable {startLine store failure}

/-- What a line makes of a head has nothing to do with what was gathered before. -/
theorem gathered_addLine (startLine : Text → Except MessageError β) (store : Store)
    (s : HeadState β) (t : Text) : (s.addLine startLine store t).1.gathered = #[] := by
  unfold HeadState.addLine
  cases s.phase with
  | start =>
    dsimp only
    split
    · rfl
    · split <;> rfl
  | headers parsed table =>
    dsimp only
    split
    · rfl
    · rfl
    · split <;> rfl

/-- A line that ends a head gives the head. -/
theorem isSome_of_addLine {s : HeadState β} {t : Text} {r : Option (Head β)}
    (h : (s.addLine startLine store t).2 = .done r) : r.isSome = true := by
  unfold HeadState.addLine at h
  cases hp : s.phase with
  | start =>
    rw [hp] at h
    dsimp only at h
    split at h
    · cases h
    · split at h <;> cases h
  | headers parsed table =>
    rw [hp] at h
    dsimp only at h
    split at h
    · cases h
    · cases h
      rfl
    · split at h <;> cases h

/-- A stream over a flat list of bytes ends like this. -/
def HeadState.Reads (source : Source)
    (flat : Except MessageError (Option (Head β × List (List UInt8))))
    (r : Except MessageError (Option (Head β)) × Source) : Prop :=
  match flat with
  | .error e => r.1 = .error e
  | .ok none => r.1 = .ok none ∧ r.2.bytes = []
  | .ok (some (head, left)) =>
    r.1 = .ok (some head) ∧ r.2.bytes = [10].intercalate left ∧ r.2.failure = source.failure

theorem HeadState.Reads.of_failure {source source' : Source}
    {flat : Except MessageError (Option (Head β × List (List UInt8)))}
    {r : Except MessageError (Option (Head β)) × Source} (h : HeadState.Reads source flat r)
    (hf : source.failure = source'.failure) : HeadState.Reads source' flat r := by
  unfold HeadState.Reads at h ⊢
  rwa [hf] at h

/-- The pieces of a string that holds a line. -/
theorem splitOn_line {line : List UInt8} (rest : List UInt8) (h : (10 : UInt8) ∉ line) :
    ∃ next pieces, rest.splitOn 10 = next :: pieces ∧
      (line ++ 10 :: rest).splitOn 10 = line :: next :: pieces := by
  obtain ⟨next, pieces, hp⟩ := List.exists_cons_of_ne_nil (List.splitOn_ne_nil 10 rest)
  exact ⟨next, pieces, hp, by rw [List.splitOn_append_cons_self_of_not_mem h, hp]⟩

/-- A machine that has gathered too much of a line reads no head. -/
theorem readPieces_of_long (s : HeadState β) {long rest : List UInt8} (h : (10 : UInt8) ∉ long)
    (hlong : s.limit + 1 < long.length) :
    s.readPieces startLine store failure ((long ++ rest).splitOn 10) =
      .error (.lineTooLong s.limit) := by
  cases hr : splitLine rest with
  | none =>
    have hmem : (10 : UInt8) ∉ long ++ rest := by
      rw [List.mem_append, not_or]
      exact ⟨h, splitLine_eq_none hr⟩
    have htail : s.limit + 1 < (long ++ rest).length := by
      rw [List.length_append]
      omega
    rw [List.splitOn_eq_singleton hmem, HeadState.readPieces]
    unfold HeadState.finish
    rw [if_pos htail]
    rfl
  | some line =>
    obtain ⟨later, rfl, hline⟩ := splitLine_eq_some hr
    have hmem : (10 : UInt8) ∉ long ++ line := by
      rw [List.mem_append, not_or]
      exact ⟨h, hline⟩
    obtain ⟨next, pieces, _, hp⟩ := splitOn_line later hmem
    rw [← List.append_assoc, hp, HeadState.readPieces,
      lineText_of_long (by rw [List.length_append]; omega)]

/-- The step of the machine on bytes in which the line ends. -/
theorem feed_line {s : HeadState β} {bytes line : List UInt8} (h : splitLine bytes = some line) :
    (headFeeder startLine store).feed s bytes =
      match lineText s.limit (s.gathered.toList ++ line) with
      | .ok t => ⟨(s.addLine startLine store t).1, [], line.length + 1,
          (s.addLine startLine store t).2⟩
      | .error e => ⟨s, [], 0, .fault e⟩ := by
  simp only [headFeeder, HeadState.feed, feedLine_line h]
  cases lineText s.limit (s.gathered.toList ++ line) <;> rfl

/-- The step of the machine on bytes in which the line does not end. -/
theorem feed_more {s : HeadState β} {bytes : List UInt8} (h : splitLine bytes = none) :
    (headFeeder startLine store).feed s bytes =
      if s.limit + 1 < s.gathered.size + bytes.length then
        ⟨s, [], 0, .fault (.lineTooLong s.limit)⟩
      else ⟨{ s with gathered := s.gathered ++ bytes }, [], bytes.length, .more⟩ := by
  simp only [headFeeder, HeadState.feed, feedLine_more h]
  by_cases hlong : s.limit + 1 < s.gathered.size + bytes.length
  · rw [if_pos hlong, if_pos hlong]
  · rw [if_neg hlong, if_neg hlong]

/-- What the machine gathers is a piece of one line, as far as a line may go. -/
def HeadState.Gathers (s : HeadState β) : Prop :=
  (10 : UInt8) ∉ s.gathered.toList ∧ s.gathered.size ≤ s.limit + 1

theorem gathers_fresh (store : Store) : HeadState.Gathers (.fresh store : HeadState β) :=
  ⟨List.not_mem_nil, Nat.zero_le _⟩

variable (startLine store failure) in
/-- A head read from bytes, behind those that are gathered already. -/
def HeadState.readBytes (s : HeadState β) (bytes : List UInt8) :
    Except MessageError (Option (Head β × List (List UInt8))) :=
  HeadState.readPieces startLine store failure { s with gathered := #[] }
    ((s.gathered.toList ++ bytes).splitOn 10)

variable (startLine store failure) in
/-- What is left to read behind a step: of the bytes at hand, and of those that come later. -/
def HeadState.readOn (bytes later : List UInt8) (step : Step (HeadState β) (Option (Head β))) :
    Except MessageError (Option (Head β × List (List UInt8))) :=
  match step.verdict with
  | .fault e => .error e
  | .done r => .ok (r.map (·, (bytes.drop step.consumed ++ later).splitOn 10))
  | .more => step.next.readBytes startLine store failure (bytes.drop step.consumed ++ later)

theorem readBytes_of_gathered_nil {s : HeadState β} (h : s.gathered = #[]) (bytes : List UInt8) :
    s.readBytes startLine store failure bytes =
      s.readPieces startLine store failure (bytes.splitOn 10) := by
  have hs : ({ s with gathered := #[] } : HeadState β) = s := by rw [← h]
  rw [HeadState.readBytes, hs, h]
  rfl

/-- Where the input ends, the machine has what it gathered. -/
theorem readBytes_nil {s : HeadState β} (hs : s.Gathers) :
    s.readBytes startLine store failure [] =
      match failure with
      | some f => .error (.transport f)
      | none => s.atEnd.map (·.map (·, [])) := by
  have hlen : ¬ HeadState.limit { s with gathered := #[] } + 1 < s.gathered.toList.length :=
    Nat.not_lt_of_le hs.2
  rw [HeadState.readBytes, List.append_nil, List.splitOn_eq_singleton hs.1, HeadState.readPieces]
  unfold HeadState.finish
  rw [if_neg hlen]
  cases failure <;> rfl

/-- **A step on bytes in which the line ends** reads its piece. -/
theorem readBytes_line {s : HeadState β} {bytes line : List UInt8} (later : List UInt8)
    (hs : s.Gathers) (h : splitLine bytes = some line) :
    s.readBytes startLine store failure (bytes ++ later) =
      HeadState.readOn startLine store failure bytes later
        ((headFeeder startLine store).feed s bytes) := by
  rw [feed_line h]
  obtain ⟨rest, rfl, hline⟩ := splitLine_eq_some h
  have hmem : (10 : UInt8) ∉ s.gathered.toList ++ line := by
    rw [List.mem_append, not_or]
    exact ⟨hs.1, hline⟩
  have hdrop : (line ++ 10 :: rest).drop (line.length + 1) = rest := by
    rw [List.drop_append, Nat.add_sub_cancel_left, List.drop_eq_nil_of_le (Nat.le_succ _)]
    rfl
  have hall : s.gathered.toList ++ (line ++ 10 :: rest ++ later) =
      s.gathered.toList ++ line ++ 10 :: (rest ++ later) := by
    simp only [List.append_assoc, List.cons_append]
  obtain ⟨next, pieces, hrest, hp⟩ := splitOn_line (rest ++ later) hmem
  rw [HeadState.readBytes, hall, hp, HeadState.readPieces, HeadState.readOn]
  change (match lineText s.limit (s.gathered.toList ++ line) with | .error _ => _ | .ok _ => _) = _
  cases lineText s.limit (s.gathered.toList ++ line) with
  | error e => rfl
  | ok t =>
    have hadd : HeadState.addLine startLine store { s with gathered := #[] } t =
        s.addLine startLine store t := rfl
    dsimp only
    rw [hadd, hdrop, hrest]
    cases (s.addLine startLine store t).2 with
    | more =>
      rw [readBytes_of_gathered_nil (gathered_addLine startLine store s t), hrest]
    | done r => rfl
    | fault e => rfl

/-- **A step on bytes in which the line does not end** gathers them. -/
theorem readBytes_more {s : HeadState β} {bytes : List UInt8} (later : List UInt8)
    (hs : s.Gathers) (h : splitLine bytes = none) :
    s.readBytes startLine store failure (bytes ++ later) =
      HeadState.readOn startLine store failure bytes later
        ((headFeeder startLine store).feed s bytes) := by
  rw [feed_more h]
  by_cases hlong : s.limit + 1 < s.gathered.size + bytes.length
  · rw [if_pos hlong, HeadState.readOn, HeadState.readBytes, ← List.append_assoc]
    refine readPieces_of_long { s with gathered := #[] } ?_ ?_
    · rw [List.mem_append, not_or]
      exact ⟨hs.1, splitLine_eq_none h⟩
    · rw [List.length_append]
      exact hlong
  · rw [if_neg hlong, HeadState.readOn]
    dsimp only
    rw [List.drop_length, List.nil_append, HeadState.readBytes, HeadState.readBytes,
      Array.toList_appendList, List.append_assoc]

theorem readBytes_feed {s : HeadState β} (bytes later : List UInt8) (hs : s.Gathers) :
    s.readBytes startLine store failure (bytes ++ later) =
      HeadState.readOn startLine store failure bytes later
        ((headFeeder startLine store).feed s bytes) := by
  cases h : splitLine bytes with
  | none => exact readBytes_more later hs h
  | some line => exact readBytes_line later hs h

/-- A machine that goes on gathers as before. -/
theorem gathers_feed {s : HeadState β} {bytes : List UInt8} (hs : s.Gathers)
    (hv : ((headFeeder startLine store).feed s bytes).verdict = .more) :
    ((headFeeder startLine store).feed s bytes).next.Gathers := by
  cases h : splitLine bytes with
  | some line =>
    rw [feed_line h] at hv ⊢
    cases ht : lineText s.limit (s.gathered.toList ++ line) with
    | error e =>
      rw [ht] at hv
      cases hv
    | ok t =>
      have hg := gathered_addLine startLine store s t
      unfold HeadState.Gathers
      dsimp only
      rw [hg]
      exact ⟨List.not_mem_nil, Nat.zero_le _⟩
  | none =>
    rw [feed_more h] at hv ⊢
    by_cases hlong : s.limit + 1 < s.gathered.size + bytes.length
    · rw [if_pos hlong] at hv
      cases hv
    · rw [if_neg hlong]
      refine ⟨?_, ?_⟩
      · rw [Array.toList_appendList, List.mem_append, not_or]
        exact ⟨hs.1, splitLine_eq_none h⟩
      · rw [← Array.length_toList, Array.toList_appendList, List.length_append]
        exact Nat.le_of_not_lt hlong

theorem consumed_feed_le (s : HeadState β) (bytes : List UInt8) :
    ((headFeeder startLine store).feed s bytes).consumed ≤ bytes.length := by
  cases h : splitLine bytes with
  | some line =>
    rw [feed_line h]
    obtain ⟨rest, rfl, _⟩ := splitLine_eq_some h
    cases lineText s.limit (s.gathered.toList ++ line) with
    | error e => exact Nat.zero_le _
    | ok t =>
      dsimp only
      rw [List.length_append, List.length_cons]
      omega
  | none =>
    rw [feed_more h]
    split
    · exact Nat.zero_le _
    · exact Nat.le_refl _

/-- A step that ends a head gives the head. -/
theorem isSome_of_feed {s : HeadState β} {bytes : List UInt8} {r : Option (Head β)}
    (hv : ((headFeeder startLine store).feed s bytes).verdict = .done r) : r.isSome = true := by
  cases h : splitLine bytes with
  | some line =>
    rw [feed_line h] at hv
    cases ht : lineText s.limit (s.gathered.toList ++ line) with
    | error e =>
      rw [ht] at hv
      cases hv
    | ok t =>
      rw [ht] at hv
      exact isSome_of_addLine hv
  | none =>
    rw [feed_more h] at hv
    split at hv <;> cases hv

/-- **A head fed from a stream** is the head of the pieces of all bytes of the stream, behind those
    gathered already. -/
theorem read_headFeeder (startLine : Text → Except MessageError β) (store : Store)
    {s : HeadState β} (source : Source) (hs : s.Gathers) :
    HeadState.Reads source (s.readBytes startLine store source.failure source.bytes)
      ((headFeeder startLine store).read s source) := by
  -- by the steps of the machine, each of which leaves the rest of the bytes to be read
  fun_induction Feeder.read (headFeeder startLine store) s source with
  | case1 s source e ha =>
    obtain ⟨hb, hf⟩ := Source.bytes_of_available_error ha
    rw [hb, readBytes_nil hs, hf]
    rfl
  | case2 s source ha =>
    obtain ⟨hb, hf⟩ := Source.bytes_of_available_nil ha
    rw [hb, readBytes_nil hs, hf]
    show HeadState.Reads source (s.atEnd.map (·.map (·, []))) (s.atEnd, source)
    unfold HeadState.atEnd
    split
    · rfl
    · exact ⟨rfl, hb⟩
    · rfl
  | case3 s source b bs ha step e hv =>
    obtain ⟨later, _, hb⟩ := Source.bytes_of_available ha
    rw [hb, readBytes_feed _ _ hs, HeadState.readOn,
      show ((headFeeder startLine store).feed s (b :: bs)).verdict = _ from hv]
    rfl
  | case4 s source b bs ha step r hv =>
    obtain ⟨later, _, hb⟩ := Source.bytes_of_available ha
    have hle : step.consumed ≤ (b :: bs).length := consumed_feed_le s (b :: bs)
    have hrest := Source.bytes_consume_append ha hb hle
    rw [hb, readBytes_feed _ _ hs, HeadState.readOn,
      show ((headFeeder startLine store).feed s (b :: bs)).verdict = _ from hv]
    cases r with
    | none => cases isSome_of_feed hv
    | some head =>
      refine ⟨rfl, ?_, Source.failure_consume ..⟩
      rw [hrest]
      exact (List.intercalate_splitOn _).symm
  | case5 s source b bs ha step hv ih =>
    obtain ⟨later, _, hb⟩ := Source.bytes_of_available ha
    have hle : step.consumed ≤ (b :: bs).length := consumed_feed_le s (b :: bs)
    have hrest := Source.bytes_consume_append ha hb hle
    have hlater := ih (gathers_feed hs hv)
    rw [hrest, Source.failure_consume] at hlater
    rw [hb, readBytes_feed _ _ hs, HeadState.readOn,
      show ((headFeeder startLine store).feed s (b :: bs)).verdict = _ from hv]
    exact hlater.of_failure (Source.failure_consume ..)

/-- The next head of a stream is the head of the pieces of its bytes. -/
theorem Head.reads_pieces (startLine : Text → Except MessageError β) (store : Store)
    (source : Source) :
    HeadState.Reads source
      (HeadState.readPieces startLine store source.failure
        ⟨.start, .empty store.chunkSize store.chunkSize_pos, #[]⟩ (source.bytes.splitOn 10))
      (Head.read? startLine store source) :=
  read_headFeeder startLine store source (gathers_fresh store)

/-- **Streams of the same bytes** have the same next head, whatever kind of message it is the head of;
    unless it is at fault, they have the same bytes behind it. -/
theorem Head.read?_congr {μ : Type} (message : Head β → μ)
    (startLine : Text → Except MessageError β) (store : Store) {source source' : Source}
    (hbytes : source.bytes = source'.bytes) (hfailure : source.failure = source'.failure) :
    (Head.read? startLine store source).1.map (·.map message) =
        (Head.read? startLine store source').1.map (·.map message) ∧
      ∀ o, (Head.read? startLine store source).1.map (·.map message) = .ok o →
        (Head.read? startLine store source).2.bytes =
            (Head.read? startLine store source').2.bytes ∧
          (Head.read? startLine store source).2.failure =
            (Head.read? startLine store source').2.failure := by
  have hreads := read_headFeeder startLine store source (gathers_fresh store)
  have hreads' := read_headFeeder startLine store source' (gathers_fresh store)
  have hfail := Feeder.failure_read (headFeeder startLine store) (.fresh store) source
  have hfail' := Feeder.failure_read (headFeeder startLine store) (.fresh store) source'
  rw [← hbytes, ← hfailure] at hreads'
  rw [← hfailure, ← hfail] at hfail'
  unfold Head.read?
  generalize (headFeeder startLine store).read (.fresh store) source = out at hreads hfail' ⊢
  generalize (headFeeder startLine store).read (.fresh store) source' = out' at hreads' hfail' ⊢
  generalize HeadState.readBytes _ _ _ _ _ = flat at hreads hreads'
  unfold HeadState.Reads at hreads hreads'
  cases flat with
  | error e =>
    rw [hreads, hreads']
    exact ⟨rfl, nofun⟩
  | ok o =>
    cases o with
    | none =>
      rw [hreads.1, hreads'.1]
      exact ⟨rfl, fun _ _ => ⟨hreads.2.trans hreads'.2.symm, hfail'.symm⟩⟩
    | some found =>
      rw [hreads.1, hreads'.1]
      exact ⟨rfl, fun _ _ => ⟨hreads.2.1.trans hreads'.2.1.symm, hfail'.symm⟩⟩

end Heads

section Streams

variable {source source' : Source} (store : Store) (hbytes : source.bytes = source'.bytes)
  (hfailure : source.failure = source'.failure)

include hbytes hfailure

/-- Streams of the same bytes have the same next request, and the same bytes behind it. -/
theorem Request.read?_congr :
    (Request.read? store source).1 = (Request.read? store source').1 ∧
      ∀ o, (Request.read? store source).1 = .ok o →
        (Request.read? store source).2.bytes = (Request.read? store source').2.bytes ∧
          (Request.read? store source).2.failure = (Request.read? store source').2.failure :=
  Head.read?_congr Request.ofHead RequestLine.ofText store hbytes hfailure

/-- Streams of the same bytes have the same next response, and the same bytes behind it. -/
theorem Response.read?_congr :
    (Response.read? store source).1 = (Response.read? store source').1 ∧
      ∀ o, (Response.read? store source).1 = .ok o →
        (Response.read? store source).2.bytes = (Response.read? store source').2.bytes ∧
          (Response.read? store source).2.failure = (Response.read? store source').2.failure :=
  Head.read?_congr Response.ofHead StatusLine.ofText store hbytes hfailure

end Streams

end Sluice.Http
