/-
  File:      Sluice/Proofs/Head/StatusLine.lean
  Subject:   The heads of responses are read by their status lines and header lines.

  * `readDigits_eq`, `readStatus_eq`, **`StatusLine.readsStart`**: status lines are read as the parts
    that they show;
  * `ofText_status`: a status line that is written with one space between its parts;
  * `Response.ShowsLine`: a response shows these parts of a status line;
  * **`Response.read?_of_line`**: a response behind a status line is read with the headers that its
    lines show, or is at fault where they are.
-/
import Sluice.Proofs.Head.Reading
import Sluice.Proofs.Head.Rendering
import Sluice.Proofs.Text.Digits

namespace Sluice.Http

open Sluice.Wire

/-! ## 1. Status lines -/

/-- **Digits** are read up to the first space; three at most, and nothing else. -/
theorem readDigits_eq (count status pos : Nat) (t : Text) (hcount : count ≤ 3) :
    if count + (t.takeWhile (· != ' ')).length ≤ 3 ∧
        (t.takeWhile (· != ' ')).all Char.isDigit = true then
      readDigits count status pos t =
        .ok (count + (t.takeWhile (· != ' ')).length,
          (t.takeWhile (· != ' ')).foldl (fun v c => v * 10 + (Radix.digit? 10 c).getD 0) status,
          ⟨pos + (t.takeWhile (· != ' ')).length, t.dropWhile (· != ' ')⟩)
    else ∃ fault, readDigits count status pos t = .error (.statusCode fault) := by
  induction t generalizing count status pos with
  | nil =>
    rw [if_pos ⟨hcount, rfl⟩]
    rfl
  | cons c t ih =>
    by_cases hspace : c = ' '
    · subst hspace
      have hstop : ¬ (' ' != ' ') = true := by decide
      rw [List.takeWhile_cons_of_neg (p := (· != ' ')) hstop,
        List.dropWhile_cons_of_neg (p := (· != ' ')) hstop,
        if_pos ⟨hcount, rfl⟩, readDigits, if_pos rfl]
      rfl
    · have hpass : (c != ' ') = true := bne_iff_ne.mpr hspace
      rw [List.takeWhile_cons_of_pos (p := (· != ' ')) hpass,
        List.dropWhile_cons_of_pos (p := (· != ' ')) hpass, readDigits, if_neg hspace,
        List.length_cons, List.foldl_cons]
      by_cases hdigit : c.isDigit = true
      · have hvalue := Radix.digit?_of_isDigit hdigit
        rw [hvalue]
        dsimp only
        by_cases hroom : count < 3
        · rw [if_pos hroom]
          have hlater := ih (count + 1) (status * 10 + (c.toNat - 48)) (pos + 1) hroom
          rw [Nat.add_right_comm, Nat.add_assoc count, Nat.add_right_comm pos, Nat.add_assoc pos]
            at hlater
          rw [List.all_cons, hdigit, Bool.true_and]
          exact hlater
        · rw [if_neg hroom, if_neg (by omega)]
          exact ⟨_, rfl⟩
      · have hnone : Radix.digit? 10 c = none := by
          cases hd : Radix.digit? 10 c with
          | none => rfl
          | some d => exact absurd (Radix.isDigit_of_digit? hd) hdigit
        rw [hnone, if_neg fun h => hdigit (List.all_eq_true.mp h.2 c List.mem_cons_self)]
        exact ⟨_, rfl⟩

/-- A status line says its parts. -/
structure StatusLine.Says (s : StatusLine) (line version code reason : Text) : Prop where
  version_text : s.version.text line = version
  version_within : s.version.Within line
  status_eq : s.status = Radix.value 10 code
  reason_text : s.statusText.text line = reason
  reason_within : s.statusText.Within line

/-- What a status line shows is in its words. -/
theorem statusLineShown_eq (line : Text) :
    statusLineShown line =
      if firstWord line = [] then .error (.head .requestLine)
      else if 0 < (firstWord (afterWord line)).length ∧ (firstWord (afterWord line)).length ≤ 3 ∧
          (firstWord (afterWord line)).all Char.isDigit = true then
        .ok (firstWord line, firstWord (afterWord line),
          (afterWord (afterWord line)).dropWhile (· == ' '))
      else .error .statusCode := by
  unfold statusLineShown
  dsimp only
  rw [Cursor.drop_length_takeWhile, Cursor.drop_length_takeWhile]
  rfl

/-- **A status code** is the next word, if that is one to three digits. -/
theorem readStatus_eq {t : Text} {c : Cursor} (h : c.At t) :
    if 0 < (firstWord c.rest).length ∧ (firstWord c.rest).length ≤ 3 ∧
        (firstWord c.rest).all Char.isDigit = true then
      ∃ after, readStatus c = .ok (Radix.value 10 (firstWord c.rest), after) ∧ after.At t ∧
        after.rest = afterWord c.rest
    else ∃ fault, readStatus c = .error (.statusCode fault) := by
  obtain ⟨hskip, hrest⟩ := h.skipSpaces
  have hread := readDigits_eq 0 0 c.skipSpaces.pos c.skipSpaces.rest (Nat.zero_le 3)
  obtain ⟨-, -, hat, hafter⟩ := hskip.takeWhile (· != ' ')
  have hword : c.skipSpaces.rest.takeWhile (· != ' ') = firstWord c.rest := by
    rw [hrest]
    rfl
  rw [hrest] at hafter
  unfold readStatus
  dsimp only
  rw [Nat.zero_add, hword] at hread
  unfold Cursor.takeWhile at hat hafter
  dsimp only at hat hafter
  rw [hword] at hat
  by_cases hdigits : (firstWord c.rest).length ≤ 3 ∧ (firstWord c.rest).all Char.isDigit = true
  · rw [if_pos hdigits] at hread
    rw [hread]
    dsimp only
    by_cases hpos : 0 < (firstWord c.rest).length
    · rw [if_pos ⟨hpos, hdigits⟩, if_pos hpos]
      exact ⟨_, rfl, hat, hafter⟩
    · rw [if_neg (fun h => hpos h.1), if_neg hpos]
      exact ⟨_, rfl⟩
  · rw [if_neg hdigits] at hread
    obtain ⟨fault, hfault⟩ := hread
    rw [if_neg (fun h => hdigits h.2), hfault]
    exact ⟨fault, rfl⟩

/-- **A line is a status line exactly when its second word is a code**, and its parts are those that it
    shows. -/
theorem StatusLine.ofText_eq (line : Text) :
    match statusLineShown line with
    | .error f => ∃ e, StatusLine.ofText line = .error e ∧ e.responseFault? = some f
    | .ok (version, code, reason) =>
      ∃ s, StatusLine.ofText line = .ok s ∧ s.Says line version code reason := by
  have hstart : Cursor.At line ⟨0, line⟩ := ⟨Nat.zero_le _, rfl⟩
  have hversion := readVersion_eq hstart
  rw [statusLineShown_eq]
  by_cases hfirst : firstWord line = []
  · rw [if_pos hfirst] at hversion ⊢
    have hparsed : StatusLine.ofText line = .error (.startLine .missingVersion) := by
      unfold StatusLine.ofText
      rw [hversion]
      rfl
    exact ⟨_, hparsed, rfl⟩
  · rw [if_neg hfirst] at hversion ⊢
    obtain ⟨ref, c, hread, htext, hwithin, hat, hrest⟩ := hversion
    have hstatus := readStatus_eq hat
    rw [hrest] at hstatus
    by_cases hcode : 0 < (firstWord (afterWord line)).length ∧
        (firstWord (afterWord line)).length ≤ 3 ∧
        (firstWord (afterWord line)).all Char.isDigit = true
    · rw [if_pos hcode] at hstatus ⊢
      obtain ⟨after, hcodeRead, hafter, hbehind⟩ := hstatus
      obtain ⟨hlast, hleft⟩ := hafter.skipSpaces
      rw [hbehind] at hleft
      have hlength := hlast.length
      have hspan := hlast.text after.skipSpaces.rest.length
      rw [List.take_length] at hspan
      have hparsed : StatusLine.ofText line =
          .ok ⟨ref, Radix.value 10 (firstWord (afterWord line)),
            .span ⟨after.skipSpaces.pos, after.skipSpaces.pos + after.skipSpaces.rest.length⟩⟩ := by
        unfold StatusLine.ofText
        simp only [bind, Except.bind, hread, hcodeRead]
      rw [hleft] at hparsed hspan hlength
      exact ⟨_, hparsed, htext, hwithin, rfl, hspan, Nat.le_of_eq hlength⟩
    · rw [if_neg hcode] at hstatus ⊢
      obtain ⟨fault, hfault⟩ := hstatus
      have hparsed : StatusLine.ofText line = .error (.statusCode fault) := by
        unfold StatusLine.ofText
        simp only [bind, Except.bind, hread, hfault]
      exact ⟨_, hparsed, rfl⟩

/-- **Status lines** are read as the parts that they show. -/
theorem StatusLine.readsStart :
    ReadsStart MessageError.responseFault? .head StatusLine.ofText statusLineShown
      fun s line parts => s.Says line parts.1 parts.2.1 parts.2.2 where
  head e f h := by
    unfold MessageError.responseFault?
    split
    · cases h
    · rw [h]
      rfl
  fault t f h := by
    have hline := StatusLine.ofText_eq t
    rwa [h] at hline
  line t a h := by
    have hline := StatusLine.ofText_eq t
    rwa [h] at hline

/-- The first word of a text that begins with it. -/
theorem firstWord_append {w : Text} (hw : w ≠ []) (hmem : ' ' ∉ w) (t : Text) :
    firstWord (w ++ ' ' :: t) = w ∧ afterWord (w ++ ' ' :: t) = ' ' :: t := by
  have hall : ∀ c ∈ w, (c != ' ') = true := by
    intro c hc
    have hne : c ≠ ' ' := fun h => hmem (h ▸ hc)
    simpa using hne
  have hstart : (w ++ ' ' :: t).dropWhile (· == ' ') = w ++ ' ' :: t := by
    obtain ⟨c, w, rfl⟩ := List.exists_cons_of_ne_nil hw
    have hc := hall c List.mem_cons_self
    rw [List.cons_append, List.dropWhile_cons_of_neg (by simpa using hc)]
  have hspace : ∀ c ∈ (' ' :: t).head?, (c != ' ') = false := by
    rintro c ⟨⟩
    rfl
  rw [firstWord, afterWord, hstart]
  exact ⟨takeWhile_append_of_all hall hspace, dropWhile_append_of_all hall hspace⟩

/-- One space in front. -/
theorem dropWhile_space {t : Text} (h : t.head? ≠ some ' ') :
    (' ' :: t).dropWhile (· == ' ') = t := by
  have hspace : ∀ c ∈ [' '], (c == ' ') = true := by
    intro c hc
    rw [List.mem_singleton.mp hc]
    rfl
  refine dropWhile_append_of_all hspace ?_
  intro c hc
  rw [beq_eq_false_iff_ne]
  rintro rfl
  exact h hc

theorem firstWord_space (t : Text) : firstWord (' ' :: t) = firstWord t := rfl

theorem afterWord_space (t : Text) : afterWord (' ' :: t) = afterWord t := rfl

section Line

variable {version code reason : Text}

/-- A status line, one space between its parts. -/
def statusText (version code reason : Text) : Text := version ++ ' ' :: (code ++ ' ' :: reason)

/-- A status line that is written with one space between its parts shows them. -/
theorem statusLineShown_statusText (hversion : version ≠ [] ∧ ' ' ∉ version)
    (hcode : code ≠ []) (hdigits : ∀ c ∈ code, c.isDigit = true) (hlen : code.length ≤ 3)
    (hreason : reason.head? ≠ some ' ') :
    statusLineShown (statusText version code reason) = .ok (version, code, reason) := by
  obtain ⟨hfirst, hafter⟩ := firstWord_append hversion.1 hversion.2 (code ++ ' ' :: reason)
  change firstWord (statusText version code reason) = _ at hfirst
  change afterWord (statusText version code reason) = _ at hafter
  have hspace : ' ' ∉ code := fun h => absurd (hdigits ' ' h) (by decide)
  obtain ⟨hsecond, hbehind⟩ := firstWord_append hcode hspace reason
  rw [statusLineShown_eq, hfirst, hafter, firstWord_space, afterWord_space, hsecond, hbehind,
    dropWhile_space hreason, if_neg hversion.1,
    if_pos ⟨List.length_pos_iff.mpr hcode, hlen, List.all_eq_true.mpr hdigits⟩]

/-- **A status line** is read as its version, its code of at most three digits and its reason. -/
theorem ofText_status (version code reason : Text) (hversion : version ≠ [] ∧ ' ' ∉ version)
    (hcode : code ≠ []) (hdigits : ∀ c ∈ code, c.isDigit = true) (hlen : code.length ≤ 3)
    (hreason : reason.head? ≠ some ' ') :
    ∃ s, StatusLine.ofText (statusText version code reason) = .ok s ∧
      s.Says (statusText version code reason) version code reason :=
  StatusLine.readsStart.line _ _ (statusLineShown_statusText hversion hcode hdigits hlen hreason)

end Line

/-! ## 2. Heads of responses -/

/-- A response shows these parts of a status line. -/
structure Response.ShowsLine (r : Response) (version code reason : Text) : Prop where
  version : r.version.toText = version
  status : r.status = Radix.value 10 code
  statusText : r.statusText.toText = reason

/-- A head behind a status line makes a response that shows its parts. -/
theorem HeadSays.showsLine {head : Head StatusLine} {parts : Text × Text × Text}
    {headers : List (Text × Text)}
    (h : HeadSays (fun s line parts => s.Says line parts.1 parts.2.1 parts.2.2) head parts headers) :
    (Response.ofHead head).ShowsLine parts.1 parts.2.1 parts.2.2 := by
  obtain ⟨⟨t, more, hbuffer, hline⟩, hheaders⟩ := h
  have hpart : ∀ {ref : TextRef} {part : Text}, ref.text t = part → ref.Within t →
      (ref.view head.buffer).toText = part := by
    intro ref part hpart hwithin
    rw [TextRef.toText_view hheaders.packed, hbuffer, TextRef.text_append hwithin, hpart]
  exact ⟨hpart hline.version_text hline.version_within, hline.status_eq,
    hpart hline.reason_text hline.reason_within⟩

section Reading

variable {source : Source} {line next : List UInt8} {pieces : List (List UInt8)} {t : Text}
  {parsed : StatusLine}

/-- **A response** is read with the parts of its status line and the headers that the lines behind it
    show; what is behind them is left. -/
theorem Response.read?_of_line (store : Store)
    (hpieces : source.bytes.splitOn 10 = line :: next :: pieces)
    (hblank : ¬ (line = [] ∨ line = [13])) (hl : lineShown 8192 line = .ok t)
    (hp : StatusLine.ofText t = .ok parsed) {version code reason : Text}
    (h : parsed.Says t version code reason) :
    match headersShown source.failure 0 (next :: pieces) with
    | .error f => ∃ e, (Response.read? store source).1 = .error e ∧ e.headFault? = some f
    | .ok (headers, left) => ∃ r, (Response.read? store source).1 = .ok (some r) ∧
      r.ShowsLine version code reason ∧ Headers.Shows r.headers headers ∧
      (Response.read? store source).2.bytes = [10].intercalate left ∧
      (Response.read? store source).2.failure = source.failure := by
  have hfresh := CharBuffer.packed_empty store.chunkSize store.chunkSize_pos
  have hheaders := readPieces_line store source.failure #[] next pieces hfresh rfl hblank
    (lineText_of_shown hl) hp
  have hreads := Head.reads_pieces StatusLine.ofText store source
  rw [hpieces] at hreads
  unfold Response.read?
  generalize Head.read? StatusLine.ofText store source = out at hreads
  cases hshown : headersShown source.failure 0 (next :: pieces) with
  | error f =>
    rw [hshown] at hheaders
    obtain ⟨e, he, hfault⟩ := hheaders
    rw [he] at hreads
    refine ⟨e, ?_, hfault⟩
    show out.1.map _ = _
    rw [show out.1 = _ from hreads]
    rfl
  | ok r =>
    obtain ⟨headers, left⟩ := r
    rw [hshown] at hheaders
    obtain ⟨table, buffer, hr, hshows, more, hmore⟩ := hheaders
    rw [hr] at hreads
    have hsays : HeadSays (fun s line parts => s.Says line parts.1 parts.2.1 parts.2.2)
        ⟨parsed, table, buffer⟩ (version, code, reason) headers := ⟨⟨t, more, hmore, h⟩, hshows⟩
    refine ⟨.ofHead ⟨parsed, table, buffer⟩, ?_, hsays.showsLine, hshows, hreads.2⟩
    show out.1.map _ = _
    rw [hreads.1]
    rfl

end Reading

end Sluice.Http
