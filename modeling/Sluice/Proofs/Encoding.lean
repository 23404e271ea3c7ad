/-
  File:      Sluice/Proofs/Encoding.lean
  Subject:   A response cannot be split.

  * `ended`, `headEnd`: lines, each with its end, and the bytes that end a head;
  * `not_headEnd`, `length_le_of_headEnd`: whole lines hold no end of a head, and behind them an empty
    line makes the first one;
  * `Reply.headTexts`: the lines of a head, which `written_eq` says are all that stands in front of the
    body;
  * `encodeInto_eq`, `RefusedBy`: what a buffer holds behind a response, and why one is not sent;
  * **`encodeInto_unsplit`**: whatever headers it has and whatever the buffer held, a response is
    encoded to one head and its body, or it is refused before any end of a head is written, and then
    the fixed internal error is sent.
-/
import Sluice.Connection.Exchange
import Sluice.Proofs.Replies

namespace Sluice.Http.Reply

open Sluice.Connection (Exchange Ending)

/-! ## 1. Lines and the end of a head -/

/-- Lines, each with its end. -/
def ended (lines : List (List UInt8)) : List UInt8 := (lines.map (· ++ lineEnd)).flatten

/-- The end of a head: the end of its last line, and an empty line. -/
def headEnd : List UInt8 := lineEnd ++ lineEnd

/-- A line with something in it, and with neither a carriage return nor a line feed. -/
def IsWhole (line : List UInt8) : Prop := line ≠ [] ∧ 13 ∉ line ∧ 10 ∉ line

section Lines

variable {line s t u v : List UInt8} {lines : List (List UInt8)}

theorem ended_cons (line : List UInt8) (lines : List (List UInt8)) :
    ended (line :: lines) = line ++ lineEnd ++ ended lines := rfl

/-- The end of a head does not begin with a byte that is no carriage return. -/
theorem split_cons {b : UInt8} (hb : b ≠ 13) (h : b :: s = u ++ (headEnd ++ v)) :
    ∃ u', u = b :: u' ∧ s = u' ++ (headEnd ++ v) := by
  cases u with
  | nil => exact absurd (List.cons.inj h).1 hb
  | cons c u' =>
    obtain ⟨rfl, hs⟩ := List.cons.inj h
    exact ⟨u', rfl, hs⟩

/-- It does not begin in a line. -/
theorem split_append (h13 : 13 ∉ line) (h : line ++ s = u ++ (headEnd ++ v)) :
    ∃ u', u = line ++ u' ∧ s = u' ++ (headEnd ++ v) := by
  induction line generalizing u with
  | nil => exact ⟨u, rfl, h⟩
  | cons b line ih =>
    rw [List.mem_cons, not_or] at h13
    obtain ⟨w, rfl, hw⟩ := split_cons (Ne.symm h13.1) h
    obtain ⟨u', rfl, hs⟩ := ih h13.2 hw
    exact ⟨u', rfl, hs⟩

/-- **It begins right behind the line**, where an empty line follows, or behind the end of the line. -/
theorem split_line (h13 : 13 ∉ line) (h : line ++ lineEnd ++ s = u ++ (headEnd ++ v)) :
    (u = line ∧ s = lineEnd ++ v) ∨
      ∃ u', u = line ++ lineEnd ++ u' ∧ s = u' ++ (headEnd ++ v) := by
  rw [List.append_assoc] at h
  obtain ⟨w, rfl, hw⟩ := split_append h13 h
  cases w with
  | nil =>
    refine .inl ⟨List.append_nil line, ?_⟩
    rw [List.nil_append, headEnd, List.append_assoc] at hw
    exact List.append_cancel_left hw
  | cons c w =>
    obtain ⟨rfl, hfeed⟩ := List.cons.inj hw
    obtain ⟨u', rfl, hs⟩ := split_cons (by decide) hfeed
    exact .inr ⟨u', (List.append_assoc line lineEnd u').symm, hs⟩

/-- No line is empty. -/
theorem ended_ne (hline : IsWhole line) (s v : List UInt8) :
    ended (line :: lines) ++ s ≠ lineEnd ++ v := by
  obtain ⟨hne, h13, _⟩ := hline
  obtain ⟨b, rest, rfl⟩ := List.exists_cons_of_ne_nil hne
  intro h
  obtain ⟨rfl, _⟩ := List.cons.inj h
  exact h13 List.mem_cons_self

/-- **Whole lines hold no end of a head.** -/
theorem not_headEnd (h : ∀ l ∈ lines, IsWhole l) : ¬ headEnd <:+: ended lines := by
  rintro ⟨u, v, hsplit⟩
  rw [List.append_assoc] at hsplit
  induction lines generalizing u with
  | nil =>
    have hlen := congrArg List.length hsplit
    simp [ended, headEnd, lineEnd] at hlen
  | cons line lines ih =>
    obtain ⟨hline, hlines⟩ := List.forall_mem_cons.mp h
    rw [ended_cons] at hsplit
    rcases split_line hline.2.1 hsplit.symm with ⟨_, hs⟩ | ⟨u', _, hs⟩
    · cases lines with
      | nil => cases hs
      | cons next lines =>
        rw [← List.append_nil (ended (next :: lines))] at hs
        exact ended_ne (hlines next List.mem_cons_self) [] v hs
    · exact ih hlines u' hs.symm

/-- **An empty line behind whole lines** makes the first end of a head. -/
theorem length_le_of_headEnd (h : ∀ l ∈ lines, IsWhole l)
    (hsplit : ended lines ++ (lineEnd ++ t) = u ++ (headEnd ++ v)) :
    (ended lines).length ≤ u.length + lineEnd.length := by
  induction lines generalizing u with
  | nil => exact Nat.zero_le _
  | cons line lines ih =>
    obtain ⟨hline, hlines⟩ := List.forall_mem_cons.mp h
    rw [ended_cons, List.append_assoc] at hsplit
    rw [ended_cons]
    rcases split_line hline.2.1 hsplit with ⟨rfl, hs⟩ | ⟨u', rfl, hs⟩
    · cases lines with
      | nil => simp [ended]
      | cons next lines => exact absurd hs (ended_ne (hlines next List.mem_cons_self) _ _)
    · have hle := ih hlines hs
      simp only [List.length_append]
      omega

/-- Lines and an empty line end with the end of a head. -/
theorem exists_headEnd (hne : lines ≠ []) : ∃ front, ended lines ++ lineEnd = front ++ headEnd := by
  refine ⟨ended lines.dropLast ++ lines.getLast hne, ?_⟩
  conv => lhs; rw [← List.dropLast_append_getLast hne]
  simp only [ended, headEnd, List.map_append, List.flatten_append, List.map_singleton,
    List.flatten_singleton, List.append_assoc]

/-- The bytes of a text without line breaks are a line. -/
theorem isWhole_encode {t : Text} (hne : t ≠ []) (hr : '\r' ∉ t) (hn : '\n' ∉ t) :
    IsWhole (Utf8.encode t) := by
  refine ⟨?_, Utf8.not_mem_encode (by decide) hr, Utf8.not_mem_encode (by decide) hn⟩
  intro h
  have hlen := Utf8.length_le_encode t
  rw [h] at hlen
  exact hne (List.length_eq_zero_iff.mp (Nat.le_zero.mp hlen))

end Lines

/-! ## 2. Headers -/

/-- A header that can be sent: it has a name, and no line break in its name or its value. -/
def Proper (h : Text × Text) : Prop :=
  h.1 ≠ [] ∧ ('\r' ∉ h.1 ∧ '\n' ∉ h.1) ∧ '\r' ∉ h.2 ∧ '\n' ∉ h.2

/-- A name other than that of the length, whatever the case of its letters. -/
def Counts (name : Text) : Prop := name.map Char.toLower ≠ "content-length".toList

theorem isContentLength_eq_false_iff {name : Text} : isContentLength name = false ↔ Counts name := by
  have hlower : "content-length".toList.map Char.toLower = "content-length".toList := by decide
  rw [isContentLength, ← Bool.not_eq_true, Text.eqFold_iff, hlower]
  rfl

theorem forall_sent_iff {headers : List (Text × Text)} :
    (∀ h ∈ headers.filter fun h => !isContentLength h.1, headerFault? h.1 h.2 = none) ↔
      ∀ h ∈ headers, Counts h.1 → Proper h := by
  simp only [List.mem_filter, Bool.not_eq_true', isContentLength_eq_false_iff,
    headerFault?_eq_none_iff, and_imp]
  rfl

/-- What is wrong with a header that cannot be sent. -/
theorem headerFault?_eq_some {name value : Text} {f : SendHeaderFault}
    (h : headerFault? name value = some f) :
    ¬ Proper (name, value) ∧ f = if name = [] then .emptyName else .lineBreak := by
  have hproper : ¬ Proper (name, value) := fun hp => by
    rw [headerFault?_eq_none_iff.mpr hp] at h
    cases h
  refine ⟨hproper, ?_⟩
  unfold headerFault? at h
  by_cases hname : name = []
  · rw [if_pos (by rw [hname]; rfl)] at h
    rw [if_pos hname]
    exact (Option.some.inj h).symm
  · rw [if_neg (by simpa using hname)] at h
    rw [if_neg hname]
    split at h
    · exact (Option.some.inj h).symm
    · cases h

/-- **Where the lines of headers stop**: at the first header at fault. -/
theorem of_headerLines_fault {headers : List (Text × Text)} {bytes : List UInt8} {e : SendError}
    (h : headerLines headers = (bytes, some e)) :
    ∃ before name value after f, headers = before ++ (name, value) :: after ∧
      isContentLength name = false ∧ headerFault? name value = some f ∧ e = .header name f ∧
      headerLines before = (bytes, none) := by
  induction headers generalizing bytes with
  | nil => cases h
  | cons header headers ih =>
    obtain ⟨name, value⟩ := header
    by_cases hname : isContentLength name = true
    · rw [headerLines_cons_of_length headers hname] at h
      obtain ⟨before, n, v, after, f, rfl, hn, hf, he, hbefore⟩ := ih h
      refine ⟨(name, value) :: before, n, v, after, f, rfl, hn, hf, he, ?_⟩
      rw [headerLines_cons_of_length before hname, hbefore]
    · cases hfault : headerFault? name value with
      | some f =>
        rw [headerLines_cons_of_fault headers hname hfault] at h
        cases h
        exact ⟨[], name, value, headers, f, rfl, eq_false_of_ne_true hname, hfault, rfl, rfl⟩
      | none =>
        rw [headerLines_cons headers hname hfault] at h
        cases hlater : headerLines headers with
        | mk later fault =>
          rw [hlater] at h
          cases h
          obtain ⟨before, n, v, after, f, rfl, hn, hf, he, hbefore⟩ := ih hlater
          refine ⟨(name, value) :: before, n, v, after, f, rfl, hn, hf, he, ?_⟩
          rw [headerLines_cons before hname hfault, hbefore]

/-! ## 3. What is written -/

variable {r : Reply}

/-- The lines of a head: the status line, one for every header that is sent, in order, and the length
    of the body. -/
def headTexts (r : Reply) : List (List UInt8) :=
  Utf8.encode (statusShown r.status) ::
    (r.sent ++ [r.announced]).map fun h => Utf8.encode (lineOf h)

theorem headTexts_ne (r : Reply) : r.headTexts ≠ [] := List.cons_ne_nil _ _

theorem statusLine_eq (status : Nat) :
    statusLine status = Utf8.encode (statusShown status) ++ lineEnd := by
  rw [statusShown_eq]
  rfl

theorem flatten_headerLine (headers : List (Text × Text)) :
    (headers.map fun h => headerLine h.1 h.2).flatten =
      ended (headers.map fun h => Utf8.encode (lineOf h)) := by
  have hline : (fun h : Text × Text => headerLine h.1 h.2) =
      (· ++ lineEnd) ∘ fun h => Utf8.encode (lineOf h) := funext headerLine_eq
  rw [ended, List.map_map, hline]

/-- What is written of a response that is sent: its head, an empty line, and its body. -/
theorem written_eq (r : Reply) : r.written = ended r.headTexts ++ lineEnd ++ r.body := by
  rw [written, lines, flatten_headerLine, statusLine_eq, headTexts, ended_cons]
  simp only [List.append_assoc]

theorem isWhole_lineOf {h : Text × Text} (hproper : Proper h) :
    IsWhole (Utf8.encode (lineOf h)) := by
  obtain ⟨hne, ⟨hnr, hnn⟩, hvr, hvn⟩ := hproper
  refine isWhole_encode ?_ (not_mem_lineOf (by decide) hnr hvr) (not_mem_lineOf (by decide) hnn hvn)
  rw [lineOf, List.append_assoc]
  exact List.append_ne_nil_of_left_ne_nil hne _

theorem isWhole_statusShown (hstatus : isSendable r.status = true) :
    IsWhole (Utf8.encode (statusShown r.status)) := by
  obtain ⟨-, hr, hn⟩ := isLine_statusLine hstatus
  exact isWhole_encode (by simp [statusShown, statusText]) hr hn

theorem isWhole_lines {headers : List (Text × Text)} (hall : ∀ h ∈ headers, Proper h) :
    ∀ l ∈ headers.map fun h => Utf8.encode (lineOf h), IsWhole l := by
  intro l hl
  obtain ⟨h, hmem, rfl⟩ := List.mem_map.mp hl
  exact isWhole_lineOf (hall h hmem)

/-- **The lines of a head** of a response that is sent hold no line breaks. -/
theorem isWhole_headTexts (hstatus : isSendable r.status = true)
    (hall : ∀ h ∈ r.sent, headerFault? h.1 h.2 = none) : ∀ l ∈ r.headTexts, IsWhole l := by
  have hannounced : Proper r.announced := by
    obtain ⟨⟨hne, -, -, hnr, hnn⟩, -, hvr, hvn, -⟩ := announced_parts r
    exact ⟨hne, ⟨hnr, hnn⟩, hvr, hvn⟩
  refine List.forall_mem_cons.mpr ⟨isWhole_statusShown hstatus, isWhole_lines ?_⟩
  intro h hmem
  rcases List.mem_append.mp hmem with hmem | hmem
  · exact headerFault?_eq_none_iff.mp (hall h hmem)
  · rw [List.mem_singleton.mp hmem]
    exact hannounced

/-! ## 4. Encoding into a buffer -/

/-- **What the buffer held is kept**, and what is written of the response is put behind it. -/
theorem encodeInto_eq (r : Reply) (buffer : List UInt8) :
    r.encodeInto buffer = (buffer ++ r.encodeParts.1, r.encodeParts.2) := by
  rw [encodeInto, encodeParts_eq, putHeaders_eq]
  split
  · cases headerLines r.headers with
    | mk lines fault =>
      cases fault with
      | none => simp only [List.append_assoc]
      | some e => simp only [List.append_assoc]
  · rw [List.append_nil]

theorem encode?_of_none {bytes : List UInt8} (h : r.encodeParts = (bytes, none)) :
    r.encode? = .ok bytes := by
  rw [encode?, h]

theorem bytes_of_some {bytes : List UInt8} {e : SendError} (h : r.encodeParts = (bytes, some e)) :
    r.bytes = internalError := by
  rw [Reply.bytes, encode?, h]

/-- **Why a response is refused**: for its status, or for the first header at fault. -/
inductive RefusedBy (r : Reply) : SendError → Prop where
  | status (h : ¬ (100 ≤ r.status ∧ r.status ≤ 999)) : RefusedBy r (.status r.status)
  | header {before after : List (Text × Text)} {name value : Text}
      (hstatus : 100 ≤ r.status ∧ r.status ≤ 999)
      (hheaders : r.headers = before ++ (name, value) :: after)
      (hbefore : ∀ h ∈ before, Counts h.1 → Proper h) (hname : Counts name)
      (hfault : ¬ Proper (name, value)) :
      RefusedBy r (.header name (if name = [] then .emptyName else .lineBreak))

theorem isSendable_iff {status : Nat} :
    isSendable status = true ↔ 100 ≤ status ∧ status ≤ 999 := by
  rw [isSendable, Bool.and_eq_true, decide_eq_true_iff, decide_eq_true_iff]

/-- When a response is encoded to the end. -/
theorem encodeParts_eq_none_iff :
    r.encodeParts.2 = none ↔
      (100 ≤ r.status ∧ r.status ≤ 999) ∧ ∀ h ∈ r.headers, Counts h.1 → Proper h := by
  rw [← isSendable_iff, ← forall_sent_iff]
  constructor
  · intro h
    exact (encode?_eq_ok_iff.mp (encode?_of_none (Prod.ext rfl h))).1
  · intro h
    have hencode := encode?_eq_ok_iff.mpr ⟨h, rfl⟩
    unfold encode? at hencode
    split at hencode
    · cases hencode
    · rename_i heq
      rw [heq]

/-- **A refused response** is refused for a reason, before any end of a head is written. -/
theorem refused_of_encodeParts {bytes : List UInt8} {e : SendError}
    (h : r.encodeParts = (bytes, some e)) :
    r.RefusedBy e ∧ ¬ headEnd <:+: bytes ∧ ∀ code, e = .status code → bytes = [] := by
  rw [encodeParts_eq] at h
  by_cases hstatus : isSendable r.status = true
  · rw [if_pos hstatus] at h
    cases hlines : headerLines r.headers with
    | mk lines fault =>
      cases fault with
      | none =>
        rw [hlines] at h
        cases h
      | some e =>
        rw [hlines] at h
        cases h
        obtain ⟨before, name, value, after, f, hheaders, hname, hf, rfl, hbefore⟩ :=
          of_headerLines_fault hlines
        obtain ⟨hproper, rfl⟩ := headerFault?_eq_some hf
        obtain ⟨hall, rfl⟩ := headerLines_eq_iff.mp hbefore
        refine ⟨.header (isSendable_iff.mp hstatus) hheaders (forall_sent_iff.mp hall)
          (isContentLength_eq_false_iff.mp hname) hproper, ?_, nofun⟩
        rw [statusLine_eq, flatten_headerLine, ← ended_cons]
        refine not_headEnd (List.forall_mem_cons.mpr ⟨isWhole_statusShown hstatus, ?_⟩)
        exact isWhole_lines fun h hmem => headerFault?_eq_none_iff.mp (hall h hmem)
  · rw [if_neg hstatus] at h
    cases h
    refine ⟨.status (mt isSendable_iff.mpr hstatus), not_headEnd (nofun : ∀ l ∈ [], IsWhole l),
      fun _ _ => rfl⟩

/-- The task of a handler that ends with a response goes on to send its bytes. -/
theorem step?_of_reply {x : Exchange} {received : List UInt8} {ending : List UInt8 → Ending}
    (hx : x.task = .running [] received ending) (hr : ending received.reverse = .reply r) :
    x.step? = some (x.reply r.bytes) := by
  simp only [Exchange.step?, hx, Exchange.act?, hr]

/-- **A response cannot be split**, whatever strings its headers are and whatever the buffer held,
    which is kept. It is encoded exactly if it has a status of three digits and all its headers that
    count are proper. Then there is one head behind what the buffer held, of lines without line breaks,
    its end is the first end of a head, and the body follows. Otherwise the first thing that is wrong
    is the error, what is written holds no end of a head, and the engine sends the internal error. -/
theorem encodeInto_unsplit (r : Reply) (buffer : List UInt8) :
    ∃ appended fault, r.encodeInto buffer = (buffer ++ appended, fault) ∧
      (fault = none ↔ (100 ≤ r.status ∧ r.status ≤ 999) ∧
        ∀ h ∈ r.headers, Counts h.1 → Proper h) ∧
      (fault = none →
        (appended = ended r.headTexts ++ lineEnd ++ r.body ∧ ∀ l ∈ r.headTexts, IsWhole l) ∧
        (∃ front, ended r.headTexts ++ lineEnd = front ++ headEnd ∧
          ∀ u v, appended = u ++ headEnd ++ v → front.length ≤ u.length) ∧
        ∀ (x : Exchange) received ending, x.task = .running [] received ending →
          ending received.reverse = .reply r → x.step? = some (x.reply appended)) ∧
      ∀ e, fault = some e →
        r.RefusedBy e ∧ ¬ headEnd <:+: appended ∧ (∀ code, e = .status code → appended = []) ∧
        ∀ (x : Exchange) received ending, x.task = .running [] received ending →
          ending received.reverse = .reply r → x.step? = some (x.reply internalError) := by
  refine ⟨r.encodeParts.1, r.encodeParts.2, encodeInto_eq r buffer, encodeParts_eq_none_iff, ?_, ?_⟩
  · intro hfault
    have hencode := encode?_of_none (Prod.ext rfl hfault : r.encodeParts = (r.encodeParts.1, none))
    obtain ⟨⟨hstatus, hall⟩, hwritten⟩ := encode?_eq_ok_iff.mp hencode
    rw [written_eq] at hwritten
    have hlines := isWhole_headTexts hstatus hall
    obtain ⟨front, hfront⟩ := exists_headEnd r.headTexts_ne
    refine ⟨⟨hwritten, hlines⟩, ⟨front, hfront, ?_⟩, ?_⟩
    · intro u v hsplit
      rw [hwritten, List.append_assoc, List.append_assoc] at hsplit
      have hle := length_le_of_headEnd hlines hsplit
      have hlen := congrArg List.length hfront
      simp only [headEnd, List.length_append] at hlen
      omega
    · intro x received ending hx hr
      rw [step?_of_reply hx hr, Reply.bytes, hencode]
  · intro e hfault
    have hparts : r.encodeParts = (r.encodeParts.1, some e) := Prod.ext rfl hfault
    obtain ⟨hrefused, hend, hcode⟩ := refused_of_encodeParts hparts
    refine ⟨hrefused, hend, hcode, ?_⟩
    intro x received ending hx hr
    rw [step?_of_reply hx hr, bytes_of_some hparts]

/-- A response with a header that would end the head, behind one that can be sent. -/
def splitting : Reply :=
  ⟨200, [("X".toList, "y".toList), ("Z".toList, "\r\n\r\n".toList)], []⟩

theorem encodeInto_unsplit_splitting :
    ∃ appended, splitting.encodeInto [1, 2] =
        ([1, 2] ++ appended, some (.header "Z".toList .lineBreak)) ∧
      splitting.RefusedBy (.header "Z".toList .lineBreak) ∧ ¬ headEnd <:+: appended := by
  obtain ⟨appended, fault, hencode, -, -, hrefused⟩ := encodeInto_unsplit splitting [1, 2]
  have heval : (splitting.encodeInto [1, 2]).2 = some (.header "Z".toList .lineBreak) := by decide
  obtain rfl := heval.symm.trans (congrArg Prod.snd hencode)
  obtain ⟨hwhy, hend, -⟩ := hrefused _ rfl
  exact ⟨appended, hencode, hwhy, hend⟩

end Sluice.Http.Reply
