/-
  File:      Sluice/Proofs/Replies.lean
  Subject:   What the encoder of responses writes, the reader of responses reads.

  * `putHeaders_eq`, `headerLines_cons`, `encodeParts_eq`: what is put into a buffer, line by line;
  * `Reply.sent`, `Reply.announced`, `encode?_eq_ok_iff`: the header lines of a response that is sent;
  * `Reply.Plain`, **`read?_of_encode`**: a response with plain headers is read as it was sent, and its
    body is copied as it was sent;
  * `nameSeen`, `seen`, `shows_of_read`: what is read of a response with whatever headers;
  * **`length_of_read`**: the length that is read is that of the body, unless the reader sees the name
    of the length where another name was written; `length_of_read_masked` is such a response.
-/
import Sluice.Http.Reply
import Sluice.Proofs.Framing
import Sluice.Proofs.Head.StatusLine

namespace Sluice.Http

open Sluice.Wire

/-! ## 1. What is written -/

namespace Reply

/-- The headers of a response that are sent: all but those named like the length. -/
def sent (r : Reply) : List (Text × Text) := r.headers.filter fun h => !isContentLength h.1

/-- The header that announces the length of the body. -/
def announced (r : Reply) : Text × Text :=
  ("Content-Length".toList, (toString r.body.length).toList)

/-- The text of a header line. -/
def lineOf (h : Text × Text) : Text := h.1 ++ ": ".toList ++ h.2

/-- The header lines of a response. -/
def lines (r : Reply) : List (List UInt8) :=
  (r.sent ++ [r.announced]).map fun h => headerLine h.1 h.2

/-- All that is written of a response that can be sent. -/
def written (r : Reply) : List UInt8 :=
  statusLine r.status ++ (r.lines.flatten ++ lineEnd ++ r.body)

variable {r : Reply}

/-- What a buffer holds in front stays in front of what is put behind it. -/
theorem putHeaders_append (front buffer : List UInt8) (headers : List (Text × Text)) :
    putHeaders (front ++ buffer) headers =
      (front ++ (putHeaders buffer headers).1, (putHeaders buffer headers).2) := by
  fun_induction putHeaders buffer headers with
  | case1 buffer => rw [putHeaders]
  | case2 buffer name value rest hname ih => rw [putHeaders, if_pos hname, ih]
  | case3 buffer name value rest hname f hf => rw [putHeaders, if_neg hname, hf]
  | case4 buffer name value rest hname hf ih =>
    rw [putHeaders, if_neg hname, hf]
    dsimp only
    rw [List.append_assoc, ih]

theorem putHeaders_eq (buffer : List UInt8) (headers : List (Text × Text)) :
    putHeaders buffer headers = (buffer ++ (headerLines headers).1, (headerLines headers).2) := by
  have hput := putHeaders_append buffer [] headers
  rwa [List.append_nil] at hput

section HeaderLines

variable {name value : Text} (rest : List (Text × Text))

theorem headerLines_nil : headerLines [] = ([], none) := rfl

theorem headerLines_cons_of_length (h : isContentLength name = true) :
    headerLines ((name, value) :: rest) = headerLines rest := by
  rw [headerLines, putHeaders, if_pos h, headerLines]

theorem headerLines_cons_of_fault (h : ¬ isContentLength name = true) {f : SendHeaderFault}
    (hf : headerFault? name value = some f) :
    headerLines ((name, value) :: rest) = ([], some (.header name f)) := by
  rw [headerLines, putHeaders, if_neg h, hf]

theorem headerLines_cons (h : ¬ isContentLength name = true) (hf : headerFault? name value = none) :
    headerLines ((name, value) :: rest) =
      (headerLine name value ++ (headerLines rest).1, (headerLines rest).2) := by
  rw [headerLines, putHeaders, if_neg h, hf]
  exact putHeaders_eq _ rest

end HeaderLines

/-- The parts of a response: its status line, the lines of its headers, and the end of the head with the
    body, as far as they are sent. -/
theorem encodeParts_eq (r : Reply) :
    r.encodeParts =
      if isSendable r.status then
        match headerLines r.headers with
        | (lines, some e) => (statusLine r.status ++ lines, some e)
        | (lines, none) => (statusLine r.status ++ lines ++ bodyPart r.body, none)
      else ([], some (.status r.status)) := by
  rw [encodeParts, encodeInto, putHeaders_eq, List.nil_append]
  cases headerLines r.headers with
  | mk lines fault => cases fault <;> rfl

/-- The lines of headers that can be sent. -/
theorem headerLines_eq_iff {headers : List (Text × Text)} {bytes : List UInt8} :
    headerLines headers = (bytes, none) ↔
      (∀ h ∈ headers.filter fun h => !isContentLength h.1, headerFault? h.1 h.2 = none) ∧
        bytes = ((headers.filter fun h => !isContentLength h.1).map fun h =>
          headerLine h.1 h.2).flatten := by
  induction headers generalizing bytes with
  | nil => simp [headerLines_nil, eq_comm]
  | cons h headers ih =>
    obtain ⟨name, value⟩ := h
    by_cases hname : isContentLength name = true
    · rw [headerLines_cons_of_length headers hname, List.filter_cons_of_neg (by simpa using hname)]
      exact ih
    · rw [List.filter_cons_of_pos (by simpa using hname), List.forall_mem_cons, List.map_cons,
        List.flatten_cons]
      cases hfault : headerFault? name value with
      | some f =>
        rw [headerLines_cons_of_fault headers hname hfault]
        simp
      | none =>
        rw [headerLines_cons headers hname hfault]
        cases hlater : headerLines headers with
        | mk later fault =>
          dsimp only
          rw [Prod.mk.injEq]
          constructor
          · rintro ⟨rfl, rfl⟩
            obtain ⟨hall, rfl⟩ := ih.mp hlater
            exact ⟨⟨rfl, hall⟩, rfl⟩
          · rintro ⟨⟨-, hall⟩, rfl⟩
            have hok := ih.mpr ⟨hall, rfl⟩
            rw [hlater] at hok
            obtain ⟨rfl, rfl⟩ := Prod.mk.inj hok
            exact ⟨rfl, rfl⟩

theorem bodyPart_eq (r : Reply) :
    bodyPart r.body = headerLine r.announced.1 r.announced.2 ++ lineEnd ++ r.body := by
  have hname : Utf8.encode "Content-Length: ".toList =
      Utf8.encode "Content-Length".toList ++ Utf8.encode ": ".toList := by decide
  unfold bodyPart headerLine announced
  rw [Utf8.encode_append, hname]

/-- **What a response is encoded to**, and when it is. -/
theorem encode?_eq_ok_iff {bytes : List UInt8} :
    r.encode? = .ok bytes ↔
      (isSendable r.status = true ∧ ∀ h ∈ r.sent, headerFault? h.1 h.2 = none) ∧
        bytes = r.written := by
  have hwritten : ∀ front : List UInt8,
      front = (r.sent.map fun h => headerLine h.1 h.2).flatten →
        statusLine r.status ++ front ++ bodyPart r.body = r.written := by
    rintro front rfl
    rw [bodyPart_eq, written, lines, List.map_append, List.flatten_append, List.map_singleton,
      List.flatten_singleton]
    simp only [List.append_assoc]
  rw [encode?, encodeParts_eq]
  by_cases hstatus : isSendable r.status = true
  · rw [if_pos hstatus]
    cases hlines : headerLines r.headers with
    | mk front fault =>
      cases fault with
      | none =>
        obtain ⟨hall, hfront⟩ := headerLines_eq_iff.mp hlines
        dsimp only
        rw [hwritten front hfront, Except.ok.injEq]
        exact ⟨fun h => ⟨⟨hstatus, hall⟩, h.symm⟩, fun h => h.2.symm⟩
      | some e =>
        refine ⟨nofun, fun h => ?_⟩
        have hok := headerLines_eq_iff.mpr ⟨h.1.2, rfl⟩
        rw [hlines] at hok
        cases (Prod.mk.inj hok).2
  · rw [if_neg hstatus]
    exact ⟨nofun, fun h => absurd h.1.1 hstatus⟩

theorem hasLineBreak_eq_false_iff {t : Text} : hasLineBreak t = false ↔ '\r' ∉ t ∧ '\n' ∉ t := by
  unfold hasLineBreak
  rw [List.any_eq_false]
  constructor
  · exact fun h => ⟨fun hm => h _ hm rfl, fun hm => h _ hm rfl⟩
  · rintro ⟨hr, hn⟩ c hc hbreak
    rcases Bool.or_eq_true_iff.mp hbreak with h | h
    · exact hr (beq_iff_eq.mp h ▸ hc)
    · exact hn (beq_iff_eq.mp h ▸ hc)

/-- What can be sent as a header has a name and no line breaks. -/
theorem headerFault?_eq_none_iff {name value : Text} :
    headerFault? name value = none ↔
      name ≠ [] ∧ ('\r' ∉ name ∧ '\n' ∉ name) ∧ '\r' ∉ value ∧ '\n' ∉ value := by
  rw [← hasLineBreak_eq_false_iff, ← hasLineBreak_eq_false_iff]
  unfold headerFault?
  by_cases hname : name = []
  · rw [if_pos (by rw [hname]; rfl)]
    exact ⟨nofun, fun h => absurd hname h.1⟩
  · rw [if_neg (by simpa using hname)]
    cases hasLineBreak name <;> cases hasLineBreak value <;> simp [hname]

/-! ## 2. The lines that are written -/

theorem headerLine_eq (h : Text × Text) : headerLine h.1 h.2 = Utf8.encode (lineOf h) ++ [13, 10] := by
  unfold headerLine lineOf
  rw [Utf8.encode_append, Utf8.encode_append]
  rfl

/-- A header line has one space, behind the colon. -/
theorem lineOf_spaced (h : Text × Text) :
    spaces 0 ++ h.1 ++ spaces 0 ++ [':'] ++ spaces 1 ++ h.2 ++ spaces 0 = lineOf h := by
  show [] ++ h.1 ++ [] ++ [':'] ++ [' '] ++ h.2 ++ [] = h.1 ++ [':', ' '] ++ h.2
  simp only [List.nil_append, List.append_nil, List.append_assoc, List.singleton_append]

/-- The line of a header is one of the ways to write it. -/
theorem isHeaderLine_headerLine {h : Text × Text} (hlen : (Utf8.encode (lineOf h)).length ≤ 4096) :
    IsHeaderLine h (headerLine h.1 h.2) := by
  refine ⟨0, 0, 1, 0, ?_⟩
  rw [lineOf_spaced]
  exact ⟨hlen, .inr (headerLine_eq h)⟩

theorem isLine_lineEnd : IsLine 4096 (spaces 0) lineEnd := ⟨by decide, .inr rfl⟩

/-- No reason begins with a space, and none is long or has a line break. -/
theorem reasonPhrase_plain (status : Nat) :
    (reasonPhrase status).toList.length ≤ 40 ∧ (reasonPhrase status).toList.head? ≠ some ' ' ∧
      '\r' ∉ (reasonPhrase status).toList ∧ '\n' ∉ (reasonPhrase status).toList := by
  unfold reasonPhrase
  split <;> decide

/-- A character that is no digit is not in a number. -/
theorem not_mem_toString {c : Char} (hc : c.isDigit = false) (n : Nat) :
    c ∉ (toString n).toList := by
  intro hmem
  rw [Radix.isDigit_of_mem_toString hmem] at hc
  cases hc

/-- A character that is in neither of its parts is not in the line of a header. -/
theorem not_mem_lineOf {h : Text × Text} {c : Char} (hgap : c ∉ ": ".toList) (hname : c ∉ h.1)
    (hvalue : c ∉ h.2) : c ∉ lineOf h := by
  intro hmem
  rcases List.mem_append.mp hmem with hmem | hmem
  · exact (List.mem_append.mp hmem).elim hname hgap
  · exact hvalue hmem

/-- The name of the length, and the number in its header. -/
theorem announced_parts (r : Reply) :
    (r.announced.1 ≠ [] ∧ ' ' ∉ r.announced.1 ∧ ':' ∉ r.announced.1 ∧ '\r' ∉ r.announced.1 ∧
        '\n' ∉ r.announced.1) ∧
      r.announced.2 ≠ [] ∧ '\r' ∉ r.announced.2 ∧ '\n' ∉ r.announced.2 ∧
        r.announced.2.head? ≠ some ' ' ∧ r.announced.2.head? ≠ some ':' ∧
          r.announced.2.getLast? ≠ some ' ' := by
  have hname : "Content-Length".toList ≠ [] ∧ ' ' ∉ "Content-Length".toList ∧
      ':' ∉ "Content-Length".toList ∧ '\r' ∉ "Content-Length".toList ∧
      '\n' ∉ "Content-Length".toList := by decide
  have hdigit : ∀ c : Char, c.isDigit = false → c ∉ r.announced.2 := fun c hc =>
    not_mem_toString hc _
  exact ⟨hname, Radix.toString_ne_nil _, hdigit _ rfl, hdigit _ rfl,
    fun h => hdigit ' ' rfl (List.mem_of_head? h), fun h => hdigit ':' rfl (List.mem_of_head? h),
    fun h => hdigit ' ' rfl (List.mem_of_getLast? h)⟩

/-- The text of a status line that is sent. -/
def statusShown (status : Nat) : Text :=
  statusText "HTTP/1.1".toList (toString status).toList (reasonPhrase status).toList

/-- A status that is sent has no more than three digits. -/
theorem length_status {status : Nat} (h : isSendable status = true) :
    (toString status).toList.length ≤ 3 := by
  refine Radix.length_toString_le (by decide) ?_
  simp only [isSendable, Bool.and_eq_true, decide_eq_true_eq] at h
  exact Nat.lt_succ_of_le h.2

theorem statusShown_eq (status : Nat) :
    statusShown status = "HTTP/1.1 ".toList ++ (toString status).toList ++ " ".toList ++
      (reasonPhrase status).toList := by
  unfold statusShown statusText
  simp only [List.append_assoc]
  rfl

theorem isLine_statusLine (hstatus : isSendable r.status = true) :
    IsLine 8192 (statusShown r.status) (statusLine r.status) ∧ '\r' ∉ statusShown r.status ∧
      '\n' ∉ statusShown r.status := by
  obtain ⟨hlong, -, hr, hn⟩ := reasonPhrase_plain r.status
  have htext := statusShown_eq r.status
  have hdigits := length_status hstatus
  have hbreak : ∀ c : Char, c.isDigit = false → c ∉ "HTTP/1.1 ".toList → c ∉ " ".toList →
      c ∉ (reasonPhrase r.status).toList → c ∉ statusShown r.status := by
    intro c hc hversion hspace hreason hmem
    rw [htext] at hmem
    simp only [List.mem_append] at hmem
    rcases hmem with ((h | h) | h) | h
    · exact hversion h
    · exact not_mem_toString hc _ h
    · exact hspace h
    · exact hreason h
  refine ⟨⟨?_, .inr ?_⟩, hbreak _ rfl (by decide) (by decide) hr,
    hbreak _ rfl (by decide) (by decide) hn⟩
  · have hle := Utf8.length_encode_le (statusShown r.status)
    have hlen := congrArg List.length htext
    simp only [List.length_append] at hlen
    have hversion : "HTTP/1.1 ".toList.length = 9 := rfl
    have hspace : " ".toList.length = 1 := rfl
    omega
  · rw [htext]
    rfl

/-! ## 3. What is read -/

section Reading

variable {store : Store} {source : Source}

/-- **A response behind its status line** is read with its status, and the headers that the lines
    show. -/
theorem read?_of_statusLine (store : Store) (hstatus : isSendable r.status = true)
    {later : List UInt8} (hbytes : source.bytes = statusLine r.status ++ later) :
    match headersShown source.failure 0 (later.splitOn 10) with
    | .error f => ∃ e, (Response.read? store source).1 = .error e ∧ e.headFault? = some f
    | .ok (headers, left) => ∃ resp, (Response.read? store source).1 = .ok (some resp) ∧
      resp.ShowsLine "HTTP/1.1".toList (toString r.status).toList
        (reasonPhrase r.status).toList ∧
      Headers.Shows resp.headers headers ∧
      (Response.read? store source).2.bytes = [10].intercalate left ∧
      (Response.read? store source).2.failure = source.failure := by
  obtain ⟨hline, hr, hn⟩ := isLine_statusLine hstatus
  obtain ⟨content, next, pieces, hlater, hpieces, hshown, hblank⟩ :=
    splitOn_of_isLine hline hr hn later
  have hne : ¬ (content = [] ∨ content = [13]) := fun h => absurd (hblank h) nofun
  obtain ⟨parsed, hparsed, hsays⟩ := ofText_status "HTTP/1.1".toList
    (toString r.status).toList (reasonPhrase r.status).toList ⟨by decide, by decide⟩
    (Radix.toString_ne_nil _) (fun c => Radix.isDigit_of_mem_toString) (length_status hstatus)
    (reasonPhrase_plain _).2.1
  rw [hlater]
  exact Response.read?_of_line store (hbytes ▸ hpieces) hne hshown hparsed hsays

end Reading

/-- **A body behind its length** is copied as it was sent. -/
theorem copy_of_length {source : Source} {sink : Sink} {n : UInt64} {rest : List UInt8}
    (hn : n.toNat = r.body.length) (hbytes : source.bytes = r.body ++ rest)
    (hsink : sink.Takes r.body.length) :
    ((Framing.length n).copy source sink).result = .ok r.body.length ∧
      ((Framing.length n).copy source sink).sink.written.toList = sink.written.toList ++ r.body ∧
      ((Framing.length n).copy source sink).source.bytes = rest := by
  have hyield : (Framing.length n).yield source.failure source.bytes =
      ⟨r.body, .ok (r.body.length, rest)⟩ := by
    rw [hbytes]
    exact yield_length_eq hn
  have hroom : sink.Takes ((Framing.length n).yield source.failure source.bytes).output.length := by
    rw [hyield]
    exact hsink
  obtain ⟨hwrote, hends⟩ := (Framing.length n).copy_eq source hroom
  rw [hyield] at hwrote hends
  obtain ⟨hresult, hrest, _⟩ : _ ∧ _ ∧ _ := hends
  exact ⟨hresult, hwrote.written, hrest⟩

/-- The first header that is named like the length says how long the body is. -/
theorem framing_of_first {h : Headers} {shown : List (Text × Text)} {first : Text × Text} {n : Nat}
    (hs : h.Shows shown)
    (hfirst : (shown.find? fun e => e.1.eqFold "Content-Length".toList) = some first)
    (hdecimal : RequestText.IsDecimal first.2 n) (hn : n < UInt64.size) :
    ∃ w, Framing.ofHeaders h = .ok (.length w) ∧ w.toNat = n := by
  have hlookup := Headers.get?_of_shows hs "Content-Length".toList
  rw [hfirst] at hlookup
  obtain ⟨v, hv, hvalue⟩ := Option.map_eq_some_iff.mp hlookup
  rw [← hvalue] at hdecimal
  obtain ⟨w, hw, hnat⟩ := decimal?_of_isDecimal hdecimal hn
  refine ⟨w, ?_, hnat⟩
  unfold Framing.ofHeaders
  rw [hv]
  dsimp only
  rw [hw]

/-- A number is written in decimal. -/
theorem isDecimal_toString (n : Nat) : RequestText.IsDecimal (toString n).toList n := by
  refine ⟨Radix.toString_ne_nil _, ?_, Radix.value_toString _⟩
  intro c hc
  rw [Radix.digit?_of_isDigit (Radix.isDigit_of_mem_toString hc)]
  rfl

/-- The name of the length, in either spelling. -/
theorem eqFold_contentLength (name : Text) :
    name.eqFold "Content-Length".toList = isContentLength name := by
  have hlower : "Content-Length".toList.map Char.toLower =
      "content-length".toList.map Char.toLower := by decide
  rw [isContentLength, Bool.eq_iff_iff, Text.eqFold_iff, Text.eqFold_iff, hlower]

/-- No header is named like the length before the one that announces it. -/
theorem find?_announced {front : List (Text × Text)}
    (h : ∀ e ∈ front, isContentLength e.1 = false) :
    ((front ++ [r.announced]).find? fun e => e.1.eqFold "Content-Length".toList) =
      some r.announced := by
  rw [List.find?_append, List.find?_eq_none.mpr]
  · rw [Option.none_or, List.find?_cons_of_pos]
    exact eqFold_contentLength _
  · intro e he
    rw [eqFold_contentLength, h e he]
    exact Bool.false_ne_true

theorem isContentLength_of_mem_sent {h : Text × Text} (hmem : h ∈ r.sent) :
    isContentLength h.1 = false := by
  simpa using (List.mem_filter.mp hmem).2

/-! ## 4. Plain headers -/

/-- A response with a status of three digits and at most 31 headers that are sent, their names without
    spaces and colons, their values without spaces at their ends and not beginning with a colon, no
    line breaks anywhere, and lines of at most 4096 bytes. -/
structure Plain (r : Reply) : Prop where
  status : 100 ≤ r.status ∧ r.status ≤ 999
  names : ∀ h ∈ r.sent, h.1 ≠ [] ∧ ' ' ∉ h.1 ∧ ':' ∉ h.1 ∧ '\r' ∉ h.1 ∧ '\n' ∉ h.1
  values : ∀ h ∈ r.sent, h.2 ≠ [] ∧ '\r' ∉ h.2 ∧ '\n' ∉ h.2 ∧ h.2.head? ≠ some ' ' ∧
    h.2.head? ≠ some ':' ∧ h.2.getLast? ≠ some ' '
  count : r.sent.length ≤ 31
  lines : ∀ h ∈ r.sent, (Utf8.encode (lineOf h)).length ≤ 4096
  body : r.body.length < UInt64.size

section Plain

variable (hr : r.Plain)

include hr

theorem Plain.isSendable : isSendable r.status = true := by
  rw [Http.isSendable, decide_eq_true hr.status.1, decide_eq_true hr.status.2]
  rfl

theorem Plain.headerFault? {h : Text × Text} (hmem : h ∈ r.sent) :
    headerFault? h.1 h.2 = none := by
  obtain ⟨hname, -, -, hnr, hnn⟩ := hr.names h hmem
  obtain ⟨-, hvr, hvn, -⟩ := hr.values h hmem
  have hclean : ∀ {t : Text}, '\r' ∉ t → '\n' ∉ t → hasLineBreak t = false := by
    intro t htr htn
    rw [hasLineBreak, List.any_eq_false]
    intro c hc hbreak
    rcases Bool.or_eq_true_iff.mp hbreak with h | h
    · exact htr (eq_of_beq h ▸ hc)
    · exact htn (eq_of_beq h ▸ hc)
  rw [Reply.headerFault?, if_neg (by simpa using hname), hclean hnr hnn, hclean hvr hvn]
  rfl

/-- The line of the length is short. -/
theorem Plain.length_announced : (Utf8.encode (lineOf r.announced)).length ≤ 4096 := by
  have hword : UInt64.size < Nat.pow 10 20 := by decide
  have hdigits : (toString r.body.length).toList.length ≤ 20 :=
    Radix.length_toString_le (by decide) (Nat.lt_trans hr.body hword)
  have hlen : ∀ digits : Text,
      (lineOf ("Content-Length".toList, digits)).length = 16 + digits.length := by
    intro digits
    rw [lineOf, List.length_append]
    rfl
  have hle := Utf8.length_encode_le (lineOf r.announced)
  have hline : (lineOf r.announced).length = 16 + (toString r.body.length).toList.length :=
    hlen (toString r.body.length).toList
  omega

/-- **The header lines of a plain response** show the headers that are sent and the length. -/
theorem Plain.headersShown (failure : Option Failure) (rest : List UInt8) :
    headersShown failure 0 ((r.lines.flatten ++ lineEnd ++ rest).splitOn 10) =
      .ok (r.sent ++ [r.announced], rest.splitOn 10) := by
  obtain ⟨hname, hvalue⟩ := announced_parts r
  refine headersShown_lines failure 0 rest ?_ ?_ ?_ ?_ isLine_lineEnd
  · intro h hmem
    rcases List.mem_append.mp hmem with hmem | hmem
    · exact hr.names h hmem
    · obtain rfl := List.mem_singleton.mp hmem
      exact hname
  · intro h hmem
    rcases List.mem_append.mp hmem with hmem | hmem
    · exact hr.values h hmem
    · obtain rfl := List.mem_singleton.mp hmem
      exact hvalue
  · have hcount := hr.count
    rw [List.length_append, List.length_singleton]
    omega
  · rw [Reply.lines, List.forall₂_map_right_iff, List.forall₂_same]
    intro h hmem
    refine isHeaderLine_headerLine ?_
    rcases List.mem_append.mp hmem with hmem | hmem
    · exact hr.lines h hmem
    · obtain rfl := List.mem_singleton.mp hmem
      exact hr.length_announced

theorem Plain.encode? : r.encode? = .ok r.written :=
  encode?_eq_ok_iff.mpr ⟨⟨hr.isSendable, fun _ => hr.headerFault?⟩, rfl⟩

/-- A plain response that is written is read with the headers that are sent and the length. -/
theorem Plain.read?_written (store : Store) {source : Source} {rest : List UInt8}
    (hbytes : source.bytes = r.written ++ rest) :
    ∃ resp, (Response.read? store source).1 = .ok (some resp) ∧
      resp.ShowsLine "HTTP/1.1".toList (toString r.status).toList
        (reasonPhrase r.status).toList ∧
      resp.headers.Shows (r.sent ++ [r.announced]) ∧
      (Response.read? store source).2.bytes = r.body ++ rest := by
  rw [written, List.append_assoc, List.append_assoc] at hbytes
  have hread := read?_of_statusLine store hr.isSendable hbytes
  rw [hr.headersShown] at hread
  obtain ⟨resp, hresp, hline, hshows, hleft, -⟩ := hread
  rw [List.intercalate_splitOn] at hleft
  exact ⟨resp, hresp, hline, hshows, hleft⟩

/-- **A plain response** is encoded, and read as it was sent, wherever the segments are cut and
    whatever follows it: status, reason, the headers and the length, and by the framing of these its
    body; what follows is left. -/
theorem read?_of_encode (store : Store) (rest : List UInt8) :
    ∃ bytes, r.encode? = .ok bytes ∧ ∀ source : Source, source.bytes = bytes ++ rest →
      ∃ resp f, (Response.read? store source).1 = .ok (some resp) ∧
        resp.version.toText = "HTTP/1.1".toList ∧ resp.status = r.status ∧
        resp.statusText.toText = (reasonPhrase r.status).toList ∧
        resp.headers.entries.map (fun e => (e.1.toText, e.2.toText)) = r.sent ++ [r.announced] ∧
        Framing.ofHeaders resp.headers = .ok f ∧
        ∀ sink : Sink, sink.Takes r.body.length →
          (f.copy (Response.read? store source).2 sink).result = .ok r.body.length ∧
          (f.copy (Response.read? store source).2 sink).sink.written.toList =
            sink.written.toList ++ r.body ∧
          (f.copy (Response.read? store source).2 sink).source.bytes = rest := by
  refine ⟨r.written, hr.encode?, ?_⟩
  intro source hbytes
  obtain ⟨resp, hresp, hline, hshows, hleft⟩ := hr.read?_written store hbytes
  obtain ⟨n, hframing, hn⟩ := framing_of_first hshows
    (find?_announced fun _ => isContentLength_of_mem_sent) (isDecimal_toString r.body.length)
    hr.body
  exact ⟨resp, .length n, hresp, hline.version, hline.status.trans (Radix.value_toString _),
    hline.statusText, hshows.entries_eq, hframing, fun _ => copy_of_length hn hleft⟩

end Plain

/-- A response with a body, a header of two words, and one that is not sent. -/
def brief : Reply :=
  ⟨404, [("X-Why".toList, "not here".toList), ("content-LENGTH".toList, "9".toList)], [104, 105]⟩

theorem plain_brief : brief.Plain :=
  ⟨by decide, by decide, by decide, by decide, by decide, by decide⟩

theorem read?_of_encode_brief :
    brief.Plain ∧ ∃ bytes, brief.encode? = .ok bytes ∧ ∃ resp,
      (Response.read? (.ofChunkSize 4 (by decide))
        (.ofSegments [bytes.take 20, bytes.drop 20 ++ [88]] none)).1 = .ok (some resp) ∧
      resp.status = 404 := by
  obtain ⟨bytes, hencode, hread⟩ := read?_of_encode plain_brief (.ofChunkSize 4 (by decide)) [88]
  have hcut : [bytes.take 20, bytes.drop 20 ++ [88]].flatten = bytes ++ [88] := by
    rw [List.flatten_cons, List.flatten_singleton, ← List.append_assoc, List.take_append_drop]
  obtain ⟨resp, _, hresp, _, hstatus, _⟩ :=
    hread (.ofSegments [bytes.take 20, bytes.drop 20 ++ [88]] none)
      ((Source.bytes_ofSegments _ _).trans hcut)
  exact ⟨plain_brief, bytes, hencode, resp, hresp, hstatus⟩

/-! ## 5. Whatever headers -/

/-- The name that the reader sees where a name was written: without spaces in front, and up to the
    first space or colon. -/
def nameSeen (name : Text) : Text := nameOf (name.dropWhile (· == ' '))

/-- The header that the reader sees where a header was written. -/
def seen (h : Text × Text) : Text × Text :=
  let line := (lineOf h).dropWhile (· == ' ')
  (nameOf line, valueOf line)

/-- A line is read in one way only, whatever limit it keeps. -/
theorem lineShown_unique {limit limit' : Nat} {line : List UInt8} {t t' : Text}
    (h : lineShown limit line = .ok t) (h' : lineShown limit' line = .ok t') : t = t' := by
  have hread := (length_lineText_le (lineText_of_shown h)).2
  have hread' := (length_lineText_le (lineText_of_shown h')).2
  have hdecode := Utf8.decode_eq_ok_iff.mpr hread
  rw [Utf8.decode_eq_ok_iff.mpr hread'] at hdecode
  exact (Except.ok.inj hdecode).symm

/-- What is read in the line of a header, unless it is at fault. -/
theorem headerShown_lineOf {h : Text × Text} {o : Option (Text × Text)}
    (ho : headerShown (lineOf h) = .ok o) : o = some (seen h) ∧ (seen h).1 = nameSeen h.1 := by
  obtain ⟨name, value⟩ := h
  have hline : lineOf (name, value) = name ++ ':' :: (' ' :: value) :=
    List.append_assoc name [':', ' '] value
  rw [headerShown_eq] at ho
  by_cases hblank : name.dropWhile (· == ' ') = []
  · -- a name of spaces alone leaves no name in front of the colon
    have hdrop : (lineOf (name, value)).dropWhile (· == ' ') = ':' :: (' ' :: value) := by
      rw [hline, List.dropWhile_append, hblank]
      rfl
    rw [hdrop, if_neg (List.cons_ne_nil _ _), if_pos (.inl rfl)] at ho
    cases ho
  · have hdrop : (lineOf (name, value)).dropWhile (· == ' ') =
        name.dropWhile (· == ' ') ++ ':' :: (' ' :: value) := by
      rw [hline, List.dropWhile_append, if_neg (by simpa using hblank)]
    have hname : nameOf ((lineOf (name, value)).dropWhile (· == ' ')) = nameSeen name := by
      rw [hdrop, nameOf, List.takeWhile_append]
      split
      · rename_i hall
        rw [List.takeWhile_cons_of_neg (by decide), List.append_nil, nameSeen, nameOf]
        exact (List.IsPrefix.eq_of_length (List.takeWhile_prefix _) hall).symm
      · rfl
    refine ⟨?_, hname⟩
    rw [if_neg (by rw [hdrop]; simp)] at ho
    split at ho
    · cases ho
    · split at ho
      · cases ho
      · split at ho
        · cases ho
        · exact (Except.ok.inj ho).symm

/-- **What is read in the lines of headers**, unless one of them is at fault. -/
theorem of_headersShown {failure : Option Failure} {headers : List (Text × Text)}
    (hclean : ∀ h ∈ headers, '\r' ∉ lineOf h ∧ '\n' ∉ lineOf h) (count : Nat) (rest : List UInt8)
    {shown : List (Text × Text)} {left : List (List UInt8)}
    (h : Http.headersShown failure count
      (((headers.map fun h => headerLine h.1 h.2).flatten ++ lineEnd ++ rest).splitOn 10) =
        .ok (shown, left)) :
    (shown = headers.map seen ∧ ∀ h ∈ headers, (seen h).1 = nameSeen h.1) ∧
      left = rest.splitOn 10 := by
  induction headers generalizing count shown left with
  | nil =>
    have hlast := headersShown_last failure count rest isLine_lineEnd
    change Http.headersShown failure count ((lineEnd ++ rest).splitOn 10) = _ at h
    rw [hlast] at h
    obtain ⟨rfl, rfl⟩ := Prod.mk.inj (Except.ok.inj h)
    exact ⟨⟨rfl, nofun⟩, rfl⟩
  | cons header headers ih =>
    obtain ⟨hr, hn⟩ := hclean header List.mem_cons_self
    have hline : IsLine (Utf8.encode (lineOf header)).length (lineOf header)
        (headerLine header.1 header.2) := ⟨Nat.le_refl _, .inr (headerLine_eq header)⟩
    obtain ⟨content, next, pieces, hlater, hpieces, hshown, -⟩ := splitOn_of_isLine hline hr hn
      ((headers.map fun h => headerLine h.1 h.2).flatten ++ lineEnd ++ rest)
    have hall : ((header :: headers).map fun h => headerLine h.1 h.2).flatten ++ lineEnd ++ rest =
        headerLine header.1 header.2 ++
          ((headers.map fun h => headerLine h.1 h.2).flatten ++ lineEnd ++ rest) := by
      simp only [List.map_cons, List.flatten_cons, List.append_assoc]
    rw [hall, hpieces] at h
    cases hl : lineShown 4096 content with
    | error f =>
      rw [headersShown_error hl] at h
      cases h
    | ok t =>
      obtain rfl := lineShown_unique hl hshown
      cases ho : headerShown (lineOf header) with
      | error f =>
        rw [headersShown_fault hl ho] at h
        cases h
      | ok o =>
        obtain ⟨rfl, hname⟩ := headerShown_lineOf ho
        rw [headersShown_header hl ho] at h
        split at h
        · cases hrest : Http.headersShown failure (count + 1) (next :: pieces) with
          | error f =>
            rw [hrest] at h
            cases h
          | ok r =>
            obtain ⟨later, left'⟩ := r
            rw [hrest] at h
            obtain ⟨rfl, rfl⟩ := Prod.mk.inj (Except.ok.inj h)
            rw [← hlater] at hrest
            obtain ⟨⟨rfl, hnames⟩, hleft⟩ :=
              ih (fun h hmem => hclean h (List.mem_cons_of_mem _ hmem)) (count + 1) hrest
            exact ⟨⟨rfl, List.forall_mem_cons.mpr ⟨hname, hnames⟩⟩, hleft⟩
        · cases h

/-- The line of the length is read as it was written. -/
theorem seen_announced (r : Reply) : seen r.announced = r.announced := by
  obtain ⟨⟨hne, hspace, hcolon, -⟩, hvalue, -, -, hfirst, hfirst', hlast⟩ := announced_parts r
  have hshown : headerShown (lineOf r.announced) = .ok (some r.announced) := by
    rw [← lineOf_spaced]
    exact headerShown_line ⟨hne, hspace, hcolon⟩ ⟨hvalue, hfirst, hfirst', hlast⟩ 0 0 1 0
  exact (Option.some.inj (headerShown_lineOf hshown).1).symm

section Read

variable {bytes rest : List UInt8} {store : Store} {source : Source} {resp : Response}

/-- **What is read of a response**, whatever headers it has: those that the reader sees where headers
    were written, and the length behind them, and the body is left. -/
theorem shows_of_read (hencode : r.encode? = .ok bytes) (hbytes : source.bytes = bytes ++ rest)
    (hread : (Response.read? store source).1 = .ok (some resp)) :
    resp.headers.Shows (r.sent.map seen ++ [r.announced]) ∧
      (∀ h ∈ r.sent, (seen h).1 = nameSeen h.1) ∧
      (Response.read? store source).2.bytes = r.body ++ rest := by
  obtain ⟨⟨hstatus, hheaders⟩, rfl⟩ := encode?_eq_ok_iff.mp hencode
  rw [written, List.append_assoc, List.append_assoc] at hbytes
  have hlines : ∀ h ∈ r.sent ++ [r.announced], '\r' ∉ lineOf h ∧ '\n' ∉ lineOf h := by
    intro h hmem
    rcases List.mem_append.mp hmem with hmem | hmem
    · obtain ⟨-, ⟨hnr, hnn⟩, hvr, hvn⟩ := headerFault?_eq_none_iff.mp (hheaders h hmem)
      exact ⟨not_mem_lineOf (by decide) hnr hvr, not_mem_lineOf (by decide) hnn hvn⟩
    · obtain rfl := List.mem_singleton.mp hmem
      obtain ⟨⟨-, -, -, hnr, hnn⟩, -, hvr, hvn, -⟩ := announced_parts r
      exact ⟨not_mem_lineOf (by decide) hnr hvr, not_mem_lineOf (by decide) hnn hvn⟩
  have hresult := read?_of_statusLine store hstatus hbytes
  cases hshown : Http.headersShown source.failure 0
      ((r.lines.flatten ++ lineEnd ++ (r.body ++ rest)).splitOn 10) with
  | error f =>
    rw [hshown] at hresult
    obtain ⟨e, he, -⟩ := hresult
    rw [hread] at he
    cases he
  | ok found =>
    obtain ⟨shown, left⟩ := found
    rw [hshown] at hresult
    obtain ⟨resp', hresp, -, hshows, hleft, -⟩ := hresult
    rw [hread] at hresp
    obtain rfl := Option.some.inj (Except.ok.inj hresp)
    obtain ⟨⟨rfl, hnames⟩, rfl⟩ := of_headersShown hlines 0 (r.body ++ rest) hshown
    rw [List.map_append, List.map_singleton, seen_announced] at hshows
    rw [List.intercalate_splitOn] at hleft
    exact ⟨hshows, fun h hmem => hnames h (List.mem_append_left _ hmem), hleft⟩

/-- **The length that is read** is that of the body, and the body is copied as it was sent, unless the
    reader sees the name of the length where another name was written. -/
theorem length_of_read
    (hnames : ∀ h ∈ r.headers, isContentLength (nameSeen h.1) = true → isContentLength h.1 = true)
    (hbody : r.body.length < UInt64.size) (hencode : r.encode? = .ok bytes)
    (hbytes : source.bytes = bytes ++ rest)
    (hread : (Response.read? store source).1 = .ok (some resp)) :
    ∃ n, Framing.ofHeaders resp.headers = .ok (.length n) ∧ n.toNat = r.body.length ∧
      ∀ sink : Sink, sink.Takes r.body.length →
        ((Framing.length n).copy (Response.read? store source).2 sink).result =
            .ok r.body.length ∧
          ((Framing.length n).copy (Response.read? store source).2 sink).sink.written.toList =
            sink.written.toList ++ r.body ∧
          ((Framing.length n).copy (Response.read? store source).2 sink).source.bytes = rest := by
  obtain ⟨hshows, hseen, hleft⟩ := shows_of_read hencode hbytes hread
  have hfirst : ∀ e ∈ r.sent.map seen, isContentLength e.1 = false := by
    intro e he
    obtain ⟨h, hmem, rfl⟩ := List.mem_map.mp he
    rw [hseen h hmem, Bool.eq_false_iff]
    intro hname
    have hlength := hnames h (List.mem_filter.mp hmem).1 hname
    rw [isContentLength_of_mem_sent hmem] at hlength
    cases hlength
  obtain ⟨n, hframing, hn⟩ :=
    framing_of_first hshows (find?_announced hfirst) (isDecimal_toString r.body.length) hbody
  exact ⟨n, hframing, hn, fun _ => copy_of_length hn hleft⟩

theorem length_of_read_brief :
    brief.encode? = .ok brief.written ∧ ∃ resp,
      (Response.read? (.ofChunkSize 4 (by decide)) (.ofSegments [brief.written] none)).1 =
          .ok (some resp) ∧
        ∃ n, Framing.ofHeaders resp.headers = .ok (.length n) ∧ n.toNat = 2 := by
  have hbytes : (Source.ofSegments [brief.written] none).bytes = brief.written ++ [] := by
    rw [Source.bytes_ofSegments, List.flatten_singleton, List.append_nil]
  obtain ⟨resp, hread, -⟩ := plain_brief.read?_written (.ofChunkSize 4 (by decide)) hbytes
  obtain ⟨n, hframing, hn, -⟩ :=
    length_of_read (by decide) (by decide) plain_brief.encode? hbytes hread
  exact ⟨plain_brief.encode?, resp, hread, n, hframing, hn⟩

/-- A response whose header is named like the length but for a space in front. -/
def masked : Reply := ⟨200, [(" Content-Length".toList, "0".toList)], Utf8.encode "hello".toList⟩

/-- **A header can mask the length**: it is sent, and read as the length of the body, which is
    another. -/
theorem length_of_read_masked :
    masked.encode? = .ok masked.written ∧ masked.body.length = 5 ∧ ∃ resp,
      (Response.read? (.ofChunkSize 4 (by decide)) (.ofSegments [masked.written] none)).1 =
          .ok (some resp) ∧
        Framing.ofHeaders resp.headers = .ok (.length 0) := by
  have hencode : masked.encode? = .ok masked.written :=
    encode?_eq_ok_iff.mpr ⟨by decide, rfl⟩
  have hbytes : (Source.ofSegments [masked.written] none).bytes =
      statusLine masked.status ++ (masked.lines.flatten ++ lineEnd ++ masked.body) := by
    rw [Source.bytes_ofSegments, List.flatten_singleton, written]
  have hshown : Http.headersShown none 0
      ((masked.lines.flatten ++ lineEnd ++ masked.body).splitOn 10) =
        .ok ([("Content-Length".toList, "0".toList), ("Content-Length".toList, "5".toList)],
          [masked.body]) := by
    decide +kernel
  have hread := read?_of_statusLine (.ofChunkSize 4 (by decide)) (r := masked) (by decide) hbytes
  rw [show (Source.ofSegments [masked.written] none).failure = none from rfl, hshown] at hread
  obtain ⟨resp, hresp, -, hshows, -⟩ := hread
  have hzero : RequestText.IsDecimal "0".toList 0 := isDecimal_toString 0
  obtain ⟨w, hframing, hw⟩ := framing_of_first hshows rfl hzero (by decide)
  obtain rfl : w = 0 := UInt64.toNat_inj.mp hw
  exact ⟨hencode, by decide, resp, hresp, hframing⟩

end Read

end Reply

end Sluice.Http
