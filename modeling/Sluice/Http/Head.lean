/-
  File:      Sluice/Http/Head.lean
  Subject:   The lines of a message head: which parts of them are what.

  * `Cursor`: the unread rest of a line, with its position in the text of the message;
  * `TextRef`: a part of the message, or a literal that says the same;
  * `RequestLine.ofText`, `StatusLine.ofText`: the two kinds of start line;
  * `headerOfLine`: a header line, the empty line that ends a head, or the fault.

  Only the space character separates words.
-/
import Sluice.Http.Headers
import Sluice.Http.Method

namespace Sluice.Http

/-! ## 1. Reading along a line -/

/-- The unread rest of a line, its first character standing at `pos` in the text of the message. -/
structure Cursor where
  pos : Nat
  rest : Text
  deriving DecidableEq, Repr

namespace Cursor

/-- Past the characters of a class at the front: the span they take, and the rest. -/
def takeWhile (p : Char → Bool) (c : Cursor) : Span × Cursor :=
  let n := (c.rest.takeWhile p).length
  (⟨c.pos, c.pos + n⟩, ⟨c.pos + n, c.rest.dropWhile p⟩)

/-- Past `n` characters. -/
def advance (c : Cursor) (n : Nat) : Cursor := ⟨c.pos + n, c.rest.drop n⟩

/-- Past the spaces. -/
def skipSpaces (c : Cursor) : Cursor := (c.takeWhile (· == ' ')).2

/-- The characters up to the next space. -/
def word (c : Cursor) : Span × Cursor := c.takeWhile (· != ' ')

/-- The characters up to the next space or colon. -/
def name (c : Cursor) : Span × Cursor := c.takeWhile fun ch => ch != ' ' && ch != ':'

/-- Past spaces and colons, counting the colons; the second colon is counted and not passed. -/
def separator (colons : Nat) (pos : Nat) : Text → Nat × Cursor
  | [] => (colons, ⟨pos, []⟩)
  | c :: cs =>
    if c = ':' then
      if 0 < colons then (colons + 1, ⟨pos, c :: cs⟩) else separator (colons + 1) (pos + 1) cs
    else if c = ' ' then separator colons (pos + 1) cs
    else (colons, ⟨pos, c :: cs⟩)

/-- Without the spaces at the end. -/
def trimRight (c : Cursor) : Cursor :=
  { c with rest := (c.rest.reverse.dropWhile (· == ' ')).reverse }

end Cursor

/-- Where a part of a message is: a literal that equals it, or a span of the message's text. -/
inductive TextRef where
  | literal (text : Text)
  | span (s : Span)
  deriving DecidableEq, Repr

/-- The part as a view. -/
def TextRef.view (buffer : CharBuffer) : TextRef → TextView
  | .literal t => .literal t
  | .span s => .range buffer s.start s.stop

/-! ## 2. Start lines -/

/-- The versions that are known by name. -/
def versionTrie : WordTrie Text :=
  .ofWords (["HTTP/1.0", "HTTP/1.1"].map fun v => (v.toList, v.toList))

/-- The method of a request line. -/
def readMethod (c : Cursor) : Except MessageError (Method × TextRef × Cursor) :=
  let c := c.skipSpaces
  match Method.trie.search (· == ' ') c.rest with
  | some ((method, name), n) => .ok (method, .literal name, c.advance n)
  | none =>
    let (s, c) := c.word
    if s.start < s.stop then .ok (.custom, .span s, c) else .error (.startLine .missingMethod)

/-- The target of a request line; the root alone is a literal. -/
def readTarget (c : Cursor) : Except MessageError (TextRef × Cursor) :=
  let c := c.skipSpaces
  let (s, after) := c.word
  if s.start < s.stop then
    if s.stop - s.start = 1 ∧ c.rest.head? = some '/' then .ok (.literal ['/'], after)
    else .ok (.span s, after)
  else .error (.startLine .missingTarget)

/-- The version of a start line. -/
def readVersion (c : Cursor) : Except MessageError (TextRef × Cursor) :=
  let c := c.skipSpaces
  match versionTrie.search (· == ' ') c.rest with
  | some (version, n) => .ok (.literal version, c.advance n)
  | none =>
    let (s, c) := c.word
    if s.start < s.stop then .ok (.span s, c) else .error (.startLine .missingVersion)

/-- The digits of a status code, `digits` of them being read already with value `status`. -/
def readDigits (digits status pos : Nat) : Text → Except MessageError (Nat × Nat × Cursor)
  | [] => .ok (digits, status, ⟨pos, []⟩)
  | c :: cs =>
    if c = ' ' then .ok (digits, status, ⟨pos, c :: cs⟩)
    else
      match Radix.digit? 10 c with
      | none => .error (.statusCode (.illegalCharacter c (c :: cs)))
      | some d =>
        if digits < 3 then readDigits (digits + 1) (status * 10 + d) (pos + 1) cs
        else .error (.statusCode (.tooManyDigits (c :: cs)))

/-- The status code of a status line: one to three digits. -/
def readStatus (c : Cursor) : Except MessageError (Nat × Cursor) :=
  let c := c.skipSpaces
  match readDigits 0 0 c.pos c.rest with
  | .error e => .error e
  | .ok (digits, status, c) =>
    if 0 < digits then .ok (status, c) else .error (.statusCode .missing)

/-- The three words of a request line. -/
structure RequestLine where
  method : Method
  methodText : TextRef
  uri : TextRef
  version : TextRef
  deriving DecidableEq, Repr

/-- A request line read from left to right: method, target, version, and nothing after them. -/
def RequestLine.ofText (line : Text) : Except MessageError RequestLine := do
  let (method, methodText, c) ← readMethod ⟨0, line⟩
  let (uri, c) ← readTarget c
  let (version, c) ← readVersion c
  let c := c.skipSpaces
  if c.rest.isEmpty then .ok ⟨method, methodText, uri, version⟩
  else .error (.startLine (.trailing c.rest))

/-- The parts of a status line. -/
structure StatusLine where
  version : TextRef
  status : Nat
  statusText : TextRef
  deriving DecidableEq, Repr

/-- A status line read from left to right: version, status code, and the rest as it is. -/
def StatusLine.ofText (line : Text) : Except MessageError StatusLine := do
  let (version, c) ← readVersion ⟨0, line⟩
  let (status, c) ← readStatus c
  let c := c.skipSpaces
  .ok ⟨version, status, .span ⟨c.pos, c.pos + c.rest.length⟩⟩

/-! ## 3. Header lines -/

/-- A header line at position `base` of the message's text; nothing for a line that is empty but
    for spaces. The faults are looked for in the order name, colons, value. -/
def headerOfLine (base : Nat) (line : Text) : Except MessageError (Option HeaderEntry) :=
  let c := (⟨base, line⟩ : Cursor).skipSpaces
  if c.rest.isEmpty then .ok none
  else
    let (nameSpan, after) := c.name
    let name : Text := c.rest.take (nameSpan.stop - nameSpan.start)
    if nameSpan.start < nameSpan.stop then
      match Cursor.separator 0 after.pos after.rest with
      | (0, _) => .error (.headerLine (.noColon c.rest))
      | (1, value) =>
        let value := value.trimRight
        if value.rest.isEmpty then .error (.missingValue name)
        else
          .ok (some
            { nameHash := name.hashLower
              valueHash := Text.hashLower value.rest
              name := nameSpan
              value := ⟨value.pos, value.pos + value.rest.length⟩ })
      | _ => .error (.multipleColons name)
    else .error (.headerLine (.emptyName c.rest))

end Sluice.Http
