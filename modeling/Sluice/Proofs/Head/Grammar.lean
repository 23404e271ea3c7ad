/-
  File:      Sluice/Proofs/Head/Grammar.lean
  Subject:   What the head of a message is, said by lines and words.

  * `HeadFault`, `MessageError.headFault?`: what may be wrong with a head;
  * `lineShown`: the text that a line shows;
  * `words`: the words of a text;
  * `headerShown`: the name and the value that a header line shows, or what is wrong with it;
  * `headersShown`, `requestShown`: a whole head, and the pieces behind it, with what each kind of
    line adds to it;
  * `headShown`: the same with start lines of any kind; `requestShown_eq_headShown` says that heads of
    requests are such heads;
  * `ResponseFault`, `statusLineShown`: what may be wrong with the head of a response, and the parts of
    its start line.

  All of it is said of the pieces between the line feeds; the last piece is what follows the last
  line feed, and no line.
-/
import Mathlib.Data.List.DropRight
import Sluice.Http.Message

namespace Sluice.Http

open Sluice.Wire (Failure)

/-! ## 1. Faults -/

/-- What may be wrong with the head of a request. -/
inductive HeadFault where
  | requestLine
  | headerLine
  | multipleColons
  | missingValue
  | lineTooLong
  | notUtf8
  | unsupported
  | endOfInput
  | transport
  deriving DecidableEq, Repr

/-- Which of them a fault of a message is, if any. -/
def MessageError.headFault? : MessageError → Option HeadFault
  | .startLine _ => some .requestLine
  | .headerLine _ => some .headerLine
  | .multipleColons _ => some .multipleColons
  | .missingValue _ => some .missingValue
  | .lineTooLong _ => some .lineTooLong
  | .notUtf8 _ => some .notUtf8
  | .unsupported _ => some .unsupported
  | .endOfInput _ => some .endOfInput
  | .transport _ => some .transport
  | .statusCode _ | .chunk _ | .contentLength _ => none

/-! ## 2. Lines and words -/

/-- The text that a line shows: at most `limit` bytes, one carriage return at the end not counted, and
    UTF-8. -/
def lineShown (limit : Nat) (line : List UInt8) : Except HeadFault Text :=
  let line := if line.getLast? = some 13 then line.dropLast else line
  if limit < line.length then .error .lineTooLong
  else
    match String.fromUTF8? line.toByteArray with
    | some s => .ok s.toList
    | none => .error .notUtf8

/-- The words of a text: what lies between its spaces, as far as it is not empty. -/
def words (text : Text) : List Text := (text.splitOn ' ').filter (!·.isEmpty)

/-- A space or a colon. -/
def isGap (c : Char) : Bool := c == ' ' || c == ':'

/-- What a header line shows: nothing, if it is empty but for spaces; otherwise the characters up to
    the first space or colon are the name, and those behind the run of spaces and colons that
    follows it the value, without spaces at its end. -/
def headerShown (line : Text) : Except HeadFault (Option (Text × Text)) :=
  let line := line.dropWhile (· == ' ')
  let name := line.takeWhile fun c => c != ' ' && c != ':'
  let gap := (line.drop name.length).takeWhile isGap
  let value := (line.drop (name.length + gap.length)).rdropWhile (· == ' ')
  if line = [] then .ok none
  else if name = [] ∨ gap.count ':' = 0 then .error .headerLine
  else if 1 < gap.count ':' then .error .multipleColons
  else if value = [] then .error .missingValue
  else .ok (some (name, value))

/-! ## 3. Heads -/

/-- The parts of a request's head, as texts. -/
structure RequestText where
  method : Text
  target : Text
  version : Text
  headers : List (Text × Text)
  deriving DecidableEq, Repr

/-- What is wrong where a line is missing: what is there of it is too long already, or the stream fails
    or ends. -/
def missingLine (limit : Nat) (failure : Option Failure) (tail : List UInt8) : HeadFault :=
  if limit + 1 < tail.length then .lineTooLong
  else if failure.isSome then .transport
  else .endOfInput

/-- The headers that lines show, up to the first empty one, `count` headers being there already: lines
    of at most 4096 bytes, and at most 32 headers. -/
def headersShown (failure : Option Failure) (count : Nat) :
    List (List UInt8) → Except HeadFault (List (Text × Text) × List (List UInt8))
  | line :: next :: pieces => do
    match ← headerShown (← lineShown 4096 line) with
    | none => .ok ([], next :: pieces)
    | some header =>
      if count < 32 then
        let (headers, left) ← headersShown failure (count + 1) (next :: pieces)
        .ok (header :: headers, left)
      else .error .unsupported
  | [tail] => .error (missingLine 4096 failure tail)
  | [] => .error (missingLine 4096 failure [])

/-- **The head of a request**: empty lines, which do not count, a line of at most 8192 bytes with
    exactly three words, and headers. No head is no fault where the input ends before the first byte
    of a line. -/
def requestShown (failure : Option Failure) :
    List (List UInt8) → Except HeadFault (Option (RequestText × List (List UInt8)))
  | line :: next :: pieces =>
    if line = [] ∨ line = [13] then requestShown failure (next :: pieces)
    else do
      match words (← lineShown 8192 line) with
      | [method, target, version] =>
        let (headers, left) ← headersShown failure 0 (next :: pieces)
        .ok (some (⟨method, target, version, headers⟩, left))
      | _ => .error .requestLine
  | [tail] =>
    if tail = [] ∧ failure = none then .ok none else .error (missingLine 8192 failure tail)
  | [] => if failure = none then .ok none else .error (missingLine 8192 failure [])

/-- **The head of a message** of any kind: the same, but for the start line, which is what `start` says
    of its text, with faults of its own besides those of all heads. -/
def headShown {α φ : Type} (ofHead : HeadFault → φ) (start : Text → Except φ α)
    (failure : Option Failure) :
    List (List UInt8) → Except φ (Option (α × List (Text × Text) × List (List UInt8)))
  | line :: next :: pieces =>
    if line = [] ∨ line = [13] then headShown ofHead start failure (next :: pieces)
    else do
      let shown ← start (← (lineShown 8192 line).mapError ofHead)
      let (headers, left) ← (headersShown failure 0 (next :: pieces)).mapError ofHead
      .ok (some (shown, headers, left))
  | [tail] =>
    if tail = [] ∧ failure = none then .ok none
    else .error (ofHead (missingLine 8192 failure tail))
  | [] => if failure = none then .ok none else .error (ofHead (missingLine 8192 failure []))

/-- The three words of a request line. -/
def requestLineShown (line : Text) : Except HeadFault (Text × Text × Text) :=
  match words line with
  | [method, target, version] => .ok (method, target, version)
  | _ => .error .requestLine

/-- What may be wrong with the head of a response: what may be wrong with any, or its status code. -/
inductive ResponseFault where
  | head (f : HeadFault)
  | statusCode
  deriving DecidableEq, Repr

/-- Which of them a fault of a message is, if any. -/
def MessageError.responseFault? : MessageError → Option ResponseFault
  | .statusCode _ => some .statusCode
  | e => e.headFault?.map .head

/-- The parts of a status line: the first word is the version, the second one, which must be one to
    three ASCII digits, the status code, and everything behind the spaces that follow it the reason. -/
def statusLineShown (line : Text) : Except ResponseFault (Text × Text × Text) :=
  let line := line.dropWhile (· == ' ')
  let version := line.takeWhile (· != ' ')
  let rest := (line.drop version.length).dropWhile (· == ' ')
  let code := rest.takeWhile (· != ' ')
  let reason := (rest.drop code.length).dropWhile (· == ' ')
  if version = [] then .error (.head .requestLine)
  else if 0 < code.length ∧ code.length ≤ 3 ∧ code.all Char.isDigit = true then
    .ok (version, code, reason)
  else .error .statusCode

/-! ## 4. Line by line -/

section Lines

variable {failure : Option Failure} {count : Nat} {line next : List UInt8}
  {pieces : List (List UInt8)} {t : Text} {f : HeadFault}

/-- A faulty line among the headers. -/
theorem headersShown_error (h : lineShown 4096 line = .error f) :
    headersShown failure count (line :: next :: pieces) = .error f := by
  rw [headersShown, h]
  rfl

/-- A line that is no header. -/
theorem headersShown_fault (h : lineShown 4096 line = .ok t) (ht : headerShown t = .error f) :
    headersShown failure count (line :: next :: pieces) = .error f := by
  rw [headersShown, h]
  show headerShown t >>= _ = _
  rw [ht]
  rfl

/-- The empty line behind the headers. -/
theorem headersShown_end (h : lineShown 4096 line = .ok t) (ht : headerShown t = .ok none) :
    headersShown failure count (line :: next :: pieces) = .ok ([], next :: pieces) := by
  rw [headersShown, h]
  show headerShown t >>= _ = _
  rw [ht]
  rfl

/-- A header line, if there may be a further header. -/
theorem headersShown_header {header : Text × Text} (h : lineShown 4096 line = .ok t)
    (ht : headerShown t = .ok (some header)) :
    headersShown failure count (line :: next :: pieces) =
      if count < 32 then
        (headersShown failure (count + 1) (next :: pieces)).map fun r => (header :: r.1, r.2)
      else .error .unsupported := by
  rw [headersShown, h]
  show headerShown t >>= _ = _
  rw [ht]
  show (if count < 32 then headersShown failure (count + 1) (next :: pieces) >>= _ else _) = _
  by_cases hc : count < 32
  · rw [if_pos hc, if_pos hc]
    cases headersShown failure (count + 1) (next :: pieces) <;> rfl
  · rw [if_neg hc, if_neg hc]

/-- An empty line before a head. -/
theorem requestShown_blank (h : line = [] ∨ line = [13]) :
    requestShown failure (line :: next :: pieces) = requestShown failure (next :: pieces) := by
  rw [requestShown, if_pos h]

/-- A start line of three words. -/
theorem requestShown_words {method target version : Text} (hline : ¬ (line = [] ∨ line = [13]))
    (h : lineShown 8192 line = .ok t) (hwords : words t = [method, target, version]) :
    requestShown failure (line :: next :: pieces) =
      (headersShown failure 0 (next :: pieces)).map fun r =>
        some (⟨method, target, version, r.1⟩, r.2) := by
  rw [requestShown, if_neg hline, h]
  dsimp only [bind, Except.bind]
  rw [hwords]
  dsimp only
  cases headersShown failure 0 (next :: pieces) <;> rfl

section AnyHead

variable {α φ : Type} {ofHead : HeadFault → φ} {start : Text → Except φ α}

/-- An empty line before a head. -/
theorem headShown_blank (h : line = [] ∨ line = [13]) :
    headShown ofHead start failure (line :: next :: pieces) =
      headShown ofHead start failure (next :: pieces) := by
  rw [headShown, if_pos h]

/-- A start line that shows no text. -/
theorem headShown_error (hline : ¬ (line = [] ∨ line = [13])) (h : lineShown 8192 line = .error f) :
    headShown ofHead start failure (line :: next :: pieces) = .error (ofHead f) := by
  rw [headShown, if_neg hline, h]
  rfl

/-- A start line at fault. -/
theorem headShown_fault {fault : φ} (hline : ¬ (line = [] ∨ line = [13]))
    (h : lineShown 8192 line = .ok t) (hstart : start t = .error fault) :
    headShown ofHead start failure (line :: next :: pieces) = .error fault := by
  rw [headShown, if_neg hline, h]
  show start t >>= _ = _
  rw [hstart]
  rfl

/-- A start line, and the headers behind it. -/
theorem headShown_start {shown : α} (hline : ¬ (line = [] ∨ line = [13]))
    (h : lineShown 8192 line = .ok t) (hstart : start t = .ok shown) :
    headShown ofHead start failure (line :: next :: pieces) =
      match headersShown failure 0 (next :: pieces) with
      | .error f => .error (ofHead f)
      | .ok (headers, left) => .ok (some (shown, headers, left)) := by
  rw [headShown, if_neg hline, h]
  show start t >>= _ = _
  rw [hstart]
  show (headersShown failure 0 (next :: pieces)).mapError ofHead >>= _ = _
  cases headersShown failure 0 (next :: pieces) <;> rfl

end AnyHead

/-- **The head of a request** is a head behind a request line. -/
theorem requestShown_eq_headShown (failure : Option Failure) (pieces : List (List UInt8)) :
    requestShown failure pieces =
      (headShown id requestLineShown failure pieces).map
        (·.map fun r => (⟨r.1.1, r.1.2.1, r.1.2.2, r.2.1⟩, r.2.2)) := by
  induction pieces with
  | nil =>
    rw [requestShown, headShown]
    split <;> rfl
  | cons line rest ih =>
    cases rest with
    | nil =>
      rw [requestShown, headShown]
      split <;> rfl
    | cons next pieces =>
      rw [requestShown, headShown]
      by_cases hblank : line = [] ∨ line = [13]
      · rw [if_pos hblank, if_pos hblank]
        exact ih
      · rw [if_neg hblank, if_neg hblank]
        cases lineShown 8192 line with
        | error f => rfl
        | ok t =>
          show (match words t with | [method, target, version] => _ | _ => _) = _
          unfold requestLineShown
          dsimp only [bind, Except.bind, Except.mapError]
          split
          · cases headersShown failure 0 (next :: pieces) <;> rfl
          · rfl

end Lines

end Sluice.Http
