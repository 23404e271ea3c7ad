/-
  File:      Sluice/Http/Message.lean
  Subject:   Message heads, read from a byte stream.

  * `Request`, `Response`: a parsed head, its text in one buffer and its fields as parts of it;
  * `HeadState`, `headFeeder`: the machine that reads a head line by line, for either kind of
    start line;
  * `Store`: what a head is laid down in, a chunk size and an index array with room for every header
    that may hold anything;
  * `Request.read?`, `Response.read?`: the next head of a stream, or none if it ends before one.
-/
import Sluice.Http.Head
import Sluice.Http.Line

namespace Sluice.Http

open Sluice.Wire

/-- The most bytes a start line may have. -/
def startLineLimit : Nat := 8192

/-- The most bytes a header line may have. -/
def headerLineLimit : Nat := 4096

/-! ## 1. Heads -/

/-- The head of a request. -/
structure Request where
  line : RequestLine
  table : HeaderTable
  buffer : CharBuffer
  deriving Repr

namespace Request

/-- The method. -/
def method (r : Request) : Method := r.line.method

/-- The method as it was sent. -/
def methodName (r : Request) : TextView := r.line.methodText.view r.buffer

/-- The target. -/
def uri (r : Request) : TextView := r.line.uri.view r.buffer

/-- The version. -/
def version (r : Request) : TextView := r.line.version.view r.buffer

/-- The headers. -/
def headers (r : Request) : Headers := ⟨r.table, r.buffer⟩

/-- The value of the first header of a name. -/
def header? (r : Request) (name : Text) : Option TextView := r.headers.get? name

/-- The request for diagnostics. -/
def quoted (r : Request) : Text :=
  "Request \x7b method: ".toList ++ r.methodName.quoted ++ ", uri: ".toList ++ r.uri.quoted ++
    ", version: ".toList ++ r.version.quoted ++ ", headers: ".toList ++ r.headers.quoted ++
    " \x7d".toList

end Request

/-- The head of a response. -/
structure Response where
  line : StatusLine
  table : HeaderTable
  buffer : CharBuffer
  deriving Repr

namespace Response

/-- The version. -/
def version (r : Response) : TextView := r.line.version.view r.buffer

/-- The status code. -/
def status (r : Response) : Nat := r.line.status

/-- The rest of the status line. -/
def statusText (r : Response) : TextView := r.line.statusText.view r.buffer

/-- The headers. -/
def headers (r : Response) : Headers := ⟨r.table, r.buffer⟩

/-- The value of the first header of a name. -/
def header? (r : Response) (name : Text) : Option TextView := r.headers.get? name

/-- The response for diagnostics. -/
def quoted (r : Response) : Text :=
  "Response \x7b version: ".toList ++ r.version.quoted ++ ", status: ".toList ++
    (toString r.status).toList ++ ", status_text: ".toList ++ r.statusText.quoted ++
    ", headers: ".toList ++ r.headers.quoted ++ " \x7d".toList

end Response

/-! ## 2. Reading a head -/

/-- How far a head is read: before its start line, or among its header lines. -/
inductive HeadPhase (β : Type) where
  | start
  | headers (line : β) (table : HeaderTable)

/-- A head half read: its text so far, and what is gathered of the current line. -/
structure HeadState (β : Type) where
  phase : HeadPhase β
  buffer : CharBuffer
  gathered : Array UInt8

/-- A head read to its end. -/
structure Head (β : Type) where
  line : β
  table : HeaderTable
  buffer : CharBuffer

/-- What a head is laid down in: the size of its chunks, and its index array. -/
structure Store where
  chunkSize : Nat
  chunkSize_pos : 0 < chunkSize
  cells : Array UInt32
  cells_size : cells.size = headerArraySize

/-- A store with an index of zeros. -/
def Store.ofChunkSize (chunkSize : Nat) (h : 0 < chunkSize) : Store :=
  ⟨chunkSize, h, Array.replicate headerArraySize 0, Array.size_replicate⟩

/-- Nothing read yet. -/
def HeadState.fresh {β : Type} (store : Store) : HeadState β :=
  ⟨.start, .empty store.chunkSize store.chunkSize_pos, #[]⟩

section Reading

variable {β : Type} (startLine : Text → Except MessageError β) (store : Store)

/-- A complete line put into a head: an empty line before the start line does not count, an empty
    line behind it ends the head. -/
def HeadState.addLine (s : HeadState β) (line : Text) :
    HeadState β × Verdict (Option (Head β)) :=
  let base := s.buffer.size
  let buffer := s.buffer.append line
  match s.phase with
  | .start =>
    if buffer.size = 0 then (⟨.start, buffer, #[]⟩, .more)
    else
      match startLine line with
      | .error e => (⟨.start, buffer, #[]⟩, .fault e)
      | .ok parsed => (⟨.headers parsed (.ofCells store.cells), buffer, #[]⟩, .more)
  | .headers parsed table =>
    match headerOfLine base line with
    | .error e => (⟨.headers parsed table, buffer, #[]⟩, .fault e)
    | .ok none => (⟨.headers parsed table, buffer, #[]⟩, .done (some ⟨parsed, table, buffer⟩))
    | .ok (some entry) =>
      match table.put entry with
      | .error e => (⟨.headers parsed table, buffer, #[]⟩, .fault e)
      | .ok table => (⟨.headers parsed table, buffer, #[]⟩, .more)

/-- The limit of the line that is being read. -/
def HeadState.limit (s : HeadState β) : Nat :=
  match s.phase with
  | .start => startLineLimit
  | .headers _ _ => headerLineLimit

/-- One step: a line completed, or more of it gathered. -/
def HeadState.feed (s : HeadState β) (bytes : List UInt8) :
    Step (HeadState β) (Option (Head β)) :=
  match feedLine s.limit s.gathered bytes with
  | .line t n =>
    let (s, verdict) := s.addLine startLine store t
    ⟨s, [], n, verdict⟩
  | .more gathered n => ⟨{ s with gathered }, [], n, .more⟩
  | .fault e => ⟨s, [], 0, .fault e⟩

/-- The input ends: cleanly before a head, and never inside one. -/
def HeadState.atEnd (s : HeadState β) : Except MessageError (Option (Head β)) :=
  match lineAtEnd s.gathered, s.phase with
  | .error e, _ => .error e
  | .ok _, .start => .ok none
  | .ok _, .headers _ _ => .error (.endOfInput .headers)

end Reading

/-- The machine that reads one head. -/
def headFeeder {β : Type} (startLine : Text → Except MessageError β) (store : Store) :
    Feeder (HeadState β) (Option (Head β)) where
  feed s bytes := s.feed startLine store bytes
  atEnd s := s.atEnd
  consumed_pos s b bs h := by
    simp only [HeadState.feed] at h ⊢
    split at h
    · exact consumed_pos_of_line ‹_›
    · exact consumed_pos_of_more ‹_›
    · simp at h

/-- A head takes up at least a byte. -/
theorem consumed_pos_of_head {β : Type} {startLine : Text → Except MessageError β} {store : Store}
    {s : HeadState β} {bytes : List UInt8} {r : Option (Head β)}
    (h : ((headFeeder startLine store).feed s bytes).verdict = .done r) :
    0 < ((headFeeder startLine store).feed s bytes).consumed := by
  simp only [headFeeder, HeadState.feed] at h ⊢
  split at h
  · exact consumed_pos_of_line ‹_›
  · cases h
  · cases h

/-- The next head of a stream. -/
def Head.read? {β : Type} (startLine : Text → Except MessageError β) (store : Store)
    (source : Source) : Except MessageError (Option (Head β)) × Source :=
  (headFeeder startLine store).read (.fresh store) source

/-- A head as a request. -/
def Request.ofHead (h : Head RequestLine) : Request := ⟨h.line, h.table, h.buffer⟩

/-- A head as a response. -/
def Response.ofHead (h : Head StatusLine) : Response := ⟨h.line, h.table, h.buffer⟩

/-- The next request of a stream; none if the stream ends before one begins. The body stays
    unread. -/
def Request.read? (store : Store) (source : Source) :
    Except MessageError (Option Request) × Source :=
  let (r, source) := Head.read? RequestLine.ofText store source
  (r.map (·.map .ofHead), source)

/-- **A request takes up input.** -/
theorem Request.size_read?_lt {store : Store} {source : Source} {r : Request}
    (h : (Request.read? store source).1 = .ok (some r)) :
    (Request.read? store source).2.size < source.size := by
  simp only [Request.read?, Head.read?] at h ⊢
  cases hr : ((headFeeder RequestLine.ofText store).read (.fresh store) source).1 with
  | error e => rw [hr] at h; cases h
  | ok o =>
    refine Feeder.size_read_lt (P := fun o => o.isSome = true)
      (fun _ _ _ _ hv => consumed_pos_of_head hv) ?_ ?_ hr
    · intro s o ho
      simp only [headFeeder, HeadState.atEnd] at ho
      split at ho <;> cases ho
      simp
    · rw [hr] at h
      cases o with
      | none => cases h
      | some head => rfl

/-- The next response of a stream; none if the stream ends before one begins. The body stays
    unread. -/
def Response.read? (store : Store) (source : Source) :
    Except MessageError (Option Response) × Source :=
  let (r, source) := Head.read? StatusLine.ofText store source
  (r.map (·.map .ofHead), source)

end Sluice.Http
