/-
  File:      Sluice/Http/Headers.lean
  Subject:   The headers of a message: an index of offsets into its text.

  * `HeaderTable`: six words a header in one array, and the number of headers;
  * `HeaderEntry.ofRanges`, `HeaderTable.put`: one header more, with its hashes computed once;
  * `Headers`: a table with the text it points into;
  * `get?`, `getAll`, `contains`: lookups by name, hashes first, the characters to confirm;
  * `entries`: the view, all pairs of name and value in the order of the lines.
-/
import Sluice.Buffer.TextView
import Sluice.Http.Error

namespace Sluice.Http

/-- The headers a message may have. -/
def maxHeaders : Nat := 32

/-- The words of one header in the index: two hashes and four offsets. -/
def headerWords : Nat := 6

/-- The length of an index array. -/
def headerArraySize : Nat := maxHeaders * headerWords

/-- The places of the six words. -/
inductive HeaderWord where
  | nameHash
  | valueHash
  | nameStart
  | nameStop
  | valueStart
  | valueStop
  deriving DecidableEq, Repr

/-- The place of a word within its header. -/
def HeaderWord.place : HeaderWord → Nat
  | .nameHash => 0
  | .valueHash => 1
  | .nameStart => 2
  | .nameStop => 3
  | .valueStart => 4
  | .valueStop => 5

/-- A part of a text: the positions from `start` up to `stop`. -/
structure Span where
  start : Nat
  stop : Nat
  deriving DecidableEq, Repr

/-- One header line: where its name and its value lie, and their hashes. -/
structure HeaderEntry where
  nameHash : UInt32
  valueHash : UInt32
  name : Span
  value : Span
  deriving DecidableEq, Repr

/-- The index of the headers of one message. -/
structure HeaderTable where
  cells : Array UInt32
  size : Nat
  deriving Repr

namespace HeaderTable

/-- An index without headers, over an array that may hold anything. -/
def ofCells (cells : Array UInt32) : HeaderTable := ⟨cells, 0⟩

/-- An offset as a word of the index. -/
def offset? (n : Nat) : Except MessageError UInt32 :=
  if n < UInt32.size then .ok (UInt32.ofNat n) else .error (.unsupported (.headerOffset n))

/-- One word of one header. -/
def cell (t : HeaderTable) (entry : Nat) (word : HeaderWord) : UInt32 :=
  (t.cells[entry * headerWords + word.place]?).getD 0

/-- One word of one header written. -/
def setCell (t : HeaderTable) (entry : Nat) (word : HeaderWord) (value : UInt32) : HeaderTable :=
  { t with cells := t.cells.setIfInBounds (entry * headerWords + word.place) value }

/-- One header more, if there is room for it. -/
def put (t : HeaderTable) (e : HeaderEntry) : Except MessageError HeaderTable :=
  if t.size < maxHeaders then do
    let nameStart ← offset? e.name.start
    let nameStop ← offset? e.name.stop
    let valueStart ← offset? e.value.start
    let valueStop ← offset? e.value.stop
    let filled := ((((((t.setCell t.size .nameHash e.nameHash).setCell t.size .valueHash e.valueHash
      ).setCell t.size .nameStart nameStart).setCell t.size .nameStop nameStop
      ).setCell t.size .valueStart valueStart).setCell t.size .valueStop valueStop)
    .ok { filled with size := t.size + 1 }
  else .error (.unsupported (.tooManyHeaders maxHeaders))

end HeaderTable

/-- The headers of a message: the index, and the text it points into. -/
structure Headers where
  table : HeaderTable
  buffer : CharBuffer
  deriving Repr

namespace Headers

/-! ## 1. Entries -/

/-- The number of headers. -/
def size (h : Headers) : Nat := h.table.size

/-- The message has no headers. -/
def isEmpty (h : Headers) : Bool := h.table.size == 0

/-- The name of a header. -/
def name (h : Headers) (i : Nat) : TextView :=
  .range h.buffer (h.table.cell i .nameStart).toNat (h.table.cell i .nameStop).toNat

/-- The value of a header. -/
def value (h : Headers) (i : Nat) : TextView :=
  .range h.buffer (h.table.cell i .valueStart).toNat (h.table.cell i .valueStop).toNat

/-- The stored hash of a value. -/
def valueHash? (h : Headers) (i : Nat) : Option UInt32 :=
  if i < h.size then some (h.table.cell i .valueHash) else none

/-- All names and values, in the order of the header lines. -/
def entries (h : Headers) : List (TextView × TextView) :=
  (List.range h.size).map fun i => (h.name i, h.value i)

/-! ## 2. Lookups -/

/-- Header `i` has the given name, up to case; the stored hash is compared before the text. -/
def isNamed (h : Headers) (name : Text) (i : Nat) : Bool :=
  h.table.cell i .nameHash == name.hashLower && (h.name i).eqFold name

/-- The value of the first header of a name. -/
def get? (h : Headers) (name : Text) : Option TextView :=
  ((List.range h.size).find? (h.isNamed name)).map h.value

/-- The values of all headers of a name, in the order of their lines. -/
def getAll (h : Headers) (name : Text) : List TextView :=
  ((List.range h.size).filter (h.isNamed name)).map h.value

/-- There is a header of a name. -/
def contains (h : Headers) (name : Text) : Bool := (h.get? name).isSome

/-- The headers for diagnostics. -/
def quoted (h : Headers) : Text :=
  let items := h.entries.map fun (n, v) => n.quoted ++ ": ".toList ++ v.quoted
  ['\x7b'] ++ (", ".toList).intercalate items ++ ['\x7d']

end Headers

end Sluice.Http
