/-
  File:      Sluice/Buffer/TextView.lean
  Subject:   Read-only views of text: a literal, or a range of a buffer.

  * `TextView`, `toText`: the two kinds and the text they show;
  * `length`, `get`, `sub`: by position, with the bounds checked;
  * `startsWith`, `eqFold`, `hashLower`, `decimal?`, `hex?`, `quoted` and the others: the queries,
    each of them a function of the text shown;
  * `Walk`: reading a range one character at a time, with the number still to come.
-/
import Sluice.Buffer.CharBuffer
import Sluice.Text.Escape
import Sluice.Text.Radix
import Sluice.Text.Utf8

namespace Sluice

/-- A piece of text that is not copied: a literal of the program, or the positions from `start` up
    to `stop` of a buffer. -/
inductive TextView where
  | literal (text : Text)
  | range (buffer : CharBuffer) (start stop : Nat)
  deriving Repr

namespace TextView

/-! ## 1. Positions -/

/-- The text shown. -/
def toText : TextView → Text
  | .literal t => t
  | .range b start stop => (List.range' start (stop - start)).filterMap b.charAt?

/-- The number of characters. -/
def length : TextView → Nat
  | .literal t => t.length
  | .range _ start stop => stop - start

/-- No character. -/
def isEmpty : TextView → Bool
  | .literal t => t.isEmpty
  | .range _ start stop => start == stop

/-- The character at a position. -/
def get (v : TextView) (i : Nat) : Except BufferError Char :=
  let outside := .error (.indexOutOfBounds i v.length)
  match v with
  | .literal t =>
    match t[i]? with
    | some c => .ok c
    | none => outside
  | .range b start stop =>
    if i < stop - start then
      match b.charAt? (start + i) with
      | some c => .ok c
      | none => outside
    else outside

/-- The view of a part, its bounds counted from the start of this view. A literal is cut between its
    bytes, a range gets other bounds. -/
def sub (v : TextView) (start stop : Nat) : Except BufferError TextView :=
  if start ≤ stop ∧ stop ≤ v.length then
    match v with
    | .literal t => .ok (.literal (Utf8.cut t (Utf8.offset t start) (Utf8.offset t stop)))
    | .range b base _ => .ok (.range b (base + start) (base + stop))
  else .error (.invalidRange start stop v.length)

/-! ## 2. Queries -/

/-- The view begins with a text. -/
def startsWith (v : TextView) (t : Text) : Bool := v.toText.startsWith t

/-- The view begins with a text, up to case. -/
def startsWithFold (v : TextView) (t : Text) : Bool := v.toText.startsWithFold t

/-- The view shows a text, up to case. -/
def eqFold (v : TextView) (t : Text) : Bool := v.toText.eqFold t

/-- The view shows a text. -/
def eqText (v : TextView) (t : Text) : Bool := v.toText == t

/-- Two views, of either kind, show one text. -/
def same (v w : TextView) : Bool := v.length == w.length && v.toText == w.toText

/-- The hash of the text shown. -/
def hashLower (v : TextView) : UInt32 := v.toText.hashLower

/-- The text shown as a number in radix ten. -/
def decimal? (v : TextView) : Option UInt64 :=
  if v.isEmpty then none else Radix.decimal? v.toText

/-- The text shown as a number in radix sixteen. -/
def hex? (v : TextView) : Option UInt64 :=
  if v.isEmpty then none else Radix.hex? v.toText

/-- A text of one's own: a literal needs no copy (`true`), a range is copied out of its chunks. -/
def ownText : TextView → Bool × Text
  | .literal t => (true, t)
  | .range b start stop => (false, b.copyRange start stop)

/-- The view between double quotes, for diagnostics. -/
def quoted (v : TextView) : Text := Text.quote v.ownText.2

/-! ## 3. Reading on -/

/-- A place inside a range. -/
structure Walk where
  buffer : CharBuffer
  index : Nat
  stop : Nat

namespace Walk

/-- The next character and the place behind it. -/
def next? (w : Walk) : Option (Char × Walk) :=
  if w.index < w.stop then
    match w.buffer.charAt? w.index with
    | some c => some (c, { w with index := w.index + 1 })
    | none => none
  else none

/-- How many characters are still to come. -/
def remaining (w : Walk) : Nat := w.stop - w.index

/-- The place after `n` characters, or at the end. -/
def skip (w : Walk) : Nat → Walk
  | 0 => w
  | n + 1 =>
    match w.next? with
    | some (_, w) => w.skip n
    | none => w

end Walk

/-- The start of a range. -/
def walk? : TextView → Option Walk
  | .literal _ => none
  | .range b start stop => some ⟨b, start, stop⟩

@[simp] theorem length_literal (t : Text) : (literal t).length = t.length := rfl

@[simp] theorem toText_literal (t : Text) : (literal t).toText = t := rfl

end TextView

namespace CharBuffer

/-- The view of all of a buffer. -/
def whole (b : CharBuffer) : TextView := .range b 0 b.size

/-- The character at a position, or the bound it breaks. -/
def get (b : CharBuffer) (i : Nat) : Except BufferError Char :=
  if i < b.size then
    match b.charAt? i with
    | some c => .ok c
    | none => .error (.indexOutOfBounds i b.size)
  else .error (.indexOutOfBounds i b.size)

/-- The view of a part, or the bounds it breaks. -/
def sub (b : CharBuffer) (start stop : Nat) : Except BufferError TextView :=
  if start ≤ stop ∧ stop ≤ b.size then .ok (.range b start stop)
  else .error (.invalidRange start stop b.size)

/-- The hash of a part. -/
def hashLower (b : CharBuffer) (start stop : Nat) : Except BufferError UInt32 :=
  (b.sub start stop).map (·.hashLower)

/-- A part compared with a text, up to case. -/
def eqFold (b : CharBuffer) (start stop : Nat) (t : Text) : Except BufferError Bool :=
  (b.sub start stop).map (·.eqFold t)

end CharBuffer

end Sluice
