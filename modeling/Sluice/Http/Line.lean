/-
  File:      Sluice/Http/Line.lean
  Subject:   Lines of text out of a byte stream, bounded in length.

  * `splitLine`: the bytes before the first line feed;
  * `lineText`: the text of a line without its terminator;
  * `feedLine`: the bytes at hand, behind those gathered of a line, as a line, as more to gather,
    or as a fault;
  * `gather`: what is gathered once they are read;
  * `readLine`: one line of a stream.

  A line feed ends a line, and one carriage return before it belongs to the terminator. A line
  that lies in one segment is decoded in place; otherwise it is gathered first, and one byte more
  than the limit may be gathered, because the last one may turn out to be the carriage return.
-/
import Sluice.Buffer.CharBuffer
import Sluice.Wire.Feeder

namespace Sluice.Http

open Sluice.Wire

/-- The bytes before the first line feed, if there is one. -/
def splitLine : List UInt8 → Option (List UInt8)
  | [] => none
  | b :: bs => if b = 10 then some [] else (splitLine bs).map (b :: ·)

/-- A line without the carriage return at its end. -/
def dropReturn (line : List UInt8) : List UInt8 :=
  if line.getLast? = some 13 then line.dropLast else line

/-- The text of a line: at most `limit` bytes, the carriage return not counted, and UTF-8. -/
def lineText (limit : Nat) (line : List UInt8) : Except MessageError Text :=
  let line := dropReturn line
  if limit < line.length then .error (.lineTooLong limit)
  else
    match Utf8.decode line with
    | .ok t => .ok t
    | .error f => .error (.notUtf8 f)

/-- What the bytes at hand give of a line. -/
inductive LineStep where
  | line (text : Text) (consumed : Nat)
  | more (gathered : Array UInt8) (consumed : Nat)
  | fault (e : MessageError)

/-- Reads on in a line of which some bytes are gathered already. A fault uses up nothing. -/
def feedLine (limit : Nat) (gathered : Array UInt8) (bytes : List UInt8) : LineStep :=
  match splitLine bytes with
  | some line =>
    if gathered.isEmpty then
      match lineText limit line with
      | .ok t => .line t (line.length + 1)
      | .error e => .fault e
    else if limit + 1 < gathered.size + line.length then .fault (.lineTooLong limit)
    else
      match lineText limit (gathered.toList ++ line) with
      | .ok t => .line t (line.length + 1)
      | .error e => .fault e
  | none =>
    if limit + 1 < gathered.size + bytes.length then .fault (.lineTooLong limit)
    else .more (gathered ++ bytes) bytes.length

/-- A line takes up at least its line feed. -/
theorem consumed_pos_of_line {limit : Nat} {gathered : Array UInt8} {bytes : List UInt8} {t : Text}
    {n : Nat} (h : feedLine limit gathered bytes = .line t n) : 0 < n := by
  unfold feedLine at h
  repeat' split at h
  all_goals simp only [LineStep.line.injEq, reduceCtorEq] at h
  all_goals exact h.2 ▸ Nat.succ_pos _

/-- Gathering takes up all that is at hand. -/
theorem consumed_pos_of_more {limit : Nat} {gathered g : Array UInt8} {b : UInt8}
    {bs : List UInt8} {n : Nat} (h : feedLine limit gathered (b :: bs) = .more g n) : 0 < n := by
  unfold feedLine at h
  repeat' split at h
  all_goals simp only [LineStep.more.injEq, reduceCtorEq] at h
  exact h.2 ▸ Nat.succ_pos _

/-- The end of the input: no line at all, if nothing was gathered. -/
def lineAtEnd (gathered : Array UInt8) : Except MessageError (Option Text) :=
  if gathered.isEmpty then .ok none else .error (.endOfInput .line)

/-- What is gathered of a line once the bytes at hand are read. A line that lies in one segment is
    not gathered, nor is anything that would make more than the limit and one byte. -/
def gather (limit : Nat) (gathered : Array UInt8) (bytes : List UInt8) : Array UInt8 :=
  match splitLine bytes with
  | some line =>
    if gathered.isEmpty || limit + 1 < gathered.size + line.length then gathered
    else gathered ++ line
  | none =>
    if limit + 1 < gathered.size + bytes.length then gathered else gathered ++ bytes

/-- The machine that reads one line. Its state is what is gathered of it. -/
def lineFeeder (limit : Nat) : Feeder (Array UInt8) (Option Text) where
  feed gathered bytes :=
    match feedLine limit gathered bytes with
    | .line t n => ⟨gather limit gathered bytes, [], n, .done (some t)⟩
    | .more gathered n => ⟨gathered, [], n, .more⟩
    | .fault e => ⟨gather limit gathered bytes, [], 0, .fault e⟩
  atEnd := lineAtEnd
  consumed_pos gathered b bs h := by
    split at h
    · simp at h
    · exact consumed_pos_of_more ‹_›
    · simp at h

end Sluice.Http
