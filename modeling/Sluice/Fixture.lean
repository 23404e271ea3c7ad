/-
  File:      Sluice/Fixture.lean
  Subject:   Sample requests, for measuring.

  * `Text.lines`: the lines of a text;
  * `Fixture`: a named request, its bytes, the number of its headers, and the bytes of a client
    that sends it many times over one connection.
-/
import Sluice.Text.Utf8

namespace Sluice

/-- The line up to the first line feed, and what is behind it; nothing behind it if the text ends
    first. -/
def Text.firstLine : Text → Text × Option Text
  | [] => ([], none)
  | c :: cs =>
    if c = '\n' then ([], some cs)
    else
      let (line, rest) := firstLine cs
      (c :: line, rest)

/-- What is behind the first line is shorter than the text. -/
theorem Text.length_firstLine_lt {t r : Text} (h : (Text.firstLine t).2 = some r) :
    r.length < t.length := by
  induction t generalizing r with
  | nil => simp [Text.firstLine] at h
  | cons c cs ih =>
    unfold Text.firstLine at h
    split at h
    · simp at h
      subst h
      simp
    · exact Nat.lt_succ_of_lt (ih h)

/-- A line without the carriage return at its end. -/
def Text.dropReturn (line : Text) : Text :=
  if line.getLast? = some '\r' then line.dropLast else line

/-- The lines of a text, without their ends: a line feed, with the carriage return before it. No
    empty line follows the last line feed. -/
def Text.lines (t : Text) : List Text :=
  if t = [] then []
  else
    match _h : t.firstLine with
    | (line, none) => [line]
    | (line, some rest) => Text.dropReturn line :: Text.lines rest
termination_by t.length
decreasing_by exact Text.length_firstLine_lt (by rw [_h])

/-- A sample request. -/
structure Fixture where
  name : Text
  fileName : Text
  content : Text
  deriving DecidableEq, Repr

namespace Fixture

/-- The bytes of the request. -/
def bytes (f : Fixture) : List UInt8 := Utf8.encode f.content

/-- The number of header lines: those behind the first line, up to the first empty one. -/
def headerCount (f : Fixture) : Nat :=
  ((f.content.lines.drop 1).takeWhile (!·.isEmpty)).length

/-- The request over and over. -/
def pipelined (f : Fixture) (times : Nat) : List UInt8 := (List.replicate times f.bytes).flatten

end Fixture

end Sluice
