/-
  File:      Sluice/Text/Escape.lean
  Subject:   Texts in quotes, as diagnostics show them.

  * `escapeChar`: one character, given which quote must not stand alone;
  * `quote`: a text between double quotes; `quoteChar`: a character between single quotes.

  NUL, tab, carriage return, line feed, the backslash and the quote in use are written with a
  backslash; every other character that is not plain is written by its number in hexadecimal.
-/
import Sluice.Text.Fold
import Sluice.Text.Printable

namespace Sluice.Text

/-- A character by its number: backslash, `u`, and the hexadecimal digits in braces. -/
def escapeCode (c : Char) : Text :=
  ['\\', 'u', '\x7b'] ++ Nat.toDigits 16 c.toNat ++ ['\x7d']

/-- One character inside quotes of the kind `mark`. -/
def escapeChar (mark c : Char) : Text :=
  if c = '\x00' then ['\\', '0']
  else if c = '\t' then ['\\', 't']
  else if c = '\r' then ['\\', 'r']
  else if c = '\n' then ['\\', 'n']
  else if c = '\\' then ['\\', '\\']
  else if c = mark then ['\\', mark]
  else if isPlain c then [c]
  else escapeCode c

/-- A text between double quotes. -/
def quote (t : Text) : Text := '"' :: t.flatMap (escapeChar '"') ++ ['"']

/-- A character between single quotes. -/
def quoteChar (c : Char) : Text := '\'' :: escapeChar '\'' c ++ ['\'']

end Sluice.Text
