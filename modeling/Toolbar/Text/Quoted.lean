/-
# `Toolbar.Text.Quoted` — a text in quotation marks, as messages show it

A quotation stands between apostrophes, or between double quotes when the text has an apostrophe
and no double quote.  The quoting mark and the backslash are written with a backslash before them,
line feed, carriage return and tab by their letters, and every other unprintable character by its
number in two, four or eight hexadecimal digits.
-/
import Toolbar.Text.Printable

namespace Toolbar.Text

/-- `n` in hexadecimal with at least `width` digits. -/
def hexDigits (width n : Nat) : List Char :=
  let ds := Nat.toDigits 16 n
  List.replicate (width - ds.length) '0' ++ ds

/-- A character by its number: the letter tells how many hexadecimal digits follow. -/
def escapeByNumber (n : Nat) : List Char :=
  if n ≤ 0xFF then '\\' :: 'x' :: hexDigits 2 n
  else if n ≤ 0xFFFF then '\\' :: 'u' :: hexDigits 4 n
  else '\\' :: 'U' :: hexDigits 8 n

/-- What stands for one character inside quotation marks `mark`. -/
def quoteChar (mark c : Char) : List Char :=
  if c == mark || c == '\\' then ['\\', c]
  else if c == '\n' then ['\\', 'n']
  else if c == '\r' then ['\\', 'r']
  else if c == '\t' then ['\\', 't']
  else if isPrintable c then [c]
  else escapeByNumber c.toNat

/-- The quotation mark that a text is shown in. -/
def quoteMark (cs : List Char) : Char :=
  if cs.contains '\'' && !cs.contains '"' then '"' else '\''

/-- The text in quotation marks. -/
def quoted (s : String) : String :=
  let cs := s.toList
  let mark := quoteMark cs
  String.ofList (mark :: cs.flatMap (quoteChar mark) ++ [mark])

end Toolbar.Text
