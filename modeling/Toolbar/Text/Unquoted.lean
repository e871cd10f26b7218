/-
# `Toolbar.Text.Unquoted` — the text between quotation marks

A backslash in a quotation changes the meaning of what follows: it keeps a mark from closing the
quotation, a letter stands for a control character, and digits for a character by its number.  A
backslash before any other character of ASCII stands for itself.  What one before a character beyond
ASCII stands for is for the reader of the quotation to say.
-/
import Toolbar.Text.Digits

namespace Toolbar.Text

/-- The characters up to the mark that closes a quotation, backslashes included. -/
def innerOf? (mark : Char) : List Char → Option (List Char)
  | [] => none
  | '\\' :: c :: cs => (innerOf? mark cs).map fun inner => '\\' :: c :: inner
  | c :: cs => if c == mark then some [] else (innerOf? mark cs).map (c :: ·)

/-- The letters and marks that may follow a backslash, and what they stand for. -/
def letterEscapes : List (Char × List Char) :=
  [('\n', []), ('\\', ['\\']), ('\'', ['\'']), ('"', ['"']), ('a', ['\x07']), ('b', ['\x08']),
    ('f', ['\x0c']), ('n', ['\n']), ('r', ['\r']), ('t', ['\t']), ('v', ['\x0b'])]

/-- The letters that announce a character by its number, and how many hexadecimal digits follow. -/
def numberEscapes : List (Char × Nat) :=
  [('x', 2), ('u', 4), ('U', 8)]

/-- The number that `count` hexadecimal digits at the beginning of a text denote. -/
def hexNumber? (count : Nat) (cs : List Char) : Option Nat := do
  let ds ← (cs.take count).mapM hexValue?
  if ds.length = count then some (ds.foldl (fun n d => n * 16 + d) 0) else none

/-- The character of a number, if there are so many; half of a pair is the replacement character. -/
def numbered? (n : Nat) : Option Char :=
  if n > 0x10FFFF then none
  else if 0xD800 ≤ n && n ≤ 0xDFFF then some (Char.ofNat 0xFFFD)
  else some (Char.ofNat n)

def isOctalDigit (c : Char) : Bool :=
  '0' ≤ c && c ≤ '7'

/-- What the characters behind a backslash stand for, and how many of them take part.  None when
digits are missing, and where a character is called by its name. -/
def escapeAt? (foreign : Char → List Char) : List Char → Option (List Char × Nat)
  | [] => none
  | c :: cs =>
      if c.toNat ≥ 0x80 then some (foreign c, 1)
      else if isOctalDigit c then
        let ds := c :: (cs.take 2).takeWhile isOctalDigit
        (numbered? (ds.foldl (fun n d => n * 8 + (d.toNat - 0x30)) 0)).map fun d => ([d], ds.length)
      else match numberEscapes.lookup c with
        | some count =>
            ((hexNumber? count cs).bind numbered?).map fun d => ([d], count + 1)
        | none =>
            if c == 'N' then none
            else some ((letterEscapes.lookup c).getD ['\\', c], 1)

/-- The text that the inside of a quotation stands for, of which the first `skip` characters belong
to an escape already read. -/
def unquoteFrom? (foreign : Char → List Char) (skip : Nat) : List Char → Option (List Char)
  | [] => some []
  | c :: cs =>
      match skip with
      | k + 1 => unquoteFrom? foreign k cs
      | 0 =>
          if c == '\\' then do
            let (t, n) ← escapeAt? foreign cs
            let rest ← unquoteFrom? foreign n cs
            return t ++ rest
          else (unquoteFrom? foreign 0 cs).map (c :: ·)

/-- The text that the inside of a quotation stands for. -/
def unquote? (foreign : Char → List Char) (inner : List Char) : Option (List Char) :=
  unquoteFrom? foreign 0 inner

end Toolbar.Text
