/-
# `Toolbar.Text.Blank` — blank characters, trimming and lines

A character is blank when Unicode gives it the bidirectional class of a space or separator or the
general category of a space: the ASCII blanks with the four information separators, the next-line
and no-break spaces, and the typographic spaces.  Ten of them end a line; a carriage return with a
line feed behind it ends one line, not two.
-/

namespace Toolbar.Text

/-- A character that trimming removes and that separates the parts of an expression. -/
def isBlank (c : Char) : Bool :=
  let n := c.toNat
  (0x09 ≤ n && n ≤ 0x0D) || (0x1C ≤ n && n ≤ 0x20) || n == 0x85 || n == 0xA0 || n == 0x1680
    || (0x2000 ≤ n && n ≤ 0x200A) || n == 0x2028 || n == 0x2029 || n == 0x202F || n == 0x205F
    || n == 0x3000

/-- A character that ends a line. -/
def isLineBreak (c : Char) : Bool :=
  let n := c.toNat
  (0x0A ≤ n && n ≤ 0x0D) || (0x1C ≤ n && n ≤ 0x1E) || n == 0x85 || n == 0x2028 || n == 0x2029

/-- Without the characters at both ends that satisfy `p`. -/
def stripBy (p : Char → Bool) (cs : List Char) : List Char :=
  ((cs.dropWhile p).reverse.dropWhile p).reverse

/-- Without the characters at the end that satisfy `p`. -/
def stripEndBy (p : Char → Bool) (cs : List Char) : List Char :=
  (cs.reverse.dropWhile p).reverse

/-- Without the blanks at both ends. -/
def trim (cs : List Char) : List Char :=
  stripBy isBlank cs

def trimStart (cs : List Char) : List Char :=
  cs.dropWhile isBlank

def trimEnd (cs : List Char) : List Char :=
  stripEndBy isBlank cs

/-- The trimmed text. -/
def trimmed (s : String) : String :=
  String.ofList (trim s.toList)

/-- The lines of a text whose current line, read backwards, is `line`; a last line is one only if
it has a character. -/
def linesFrom (line : List Char) : List Char → List (List Char)
  | [] => if line.isEmpty then [] else [line.reverse]
  | '\r' :: '\n' :: rest => line.reverse :: linesFrom [] rest
  | c :: rest =>
      if isLineBreak c then line.reverse :: linesFrom [] rest else linesFrom (c :: line) rest

/-- The lines of a text, without the characters that end them. -/
def lines (s : String) : List String :=
  (linesFrom [] s.toList).map String.ofList

end Toolbar.Text
