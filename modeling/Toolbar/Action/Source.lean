/-
# `Toolbar.Action.Source` — the text that is compiled for a script

A script is the body of an operation over a record and a context.  The indentation that all its
lines share is left out, and so are line feeds at its ends; what is left is indented below the line
that names the operation.  A script without any text does nothing.
-/
import Toolbar.Text.Blank
import Toolbar.Text.Search

namespace Toolbar.Action.Source

open Text

/-- The lines of a text, the one begun so far being `line` backwards. -/
def linesFrom (line : List Char) : List Char → List (List Char)
  | [] => [line.reverse]
  | c :: cs => if c == '\n' then line.reverse :: linesFrom [] cs else linesFrom (c :: line) cs

/-- Whether lines can share that character as indentation. -/
def isIndent (c : Char) : Bool :=
  c == ' ' || c == '\t'

/-- A line without any text has no characters at all. -/
def emptied (line : List Char) : List Char :=
  if line.all isIndent then [] else line

/-- What two lines begin with alike. -/
def shared : List Char → List Char → List Char
  | a :: as, b :: bs => if a == b then a :: shared as bs else []
  | _, _ => []

/-- The indentation that all lines share, lines without text apart. -/
def margin (lines : List (List Char)) : List Char :=
  match (lines.filter (!·.isEmpty)).map (·.takeWhile isIndent) with
  | [] => []
  | first :: rest => rest.foldl shared first

/-- The lines of a script without the shared indentation and without empty lines at both ends. -/
def bodyLines (script : String) : List (List Char) :=
  let lines := (linesFrom [] script.toList).map emptied
  let width := (margin lines).length
  let lines := (lines.map (·.drop width)).dropWhile (·.isEmpty)
  (lines.reverse.dropWhile (·.isEmpty)).reverse

/-- The body of an operation is indented by four blanks. -/
def indentation : List Char := "    ".toList

/-- A text with the indentation of the body at its start, if `fresh`, and behind each line break in
it, wherever text follows on the line. -/
def indented (fresh : Bool) : List Char → List Char
  | [] => []
  | c :: cs =>
      let front :=
        if fresh && ((c :: cs).takeWhile (!isLineBreak ·)).any (!isBlank ·) then indentation else []
      front ++ c :: indented (isLineBreak c) cs

/-- The body of an operation. -/
def body (script : String) : List Char :=
  let cs := ['\n'].intercalate (bodyLines script)
  indented true (if cs.isEmpty then "pass".toList else cs)

/-- The line that names the operation. -/
def heading : String := "async def __action__(record, context):\n"

/-- The text that is compiled for a script. -/
def ofScript (script : String) : String :=
  heading ++ String.ofList (body script) ++ "\n"

end Toolbar.Action.Source
