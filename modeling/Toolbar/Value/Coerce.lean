/-
# `Toolbar.Value.Coerce` — texts that look like time stamps

A text looks like a time stamp when it is ten characters of date, a `T` or one blank, eight
characters of time, and optionally `Z` or an offset in hours and minutes; a single line feed may
follow.  Digits of every script look like digits here, but only a stamp that the calendar reader
accepts is taken for one, so a text that merely looks like a stamp stays a text.
-/
import Toolbar.Calendar.Iso
import Toolbar.Text.Blank
import Toolbar.Text.Search
import Toolbar.Value.Basic

namespace Toolbar

open Text

/-- What follows characters of the given shape: a `d` of the shape stands for a digit, any other
character for itself. -/
def Text.dropShape? : List Char → List Char → Option (List Char)
  | [], cs => some cs
  | _ :: _, [] => none
  | p :: ps, c :: cs =>
      if (if p == 'd' then isDigit c else c == p) then dropShape? ps cs else none

/-- Nothing, or one line feed. -/
def Text.isLineEnd : List Char → Bool
  | [] => true
  | ['\n'] => true
  | _ => false

namespace Value

/-- What may follow the time: nothing, `Z`, or an offset. -/
def isZone (cs : List Char) : Bool :=
  isLineEnd cs || match cs with
    | 'Z' :: rest => isLineEnd rest
    | '+' :: rest => (dropShape? "dd:dd".toList rest).any isLineEnd
    | '-' :: rest => (dropShape? "dd:dd".toList rest).any isLineEnd
    | _ => false

/-- Whether a text looks like a time stamp. -/
def isStampText (s : String) : Bool :=
  match dropShape? "dddd-dd-dd".toList s.toList with
  | some (c :: rest) =>
      (c == 'T' || isBlank c) && (dropShape? "dd:dd:dd".toList rest).any isZone
  | _ => false

/-- Whether a value is a text that looks like a time stamp. -/
def looksLikeStamp : Value → Bool
  | .text s => isStampText s
  | _ => false

/-- The stamp that a text denotes: a blank between date and time counts as `T`, a final `Z` as the
offset zero. -/
def readStamp? (s : String) : Option Stamp :=
  let cs := replaceFirst [' '] ['T'] s.toList
  let cs := match cs.reverse with
    | 'Z' :: rest => rest.reverse ++ "+00:00".toList
    | _ => cs
  Calendar.Iso.readStamp? (String.ofList cs)

/-- A text that denotes a time stamp as that stamp; every other value as it is. -/
def coerce (v : Value) : Value :=
  match v with
  | .text s => if isStampText s then ((readStamp? s).map .stamp).getD v else v
  | _ => v

end Value

end Toolbar
