/-
# `Toolbar.Template.Args` — the arguments of a method in a text

Arguments stand between commas that are neither in quotes nor in brackets or braces.  A backslash
inside quotes takes the next character with it.  Each argument is a value of the record format, or
else a text: without its quotes when it begins and ends with the same quote, and as it stands
otherwise.
-/
import Toolbar.Text.Blank
import Toolbar.Value.Reader

namespace Toolbar.Template.Args

open Text

/-- Where in a text a character stands: behind a backslash, inside quotes, or outside them at some
depth of brackets. -/
structure Place where
  quote : Option Char := none
  escaped : Bool := false
  depth : Int := 0
deriving DecidableEq, Repr

namespace Place

/-- Whether a comma at this place divides two arguments. -/
def divides (p : Place) (c : Char) : Bool :=
  p.quote.isNone && c == ',' && p.depth == 0

/-- The place behind a character. -/
def next (p : Place) (c : Char) : Place :=
  match p.quote with
  | some q =>
      if p.escaped then { p with escaped := false }
      else if c == '\\' then { p with escaped := true }
      else if c == q then { p with quote := none }
      else p
  | none =>
      if c == '"' || c == '\'' then { p with quote := some c }
      else if c == '[' || c == '\x7b' then { p with depth := p.depth + 1 }
      else if c == ']' || c == '\x7d' then { p with depth := p.depth - 1 }
      else p

end Place

/-- The arguments from a place on; `piece` holds the current one backwards. -/
def splitFrom (p : Place) (piece : List Char) : List Char → List (List Char)
  | [] => [piece.reverse]
  | c :: cs =>
      if p.divides c then piece.reverse :: splitFrom p [] cs
      else splitFrom (p.next c) (c :: piece) cs

/-- The texts of the arguments. -/
def split (cs : List Char) : List (List Char) :=
  splitFrom {} [] cs

/-- A text without the quotes around it. -/
def unquoted (cs : List Char) : List Char :=
  match cs with
  | q :: c :: rest =>
      if (q == '"' || q == '\'') && (c :: rest).getLast? == some q then (c :: rest).dropLast else cs
  | _ => cs

/-- The value of one argument. -/
def value (raw : List Char) : Value :=
  let cs := trim raw
  match Value.Reader.read (String.ofList cs) with
  | .ok v => v
  | .error _ => .text (String.ofList (unquoted cs))

/-- The values of the arguments; blanks alone are no argument. -/
def values (cs : List Char) : List Value :=
  if (trim cs).isEmpty then [] else (split cs).map value

end Toolbar.Template.Args
