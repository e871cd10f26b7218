/-
# `Toolbar.StandIn.Word` — the words of a slot

A slot of a template holds names, quoted texts and marks, with blanks between them, and ends with
two closing braces outside of all brackets.  A dash before the end takes the blanks behind the slot
away.  Quoted texts that stand side by side are one.
-/
import Toolbar.Markup.Escape
import Toolbar.Text.Blank
import Toolbar.Text.Identifier
import Toolbar.Text.Quoted
import Toolbar.Text.Unquoted

namespace Toolbar.StandIn.Template

open Text

/-- A word of a slot. -/
inductive Word where
  | name (s : String)
  | text (s : String)
  | mark (c : Char)
deriving DecidableEq, Repr

namespace Word

/-- What a backslash before a character beyond ASCII stands for: itself, and the number of the
character. -/
def foreign (c : Char) : List Char :=
  escapeByNumber c.toNat

/-- The mark that closes a bracket. -/
def closing? (c : Char) : Option Char :=
  if c == '(' then some ')' else if c == '[' then some ']' else none

/-- The bracket marks still to come once a mark is read, `waiting` being those before it. -/
def stillWaiting (waiting : List Char) (c : Char) : Except Markup.Fault (List Char) :=
  match closing? c with
  | some d => .ok (d :: waiting)
  | none =>
      if c == ')' || c == ']' then
        match waiting with
        | d :: rest => if d == c then .ok rest else .error .malformed
        | [] => .error .malformed
      else if c == '.' || c == ',' || c == '|' then .ok waiting
      else .error .malformed

/-- The number of characters of the end of a slot, when it is here. -/
def endLength? : List Char → Option Nat
  | '\x7d' :: '\x7d' :: _ => some 2
  | '-' :: '\x7d' :: '\x7d' :: cs => some (3 + (cs.takeWhile isBlank).length)
  | _ => none

/-- A word more in front. -/
def cons (w : Word) (words : List Word) : List Word :=
  match w, words with
  | .text s, .text t :: rest => .text (s ++ t) :: rest
  | _, _ => w :: words

/-- The words of a slot and the number of characters up to behind its end.  The first `skip`
characters belong to a word already found; `waiting` are the marks that close brackets. -/
def ofSlot (waiting : List Char) (skip : Nat) : List Char → Except Markup.Fault (List Word × Nat)
  | [] => .error .malformed
  | c :: cs =>
      match skip with
      | k + 1 => (ofSlot waiting k cs).map fun (ws, n) => (ws, n + 1)
      | 0 =>
          match if waiting.isEmpty then endLength? (c :: cs) else none with
          | some n => .ok ([], n)
          | none =>
              if isBlank c then (ofSlot waiting 0 cs).map fun (ws, n) => (ws, n + 1)
              else if isIdentifierStart c then
                let tail := cs.takeWhile isIdentifierPart
                (ofSlot waiting tail.length cs).map fun (ws, n) =>
                  (cons (.name (String.ofList (c :: tail))) ws, n + 1)
              else if c == '"' || c == '\'' then
                match innerOf? c cs with
                | none => .error .malformed
                | some inner =>
                    match unquote? foreign inner with
                    | none => .error .malformed
                    | some t =>
                        (ofSlot waiting (inner.length + 1) cs).map fun (ws, n) =>
                          (cons (.text (String.ofList t)) ws, n + 1)
              else do
                let waiting ← stillWaiting waiting c
                let (ws, n) ← ofSlot waiting 0 cs
                return (.mark c :: ws, n + 1)

end Word

end Toolbar.StandIn.Template
