/-
# `Toolbar.Expr.Lexeme` — the words of an expression

A lexeme is a field in braces, a number, a text in quotes, an operator or a name.  Blanks divide
lexemes and are no part of one.  The longest operator is taken; a text may hold line breaks, but a
backslash must have another character than a line feed behind it.  The list of lexemes ends with
one of no characters that stands at the end of the source.
-/
import Toolbar.Expr.Fault
import Toolbar.Template.Token
import Toolbar.Text.Blank
import Toolbar.Text.Digits

namespace Toolbar.Expr

open Text

/-- The classes of lexemes. -/
inductive Lexeme.Kind where
  | field
  | number
  | text
  | op
  | name
  | stop
deriving DecidableEq, Repr

/-- A word of an expression and the position of its first character. -/
structure Lexeme where
  kind : Lexeme.Kind
  text : List Char
  position : Nat
deriving DecidableEq, Repr

namespace Lexeme

/-- The operators; one that begins with another comes before it. -/
def operators : List (List Char) :=
  ["===", "!==", "==", "!=", "<=", ">=", "&&", "||", "<", ">", "!", "+", "-", "*", "/", "%", "(",
    ")", ",", "."].map String.toList

/-- The length of the operator that a text begins with. -/
def operatorLength? (cs : List Char) : List (List Char) → Option Nat
  | [] => none
  | o :: os => if startsWith o cs then some o.length else operatorLength? cs os

/-- The length of a field in braces, not empty. -/
def fieldLength? : List Char → Option Nat
  | [] => none
  | c :: cs =>
      let inner := cs.takeWhile (· != '\x7d')
      if c == '\x7b' && !inner.isEmpty && inner.length < cs.length then some (inner.length + 2)
      else none

/-- The count of digits that a text begins with. -/
def digitCount (cs : List Char) : Nat :=
  (cs.takeWhile isDigit).length

/-- The length of a fraction behind a number: a point with digits. -/
def fractionLength : List Char → Nat
  | '.' :: cs => if digitCount cs = 0 then 0 else 1 + digitCount cs
  | _ => 0

/-- The length of an exponent behind a number: the letter, a sign and digits. -/
def exponentLength : List Char → Nat
  | c :: cs =>
      if c == 'e' || c == 'E' then
        match cs with
        | s :: ds =>
            if s == '+' || s == '-' then (if digitCount ds = 0 then 0 else 2 + digitCount ds)
            else if digitCount cs = 0 then 0 else 1 + digitCount cs
        | [] => 0
      else 0
  | [] => 0

/-- The length of a number. -/
def numberLength? (cs : List Char) : Option Nat :=
  let n := digitCount cs
  if n = 0 then none
  else
    let f := fractionLength (cs.drop n)
    some (n + f + exponentLength (cs.drop (n + f)))

/-- The length of a text up to its closing quote. -/
def quotedLength? (mark : Char) : List Char → Option Nat
  | [] => none
  | c :: cs =>
      if c == mark then some 1
      else if c == '\\' then
        match cs with
        | d :: ds => if d == '\n' then none else (quotedLength? mark ds).map (· + 2)
        | [] => none
      else (quotedLength? mark cs).map (· + 1)

/-- The length of a text in quotes. -/
def textLength? : List Char → Option Nat
  | c :: cs => if c == '"' || c == '\'' then (quotedLength? c cs).map (· + 1) else none
  | [] => none

/-- The length of a name. -/
def nameLength? : List Char → Option Nat
  | c :: cs =>
      if Token.isNameStart c then some (1 + (cs.takeWhile Token.isNamePart).length) else none
  | [] => none

/-- The class and length of the lexeme that a text begins with. -/
def at? (cs : List Char) : Option (Kind × Nat) :=
  match fieldLength? cs with
  | some n => some (.field, n)
  | none =>
      match numberLength? cs with
      | some n => some (.number, n)
      | none =>
          match textLength? cs with
          | some n => some (.text, n)
          | none =>
              match operatorLength? cs operators with
              | some n => some (.op, n)
              | none => (nameLength? cs).map (Kind.name, ·)

/-- The lexemes of a source from `position` on, where the next `skip` characters belong to a lexeme
already found. -/
def scan (position skip : Nat) : List Char → Except Failure (List Lexeme)
  | [] => .ok [⟨.stop, [], position⟩]
  | c :: cs =>
      match skip with
      | k + 1 => scan (position + 1) k cs
      | 0 =>
          match at? (c :: cs) with
          | some (kind, n) =>
              (scan (position + 1) (n - 1) cs).map (⟨kind, (c :: cs).take n, position⟩ :: ·)
          | none =>
              if isBlank c then scan (position + 1) 0 cs
              else .error (.at (.unexpectedCharacter c) position)

/-- The lexemes of a source. -/
def ofSource (source : List Char) : Except Failure (List Lexeme) :=
  scan 0 0 source

end Lexeme

end Toolbar.Expr
