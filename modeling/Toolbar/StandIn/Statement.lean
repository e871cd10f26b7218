/-
# `Toolbar.StandIn.Statement` — the statements of a small language for scripts

What a script does once it is compiled is the matter of the language that it is written in.  This
one stands in for it where a bar runs by itself.  A script is a sequence of lines, one statement
each; a remark begins with `#`.

    pass                                raise Kind          raise Kind()
    return                              raise Kind('text')  raise Kind(1)  raise Kind(10**2)
    context["key"]["key"](E)            await context["key"]["key"](E)
    context["key"].attribute(E)         await context["key"].attribute(E)
    record["key"] = E                   1 / 0               name()

An operand `E` is a text in either quotation mark or `record["key"]`.
-/
import Toolbar.Text.Identifier
import Toolbar.Text.Unquoted

namespace Toolbar.StandIn

open Text

/-- An operand. -/
inductive Operand where
  | text (s : String)
  | field (key : String)
deriving DecidableEq, Repr

/-- What a failure is raised with. -/
inductive Message where
  | text (s : String)
  | number (n : Nat)
deriving DecidableEq, Repr

/-- What is called: what stands in the context under keys, one below the other, or an attribute of
that. -/
structure Callee where
  keys : List String
  last : Option String
deriving DecidableEq, Repr

/-- A statement. -/
inductive Statement where
  | pass
  | stop
  | fail (kind : String) (message : Option Message)
  | call (waits : Bool) (callee : Callee) (e : Operand)
  | set (key : String) (e : Operand)
  | divideByZero
  | callUnknown (name : String)
deriving DecidableEq, Repr

namespace Statement

/-- A word of a line. -/
inductive Word where
  | name (s : String)
  | number (s : String)
  | text (s : String)
  | mark (c : Char)
deriving DecidableEq, Repr

/-- A character that stands between words. -/
def isGap (c : Char) : Bool :=
  c == ' ' || c == '\t' || c == '\r' || c == '\x0c'

/-- The words of a line, of which the first `skip` characters belong to a word already found. -/
def words? (skip : Nat) : List Char → Option (List Word)
  | [] => some []
  | c :: cs =>
      match skip with
      | k + 1 => words? k cs
      | 0 =>
          if isGap c then words? 0 cs
          else if c == '#' then some []
          else if isIdentifierStart c then
            let tail := cs.takeWhile isIdentifierPart
            (words? tail.length cs).map (.name (String.ofList (c :: tail)) :: ·)
          else if c.isDigit then
            let tail := cs.takeWhile Char.isDigit
            (words? tail.length cs).map (.number (String.ofList (c :: tail)) :: ·)
          else if c == '"' || c == '\'' then
            match innerOf? c cs with
            | none => none
            | some inner =>
                match unquote? (['\\', ·]) inner with
                | none => none
                | some t => (words? (inner.length + 1) cs).map (.text (String.ofList t) :: ·)
          else (words? 0 cs).map (.mark c :: ·)

/-- Whether a line has no words: it is blank, or a remark. -/
def isWordless (line : List Char) : Bool :=
  match line.dropWhile isGap with
  | [] => true
  | c :: _ => c == '#'

/-- Names that are no names of operations. -/
def reservedNames : List String :=
  ["pass", "return", "raise", "await", "context", "record", "not", "and", "or", "if", "else",
    "for", "while", "in", "is", "lambda", "def", "class", "import", "from", "try", "except",
    "finally", "with", "as", "yield", "del", "global", "nonlocal", "assert", "async", "break",
    "continue", "elif", "True", "False", "None"]

/-- The operand that a list of words is. -/
def operand? : List Word → Option Operand
  | [.text s] => some (.text s)
  | [.name "record", .mark '[', .text key, .mark ']'] => some (.field key)
  | _ => none

/-- The operand between parentheses that a list of words is. -/
def argument? : List Word → Option Operand
  | .mark '(' :: ws => if ws.getLast? == some (.mark ')') then operand? ws.dropLast else none
  | _ => none

/-- The number of some digits, which do not begin with a zero beside others. -/
def number? (digits : String) : Option Nat :=
  let cs := digits.toList
  if cs.head? == some '0' && 1 < cs.length then none
  else some (cs.foldl (fun n c => 10 * n + (c.toNat - 0x30)) 0)

/-- The message between parentheses that a list of words is; it may be a power. -/
def message? : List Word → Option Message
  | [.text s] => some (.text s)
  | [.number n] => (number? n).map .number
  | [.number a, .mark '*', .mark '*', .number b] => do
      let a ← number? a
      let b ← number? b
      return .number (Nat.pow a b)
  | _ => none

/-- What is called behind `context`, `keys` being those that are read, the last one first, and its
argument. -/
def callee? (keys : List String) : List Word → Option (Callee × Operand)
  | .mark '[' :: .text k :: .mark ']' :: ws => callee? (k :: keys) ws
  | .mark '.' :: .name a :: ws => (argument? ws).map (⟨keys.reverse, some a⟩, ·)
  | ws => if keys.isEmpty then none else (argument? ws).map (⟨keys.reverse, none⟩, ·)

/-- The statement that a list of words is. -/
def ofWords? : List Word → Option Statement
  | [.name "pass"] => some .pass
  | [.name "return"] => some .stop
  | [.name "raise", .name kind] => some (.fail kind none)
  | [.name "raise", .name kind, .mark '(', .mark ')'] => some (.fail kind none)
  | .name "raise" :: .name kind :: .mark '(' :: ws =>
      if ws.getLast? == some (.mark ')') then
        (message? ws.dropLast).map fun m => .fail kind (some m)
      else none
  | [.number "1", .mark '/', .number "0"] => some .divideByZero
  | [.name n, .mark '(', .mark ')'] =>
      if reservedNames.contains n then none else some (.callUnknown n)
  | .name "context" :: ws => (callee? [] ws).map fun c => .call false c.1 c.2
  | .name "await" :: .name "context" :: ws => (callee? [] ws).map fun c => .call true c.1 c.2
  | .name "record" :: .mark '[' :: .text key :: .mark ']' :: .mark '=' :: ws =>
      (operand? ws).map (.set key)
  | _ => none

/-- The statement that a line is, blanks at its ends apart; none when it is no statement. -/
def ofLine? (line : List Char) : Option Statement :=
  (words? 0 line).bind ofWords?

end Statement

end Toolbar.StandIn
