/-
# `Toolbar.Template.Token` — references to fields in a text

A token is a path between braces, `a` or `lookup.a`, and possibly a method behind a point with
arguments in parentheses.  Tokens are found from the left and do not overlap; a path is not empty
and has no closing brace, arguments have no parentheses, and a suffix is as long as it can be: when
the parentheses do not close, the name alone is the suffix, and when no name follows the point there
is none.
-/
import Toolbar.Text.Case
import Toolbar.Text.Search

namespace Toolbar

open Text

/-- A reference to a field, possibly with a method to call on its value. -/
structure Token where
  path : List Char
  /-- The method's name. -/
  method : Option (List Char) := none
  /-- The text between the parentheses. -/
  args : Option (List Char) := none
deriving DecidableEq, Repr

namespace Token

/-- A character that a method's name may begin with. -/
def isNameStart (c : Char) : Bool :=
  ('A' ≤ c && c ≤ 'Z') || ('a' ≤ c && c ≤ 'z') || c == '_' || c == '$'

/-- A character that a method's name may go on with. -/
def isNamePart (c : Char) : Bool :=
  isNameStart c || ('0' ≤ c && c ≤ '9')

/-- The arguments with their parentheses. -/
def argsText : Option (List Char) → List Char
  | some as => '(' :: as ++ [')']
  | none => []

/-- The method with its point and arguments. -/
def suffix (t : Token) : List Char :=
  match t.method with
  | some m => '.' :: m ++ argsText t.args
  | none => []

/-- The reference as it stands in the text. -/
def full (t : Token) : List Char :=
  '\x7b' :: t.path ++ '\x7d' :: t.suffix

/-- Arguments in parentheses at the beginning of a text. -/
def argsAt? : List Char → Option (List Char × List Char)
  | '(' :: cs =>
      let isInner (c : Char) : Bool := c != '(' && c != ')'
      match cs.dropWhile isInner with
      | ')' :: rest => some (cs.takeWhile isInner, rest)
      | _ => none
  | _ => none

/-- A method behind a point at the beginning of a text. -/
def suffixAt? : List Char → Option (List Char × Option (List Char) × List Char)
  | '.' :: c :: cs =>
      if isNameStart c then
        let name := c :: cs.takeWhile isNamePart
        let rest := cs.dropWhile isNamePart
        match argsAt? rest with
        | some (args, rest) => some (name, some args, rest)
        | none => some (name, none, rest)
      else none
  | _ => none

/-- The path between braces at the beginning of a text. -/
def pathAt? : List Char → Option (List Char × List Char)
  | '\x7b' :: cs =>
      match cs.takeWhile (· != '\x7d'), cs.dropWhile (· != '\x7d') with
      | c :: path, '\x7d' :: rest => some (c :: path, rest)
      | _, _ => none
  | _ => none

/-- The token that a text begins with, and what follows it. -/
def at? (cs : List Char) : Option (Token × List Char) :=
  match pathAt? cs with
  | none => none
  | some (path, rest) =>
      match suffixAt? rest with
      | some (method, args, rest) => some (⟨path, some method, args⟩, rest)
      | none => some (⟨path, none, none⟩, rest)

/-- The tokens of a text, of which the first `skip` characters belong to a token already found. -/
def scan (skip : Nat) : List Char → List Token
  | [] => []
  | c :: cs =>
      match skip with
      | k + 1 => scan k cs
      | 0 =>
          match at? (c :: cs) with
          | some (t, _) => t :: scan (t.full.length - 1) cs
          | none => scan 0 cs

/-- The tokens of a text in the order in which they stand; repeated references are kept. -/
def extract (cs : List Char) : List Token :=
  scan 0 cs

/-- The method with its arguments, without the point. -/
def call? (t : Token) : Option (List Char) :=
  t.method.map fun m => m ++ argsText t.args

/-- Whether the path goes through a lookup. -/
def isChain (t : Token) : Bool :=
  t.path.contains '.'

end Token

/-- The names of a path: the lookups and the field of the last record. -/
structure Path where
  lookups : List (List Char)
  final : List Char
deriving DecidableEq, Repr

namespace Path

/-- The parts of a path between its points. -/
def ofChars (cs : List Char) : Path :=
  let parts := splitOn ['.'] cs
  ⟨parts.dropLast, parts.getLast?.getD []⟩

/-- A path that ends in `id`, in any case, behind a lookup names the lookup's own key. -/
def isId (p : Path) : Bool :=
  !p.lookups.isEmpty && lower p.final == ['i', 'd']

end Path

end Toolbar
