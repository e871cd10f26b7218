/-
# `Toolbar.Value.Reader` — reading the record format

The record format is that of web services: null, truth values, numbers, texts in double quotes,
lists and maps, with four blanks around the parts.  `NaN`, `Infinity` and `-Infinity` are read as
well.  A number without point and exponent is an integer.  A key that occurs twice has its last
value in its first place.  The fuel bounds the nesting; one more than the length always suffices,
because every part is shorter than the whole.
-/
import Toolbar.Number.Reading
import Toolbar.Text.Search
import Toolbar.Value.Basic

namespace Toolbar.Value.Reader

open Text Number

/-- Why a text is no value of the record format. -/
inductive Unreadable where
  | malformed
  /-- An integer with too many digits. -/
  | tooManyDigits
deriving DecidableEq, Repr

/-- A blank of the record format. -/
def isGap (c : Char) : Bool :=
  c == ' ' || c == '\t' || c == '\n' || c == '\r'

def skipGap (cs : List Char) : List Char :=
  cs.dropWhile isGap

/-- The code unit that four hexadecimal digits denote, and what follows. -/
def unit? : List Char → Option (Nat × List Char)
  | a :: b :: c :: d :: rest => do
      let a ← hexValue? a
      let b ← hexValue? b
      let c ← hexValue? c
      let d ← hexValue? d
      return (((a * 16 + b) * 16 + c) * 16 + d, rest)
  | _ => none

def isHighUnit (n : Nat) : Bool := 0xD800 ≤ n && n ≤ 0xDBFF
def isLowUnit (n : Nat) : Bool := 0xDC00 ≤ n && n ≤ 0xDFFF

/-- The character of a code unit; half of a pair on its own is the replacement character. -/
def unitChar (n : Nat) : Char :=
  if isHighUnit n || isLowUnit n then Char.ofNat 0xFFFD else Char.ofNat n

/-- The character of an escape that is one letter. -/
def letterEscape? (c : Char) : Option Char :=
  if c == '"' || c == '\\' || c == '/' then some c
  else if c == 'b' then some (Char.ofNat 0x08)
  else if c == 'f' then some (Char.ofNat 0x0C)
  else if c == 'n' then some '\n'
  else if c == 'r' then some '\r'
  else if c == 't' then some '\t'
  else none

/-- The second half of a pair, when it is what follows. -/
def lowUnit? : List Char → Option (Nat × List Char)
  | '\\' :: 'u' :: rest => (unit? rest).filter fun (n, _) => isLowUnit n
  | _ => none

/-- The characters of a text up to its closing quote, and what follows; `read` holds the
characters before, backwards. -/
def textFrom : (fuel : Nat) → (read : List Char) → List Char → Option (List Char × List Char)
  | 0, _, _ => none
  | _ + 1, _, [] => none
  | fuel + 1, read, c :: cs =>
      if c == '"' then some (read.reverse, cs)
      else if c == '\\' then
        match cs with
        | [] => none
        | 'u' :: rest => do
            let (n, rest) ← unit? rest
            if isHighUnit n then
              match lowUnit? rest with
              | some (m, rest) =>
                  let c := Char.ofNat (0x10000 + (n - 0xD800) * 0x400 + (m - 0xDC00))
                  textFrom fuel (c :: read) rest
              | none => textFrom fuel (unitChar n :: read) rest
            else textFrom fuel (unitChar n :: read) rest
        | e :: rest => do
            let c ← letterEscape? e
            textFrom fuel (c :: read) rest
      else if c.toNat < 0x20 then none
      else textFrom fuel (c :: read) cs

/-- The text behind an opening quote. -/
def text? (cs : List Char) : Option (String × List Char) :=
  (textFrom (cs.length + 1) [] cs).map fun (t, rest) => (String.ofList t, rest)

/-- The digits of a whole part: a zero alone or digits that do not begin with zero. -/
def whole? : List Char → Option (List Char × List Char)
  | '0' :: rest => some (['0'], rest)
  | c :: cs =>
      if isAsciiDigit c then
        some ((c :: cs).takeWhile isAsciiDigit, (c :: cs).dropWhile isAsciiDigit)
      else none
  | [] => none

/-- The digits of a fraction, none when no digit follows the point. -/
def fraction : List Char → List Char × List Char
  | '.' :: cs =>
      if (cs.takeWhile isAsciiDigit).isEmpty then ([], '.' :: cs)
      else (cs.takeWhile isAsciiDigit, cs.dropWhile isAsciiDigit)
  | cs => ([], cs)

/-- An exponent, none when no digit follows the letter and sign. -/
def exponent : List Char → Option Int × List Char
  | c :: cs =>
      if c == 'e' || c == 'E' then
        let (negative, ds) := signOf cs
        let digits := ds.takeWhile isAsciiDigit
        if digits.isEmpty then (none, c :: cs)
        else
          let n : Int := (digitsValue digits : Nat)
          (some (if negative then -n else n), ds.dropWhile isAsciiDigit)
      else (none, c :: cs)
  | [] => (none, [])

/-- A number behind its sign. -/
def number (negative : Bool) (cs : List Char) : Except Unreadable (Number × List Char) :=
  match whole? cs with
  | none => .error .malformed
  | some (ds, rest) =>
      let (fs, rest) := fraction rest
      let (e, rest) := exponent rest
      if fs.isEmpty && e.isNone then
        match integerOf negative ds with
        | .ok i => .ok (.int i, rest)
        | .error _ => .error .tooManyDigits
      else
        let all := ds ++ fs
        .ok (.real (Binary64.ofDecimal negative (digitsValue all) all.length
          (e.getD 0 - (fs.length : Int))), rest)

/-- The words of the record format with their values. -/
def words : List (String × Value) :=
  [("null", .null), ("true", .bool true), ("false", .bool false), ("NaN", .real .undefined),
    ("Infinity", .real (.infinite false)), ("-Infinity", .real (.infinite true))]

/-- The first word that the text begins with. -/
def word? (cs : List Char) : List (String × Value) → Option (Value × List Char)
  | [] => none
  | (w, v) :: ws => match dropPart? w.toList cs with
      | some rest => some (v, rest)
      | none => word? cs ws

/-- A number or a word. -/
def atom (cs : List Char) : Except Unreadable (Value × List Char) :=
  match word? cs words with
  | some r => .ok r
  | none => do
      let (n, rest) ← match cs with
        | '-' :: cs => number true cs
        | cs => number false cs
      return (.num n, rest)

mutual
/-- The value that the text begins with, and what follows. -/
def valueFrom : (fuel : Nat) → List Char → Except Unreadable (Value × List Char)
  | 0, _ => .error .malformed
  | fuel + 1, cs =>
      match cs with
      | '"' :: rest => match text? rest with
          | some (s, rest) => .ok (.text s, rest)
          | none => .error .malformed
      | '[' :: rest =>
          match skipGap rest with
          | ']' :: rest => .ok (.list [], rest)
          | rest => do
              let (items, rest) ← itemsFrom fuel rest
              return (.list items, rest)
      | '\x7b' :: rest =>
          match skipGap rest with
          | '\x7d' :: rest => .ok (.map [], rest)
          | rest => do
              let (fields, rest) ← fieldsFrom fuel rest
              return (.map (Fields.ofPairs fields), rest)
      | cs => atom cs
/-- The items of a list up to its closing bracket. -/
def itemsFrom : (fuel : Nat) → List Char → Except Unreadable (List Value × List Char)
  | 0, _ => .error .malformed
  | fuel + 1, cs => do
      let (v, rest) ← valueFrom fuel cs
      match skipGap rest with
      | ']' :: rest => return ([v], rest)
      | ',' :: rest =>
          let (vs, rest) ← itemsFrom fuel (skipGap rest)
          return (v :: vs, rest)
      | _ => .error .malformed
/-- The fields of a map up to its closing brace. -/
def fieldsFrom : (fuel : Nat) → List Char → Except Unreadable (List (String × Value) × List Char)
  | 0, _ => .error .malformed
  | fuel + 1, cs =>
      match cs with
      | '"' :: rest =>
          match text? rest with
          | none => .error .malformed
          | some (key, rest) =>
              match skipGap rest with
              | ':' :: rest => do
                  let (v, rest) ← valueFrom fuel (skipGap rest)
                  match skipGap rest with
                  | '\x7d' :: rest => return ([(key, v)], rest)
                  | ',' :: rest =>
                      let (fs, rest) ← fieldsFrom fuel (skipGap rest)
                      return ((key, v) :: fs, rest)
                  | _ => .error .malformed
              | _ => .error .malformed
      | _ => .error .malformed
end

/-- The value that a whole text denotes. -/
def read (s : String) : Except Unreadable Value := do
  let cs := skipGap s.toList
  let (v, rest) ← valueFrom (2 * cs.length + 2) cs
  if (skipGap rest).isEmpty then return v else .error .malformed

end Toolbar.Value.Reader
