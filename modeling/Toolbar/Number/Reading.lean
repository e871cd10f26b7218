/-
# `Toolbar.Number.Reading` — numbers written in text

A decimal has an optional sign, digits with an optional point, and an optional exponent; `inf`,
`infinity` and `nan` are read in any case.  Digits of every script count, single underscores may
stand between two digits, and blanks around the number are passed over, the four information
separators excepted.
-/
import Toolbar.Fault
import Toolbar.Number.Binary64
import Toolbar.Text.Blank
import Toolbar.Text.Digits

namespace Toolbar.Number

open Text

/-- The most digits that an integer may have in a text. -/
def digitLimit : Nat := 4300

/-- The number that a row of digits denotes. -/
def digitsValue (ds : List Char) : Nat :=
  ds.foldl (fun n d => 10 * n + (digitValue? d).getD 0) 0

/-- A blank that may stand around a number. -/
def isPadding (c : Char) : Bool :=
  isBlank c && !(0x1C ≤ c.toNat && c.toNat ≤ 0x1F)

/-- Digits of all scripts as ASCII digits, everything else as it is. -/
def plainDigits (cs : List Char) : List Char :=
  cs.map fun c => match digitValue? c with
    | some d => digitChar d
    | none => c

/-- Without single underscores that stand between two digits; nothing when another underscore
occurs.  `afterDigit` tells whether a digit came before. -/
def dropUnderscores? (afterDigit : Bool) : List Char → Option (List Char)
  | [] => some []
  | '_' :: cs =>
      match cs with
      | [] => none
      | d :: rest =>
          if afterDigit && isAsciiDigit d then (dropUnderscores? true rest).map (d :: ·) else none
  | c :: cs => (dropUnderscores? (isAsciiDigit c) cs).map (c :: ·)

/-- The sign of a number and what follows it. -/
def signOf : List Char → Bool × List Char
  | '-' :: cs => (true, cs)
  | '+' :: cs => (false, cs)
  | cs => (false, cs)

/-- The exponent that fills the rest of a number; no characters are the exponent zero. -/
def exponent? : List Char → Option Int
  | [] => some 0
  | c :: cs =>
      if c == 'e' || c == 'E' then
        let (negative, ds) := signOf cs
        if ds.isEmpty || !ds.all isAsciiDigit then none
        else some (if negative then -(digitsValue ds : Int) else (digitsValue ds : Int))
      else none

/-- The double that an unsigned decimal denotes. -/
def decimal? (negative : Bool) (cs : List Char) : Option Binary64 :=
  let whole := cs.takeWhile isAsciiDigit
  let rest := cs.dropWhile isAsciiDigit
  let (fraction, rest) := match rest with
    | '.' :: r => (r.takeWhile isAsciiDigit, r.dropWhile isAsciiDigit)
    | r => ([], r)
  let ds := whole ++ fraction
  if ds.isEmpty then none
  else (exponent? rest).map fun e =>
    Binary64.ofDecimal negative (digitsValue ds) ds.length (e - (fraction.length : Int))

/-- The double that an unsigned number or name of a number denotes. -/
def unsigned? (negative : Bool) (cs : List Char) : Option Binary64 :=
  match decimal? negative cs with
  | some x => some x
  | none =>
      let word := String.ofList (cs.map Char.toLower)
      if word == "inf" || word == "infinity" then some (.infinite negative)
      else if word == "nan" then some .undefined
      else none

/-- The double that a text denotes. -/
def readReal? (s : String) : Option Binary64 := do
  let cs ← dropUnderscores? false (plainDigits (stripBy isPadding s.toList))
  let (negative, body) := signOf cs
  unsigned? negative body

/-- The integer that a row of digits denotes, unless it is too long. -/
def integerOf (negative : Bool) (ds : List Char) : Except Fault Int :=
  if ds.length > digitLimit then .error .tooManyDigits
  else .ok (if negative then -(digitsValue ds : Int) else (digitsValue ds : Int))

/-- The integer that a text denotes: a sign and digits. -/
def readInt (s : String) : Except Fault Int :=
  let (negative, body) := signOf (plainDigits (stripBy isPadding s.toList))
  match dropUnderscores? false body with
  | none => .error .malformed
  | some ds =>
      if ds.isEmpty || !ds.all isAsciiDigit then .error .malformed else integerOf negative ds

end Toolbar.Number
