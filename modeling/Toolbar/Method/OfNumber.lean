/-
# `Toolbar.Method.OfNumber` — methods of numbers

Fixed places and significant digits are those of the number as a double, rounded exactly.  A whole
number is written in any radix from 2 to 36; a number with a fraction only in radix ten.
-/
import Toolbar.Method.Arguments
import Toolbar.Text.Blank

namespace Toolbar.Method

open Text

/-- The greatest count of digits that may be asked for. -/
def precisionLimit : Int := 2147483647

/-- A number as a double, and a count of digits. -/
def withPrecision (n : Number) (digits : Value) : Except Fault (Binary64 × Nat) := do
  let count ← intArg digits
  if count < 0 ∨ countLimit ≤ count then throw .malformed
  let x ← n.toReal
  if precisionLimit < count then throw .malformed
  return (x, count.toNat)

/-- The number with a fixed count of places. -/
def toFixed (n : Number) (digits : Value) : Result := do
  let (x, places) ← withPrecision n digits
  return .text (String.ofList (x.fixedText id places))

/-- The number with a fixed count of significant digits, at least one; its display when no count is
given. -/
def toPrecision (n : Number) : Value → Result
  | .null => (Value.num n).display.map .text
  | digits => do
      let (x, count) ← withPrecision n digits
      return .text (String.ofList (withoutPoint (x.significantText (max count 1))))
where
  /-- Without a point at the end. -/
  withoutPoint (cs : List Char) : List Char :=
    if cs.getLast? == some '.' then cs.dropLast else cs

/-- The digits of all radices. -/
def radixDigits : List Char :=
  "0123456789abcdefghijklmnopqrstuvwxyz".toList

/-- The digit with a value below 36. -/
def radixDigit (d : Nat) : Char :=
  (radixDigits[d]?).getD '?'

/-- The digits of a number in a radix from 2 on, the leading one first, in front of `digits`. -/
def digitsInFront (radix : Nat) (n : Nat) (digits : List Char) : List Char :=
  if _h : radix < 2 ∨ n < radix then radixDigit n :: digits
  else digitsInFront radix (n / radix) (radixDigit (n % radix) :: digits)
termination_by n
decreasing_by exact Nat.div_lt_self (by omega) (by omega)

/-- An integer in a radix, with a minus sign when it is negative. -/
def inRadix (radix : Nat) (i : Int) : List Char :=
  Binary64.signed (i < 0) (digitsInFront radix i.natAbs [])

/-- A number that is an integer or a double without a fraction, as an integer. -/
def whole? (n : Number) : Except Fault (Option Int) := do
  let x ← n.toReal
  if x.isInteger then
    let i ← n.truncate
    return some i
  else return none

/-- The number in a radix. -/
def toRadix (n : Number) (radix : Value) : Result := do
  let r ← intArg radix
  if r = 10 then return .text (← (Value.num n).display)
  else
    match ← whole? n with
    | none => return .text (← (Value.num n).display)
    | some i =>
        if 2 ≤ r ∧ r ≤ 36 then return .text (String.ofList (inRadix r.toNat i))
        else .error .radix

/-- An integer with commas between the thousands. -/
def groupedInt (i : Int) : Except Fault String :=
  let ds := decimalDigits i.natAbs
  if ds.length > Number.digitLimit then .error .tooManyDigits
  else .ok (String.ofList (Binary64.signed (i < 0) (Binary64.groupThousands ds)))

/-- A double with commas between the thousands and at most three places, zeros at the end left
out. -/
def groupedReal (x : Binary64) : String :=
  let cs := stripEndBy (· == '0') (x.fixedText Binary64.groupThousands 3)
  String.ofList (stripEndBy (· == '.') cs)

/-- The number as a reader expects it: thousands grouped, at most three places. -/
def toLocale : Number → Result
  | .int i => (groupedInt i).map .text
  | .real x =>
      if x.isInteger then do
        let i ← (Number.real x).truncate
        return .text (← groupedInt i)
      else .ok (.text (groupedReal x))

/-- The methods of a number. -/
def ofNumber (n : Number) : List (String × (List Value → Result)) :=
  [("toFixed", maybeArg (.int 0) (toFixed n)),
    ("toPrecision", maybeArg .null (toPrecision n)),
    ("toString", maybeArg (.int 10) (toRadix n)),
    ("toLocaleString", maybeTwoArgs .null .null fun _ _ => toLocale n),
    ("valueOf", noArgs (.ok (.num n)))]

end Toolbar.Method
